import LwdMixnet.Machine.Crew
import LwdMixnet.Serve.Relay
import Mathlib.Algebra.Order.BigOperators.Group.List
import Mathlib.Algebra.Order.Group.Int

namespace LwdMixnet

-- The single updates that the metrics' methods are made of.
inductive ServerUpdate
  | streamAccepted
  | streamRejected (reason : String)
  | streamWithoutRequest
  | upstreamFailure
  | upstreamConnection
  | inFlight
  | bytes (direction : String) (count : Nat)
  | ended (reason : String)
  | dropInFlight
  deriving DecidableEq, Repr

def ServerUpdate.apply (update : ServerUpdate) (metrics : ServerMetrics) : ServerMetrics :=
  match update with
  | .streamAccepted => metrics.streamAccepted
  | .streamRejected reason =>
      { metrics with streamsRejected := metrics.streamsRejected.incBy reason 1 }
  | .streamWithoutRequest => metrics.streamWithoutRequest
  | .upstreamFailure => metrics.upstreamUnreachable
  | .upstreamConnection =>
      { metrics with upstreamConnections := metrics.upstreamConnections + 1 }
  | .inFlight => { metrics with inFlight := metrics.inFlight + 1 }
  | .bytes direction count => { metrics with bytes := metrics.bytes.incBy direction count }
  | .ended reason => { metrics with ended := metrics.ended.incBy reason 1 }
  | .dropInFlight => metrics.dropInFlight

def ServerMetrics.replay (metrics : ServerMetrics) (updates : List ServerUpdate) : ServerMetrics :=
  updates.foldl (fun metrics update => update.apply metrics) metrics

def serverFinished (transfer : Transfer) (ended : Ended) : List ServerUpdate :=
  [.bytes "to_mixnet" transfer.toRemote, .bytes "from_mixnet" transfer.fromRemote,
    .ended (endedReason ended)]

-- The updates a step of `serve` makes, in its order.
def Serve.emits (settings : ServeSettings) (serve : Serve) (event : ServeEvent) :
    List ServerUpdate :=
  match serve.phase, event with
  | .accepting accept, .stream waited =>
      match accept.step settings.handshakeTimeout serve.elapsed waited with
      | some (.returned (.ok _)) => [.streamAccepted]
      | some (.returned (.error error)) => [.streamRejected (handshakeReason error)]
      | _ => []
  | .awaitingRequest _, .stream (.io (.read opening)) =>
      if opening = [] then [.streamWithoutRequest] else []
  | .awaitingRequest _, .stream (.io (.failed _)) => [.streamWithoutRequest]
  | .awaitingRequest _, .stream .expired => [.streamWithoutRequest]
  | .connecting _, .connected => [.upstreamConnection, .inFlight]
  | .connecting _, .refused _ => [.upstreamFailure]
  | .writing _, .upstream (.failed _) => [.dropInFlight]
  | .writing rest, .upstream (.wrote count) =>
      match writeAll rest count with
      | some (.failed _) => [.dropInFlight]
      | _ => []
  | .splicing splice, .splice waited =>
      match (splice.step waited).bind Splice.ended with
      | some (transfer, ended) => serverFinished transfer ended ++ [.dropInFlight]
      | none => []
  | _, _ => []

-- The steps of one task, with what they make of the metrics.
theorem Serve.step_emits (settings : ServeSettings) (metrics : ServerMetrics) (serve : Serve)
    (event : ServeEvent) :
    Serve.step settings (metrics, serve) event = (Serve.own settings serve event).map fun next =>
      (metrics.replay (serve.emits settings event), next) := by
  obtain ⟨elapsed, stream, upstream, phase⟩ := serve
  unfold Serve.own
  cases phase with
  | accepting accept =>
      cases event with
      | stream waited =>
          simp only [Serve.step, Serve.emits]
          cases accept.step settings.handshakeTimeout elapsed waited with
          | none => rfl
          | some resumed =>
              cases resumed with
              | returned result => cases result <;> rfl
              | reading _ _ | echoing _ _ => rfl
      | elapse time =>
          simp only [Serve.step, Serve.emits]
          split <;> rfl
      | connected | refused _ | upstream _ | splice _ => rfl
  | awaitingRequest deadline =>
      cases event with
      | stream waited =>
          cases waited with
          | io io =>
              cases io with
              | read opening =>
                  simp only [Serve.step, Serve.emits]
                  split_ifs <;> rfl
              | wrote _ | flushed | failed _ => rfl
          | expired =>
              simp only [Serve.step, Serve.emits]
              split <;> rfl
      | elapse time =>
          simp only [Serve.step, Serve.emits]
          split <;> rfl
      | connected | refused _ | upstream _ | splice _ => rfl
  | connecting opening => cases event <;> rfl
  | writing rest =>
      cases event with
      | upstream io =>
          cases io with
          | wrote count =>
              simp only [Serve.step, Serve.emits]
              cases writeAll rest count with
              | none => rfl
              | some result => cases result <;> rfl
          | read _ | flushed | failed _ => rfl
      | stream _ | connected | refused _ | splice _ | elapse _ => rfl
  | splicing splice =>
      cases event with
      | splice waited =>
          simp only [Serve.step, Serve.emits]
          cases splice.step waited with
          | none => rfl
          | some next =>
              simp only [Option.bind_some]
              cases next.ended with
              | none => rfl
              | some verdict => rfl
      | stream _ | connected | refused _ | upstream _ | elapse _ => rfl
  | returned =>
      cases event with
      | elapse time => rfl
      | stream _ | connected | refused _ | upstream _ | splice _ => rfl

-- Whether an accepted stream still waits for a request, or for the upstream.
def ServePhase.waiting : ServePhase → Bool
  | .awaitingRequest _ | .connecting _ => true
  | _ => false

-- Whether the task holds the guard of its connection to the upstream.
def ServePhase.inFlight : ServePhase → Bool
  | .writing _ | .splicing _ => true
  | _ => false

-- The first request could not be written, and the task returns.
def Serve.abandons (serve : Serve) (event : ServeEvent) : Bool :=
  match serve.phase, event with
  | .writing _, .upstream (.failed _) => true
  | .writing _, .upstream (.wrote count) => count = 0
  | _, _ => false

-- Each step that makes an update, by what it means for the stream.
theorem Serve.emits_cases {settings : ServeSettings} {serve next : Serve} {event : ServeEvent}
    (hown : Serve.own settings serve event = some next) :
    (serve.emits settings event = [.streamAccepted] ∧
      (serve.phase.waiting = false ∧ next.phase.waiting = true) ∧
      (serve.phase.inFlight = false ∧ next.phase.inFlight = false) ∧
      serve.abandons event = false) ∨
    (∃ reason, serve.emits settings event = [.streamRejected reason] ∧
      (serve.phase.waiting = false ∧ next.phase.waiting = false) ∧
      (serve.phase.inFlight = false ∧ next.phase.inFlight = false) ∧
      serve.abandons event = false) ∨
    ((serve.emits settings event = [.streamWithoutRequest] ∨
        serve.emits settings event = [.upstreamFailure]) ∧
      (serve.phase.waiting = true ∧ next.phase.waiting = false) ∧
      (serve.phase.inFlight = false ∧ next.phase.inFlight = false) ∧
      serve.abandons event = false) ∨
    (serve.emits settings event = [.upstreamConnection, .inFlight] ∧
      (serve.phase.waiting = true ∧ next.phase.waiting = false) ∧
      (serve.phase.inFlight = false ∧ next.phase.inFlight = true) ∧
      serve.abandons event = false) ∨
    (serve.emits settings event = [.dropInFlight] ∧
      (serve.phase.waiting = false ∧ next.phase.waiting = false) ∧
      (serve.phase.inFlight = true ∧ next.phase.inFlight = false) ∧
      serve.abandons event = true) ∨
    (∃ transfer ended, serve.emits settings event =
        serverFinished transfer ended ++ [.dropInFlight] ∧ serve.phase.waiting = false ∧
      (serve.phase.inFlight = true ∧ next.phase = .returned) ∧ serve.abandons event = false) ∨
    (serve.emits settings event = [] ∧ next.phase.waiting = serve.phase.waiting ∧
      next.phase.inFlight = serve.phase.inFlight ∧ serve.abandons event = false) := by
  obtain ⟨after, hs⟩ := Serve.own_step hown
  clear hown
  simp only [Serve.step] at hs
  split at hs
  · rename_i accept waited hphase
    cases ha : accept.step settings.handshakeTimeout serve.elapsed waited with
    | none => simp [ha] at hs
    | some resumed =>
        simp only [ha] at hs
        cases resumed with
        | returned result =>
            cases result <;> cases hs <;>
              simp [Serve.emits, hphase, ha, ServePhase.waiting, ServePhase.inFlight,
                Serve.abandons]
        | reading _ _ | echoing _ _ =>
            cases hs
            simp [Serve.emits, hphase, ha, ServePhase.waiting, ServePhase.inFlight,
              Serve.abandons]
  · rename_i hphase
    split_ifs at hs with hempty <;> cases hs <;>
      simp [Serve.emits, hphase, hempty, ServePhase.waiting, ServePhase.inFlight, Serve.abandons]
  · rename_i hphase
    cases hs
    simp [Serve.emits, hphase, ServePhase.waiting, ServePhase.inFlight, Serve.abandons]
  · rename_i hphase
    split_ifs at hs
    cases hs
    simp [Serve.emits, hphase, ServePhase.waiting, ServePhase.inFlight, Serve.abandons]
  · rename_i hphase
    cases hs
    simp [Serve.emits, hphase, ServePhase.waiting, ServePhase.inFlight, Serve.abandons]
  · rename_i hphase
    cases hs
    simp [Serve.emits, hphase, ServePhase.waiting, ServePhase.inFlight, Serve.abandons]
  · rename_i hphase
    cases hs
    simp [Serve.emits, hphase, ServePhase.waiting, ServePhase.inFlight, Serve.abandons]
  · rename_i rest count hphase
    cases hw : writeAll rest count with
    | none => simp [hw] at hs
    | some result =>
        have hzero : count = 0 ↔ ∃ error, result = .failed error := by
          unfold writeAll at hw
          split_ifs at hw with hzero <;> cases hw <;> simp [hzero]
        simp only [hw] at hs
        cases result <;> cases hs <;>
          simp_all [Serve.emits, ServePhase.waiting, ServePhase.inFlight, Serve.abandons]
  · rename_i splice waited hphase
    cases hr : splice.step waited with
    | none => simp [hr] at hs
    | some resumed =>
        simp only [hr] at hs
        cases he : resumed.ended with
        | none =>
            rw [he] at hs
            cases hs
            simp [Serve.emits, hphase, hr, he, ServePhase.waiting, ServePhase.inFlight,
              Serve.abandons]
        | some verdict =>
            rw [he] at hs
            cases hs
            simp [Serve.emits, hphase, hr, he, ServePhase.waiting, ServePhase.inFlight,
              Serve.abandons]
  · split_ifs at hs
    cases hs
    cases hphase : serve.phase <;> simp [Serve.emits, Serve.abandons, hphase]
  · cases hs

-- The accepted streams that no other count answers for, and the connections
-- to the upstream that are neither in flight nor ended.
def ServerMetrics.unaccounted (metrics : ServerMetrics) : Int :=
  metrics.streamsAccepted - metrics.streamsWithoutRequest - metrics.upstreamFailures -
    metrics.inFlight - metrics.ended.total endedReasons

def ServerMetrics.unended (metrics : ServerMetrics) : Int :=
  metrics.upstreamConnections - metrics.inFlight - metrics.ended.total endedReasons

def ServerUpdate.unaccounted : ServerUpdate → Int
  | .streamAccepted | .dropInFlight => 1
  | .streamWithoutRequest | .upstreamFailure | .inFlight => -1
  | .ended reason => -endedReasons.count reason
  | _ => 0

def ServerUpdate.unended : ServerUpdate → Int
  | .upstreamConnection | .dropInFlight => 1
  | .inFlight => -1
  | .ended reason => -endedReasons.count reason
  | _ => 0

def ServerUpdate.isEnded : ServerUpdate → Bool
  | .ended _ => true
  | _ => false

theorem ServerUpdate.apply_unaccounted (update : ServerUpdate) (metrics : ServerMetrics) :
    (update.apply metrics).unaccounted = metrics.unaccounted + update.unaccounted := by
  cases update with
  | ended reason =>
      simp only [ServerUpdate.apply, ServerMetrics.unaccounted, ServerUpdate.unaccounted,
        CounterVec.total_incBy]
      omega
  | streamAccepted | streamRejected _ | streamWithoutRequest | upstreamFailure
  | upstreamConnection | inFlight | bytes _ _ | dropInFlight =>
      simp only [ServerUpdate.apply, ServerMetrics.unaccounted, ServerUpdate.unaccounted,
        ServerMetrics.streamAccepted, ServerMetrics.streamWithoutRequest,
        ServerMetrics.upstreamUnreachable, ServerMetrics.dropInFlight]
      omega

theorem ServerUpdate.apply_unended (update : ServerUpdate) (metrics : ServerMetrics) :
    (update.apply metrics).unended = metrics.unended + update.unended := by
  cases update with
  | ended reason =>
      simp only [ServerUpdate.apply, ServerMetrics.unended, ServerUpdate.unended,
        CounterVec.total_incBy]
      omega
  | streamAccepted | streamRejected _ | streamWithoutRequest | upstreamFailure
  | upstreamConnection | inFlight | bytes _ _ | dropInFlight =>
      simp only [ServerUpdate.apply, ServerMetrics.unended, ServerUpdate.unended,
        ServerMetrics.streamAccepted, ServerMetrics.streamWithoutRequest,
        ServerMetrics.upstreamUnreachable, ServerMetrics.dropInFlight]
      omega

-- What a task has done to the metrics since it started, and how often it
-- abandoned a request.
def Serve.made (settings : ServeSettings) (events : List ServeEvent) : List ServerUpdate :=
  (Serve.own settings).views (Serve.emits settings) (.start settings) events

def Serve.abandoned (settings : ServeSettings) (events : List ServeEvent) : List Unit :=
  (Serve.own settings).views (fun serve event => if serve.abandons event then [()] else [])
    (.start settings) events

-- The updates of one task balance up to what it still waits for, holds or gave
-- up on.
def Serve.Balanced (settings : ServeSettings) (events : List ServeEvent) (serve : Serve) : Prop :=
  ((Serve.made settings events).map ServerUpdate.unaccounted).sum =
    serve.phase.waiting.toNat + (Serve.abandoned settings events).length ∧
  ((Serve.made settings events).map ServerUpdate.unended).sum =
    (Serve.abandoned settings events).length ∧
  (Serve.made settings events).count .upstreamConnection =
    serve.phase.inFlight.toNat + (Serve.made settings events).countP ServerUpdate.isEnded +
      (Serve.abandoned settings events).length

theorem serve_balanced {settings : ServeSettings} {events : List ServeEvent} {serve : Serve}
    (hr : (Serve.own settings).run (.start settings) events = some serve) :
    serve.Balanced settings events := by
  refine Machine.run_history (Serve.Balanced settings) ⟨rfl, rfl, rfl⟩ ?_ hr
  intro events serve event next hr ⟨haccepted, hconnected, hconnections⟩ hs
  have hmade : Serve.made settings (events ++ [event]) =
      Serve.made settings events ++ serve.emits settings event :=
    Machine.views_concat _ (Serve.emits settings) hr hs
  have habandoned : Serve.abandoned settings (events ++ [event]) =
      Serve.abandoned settings events ++ if serve.abandons event then [()] else [] :=
    Machine.views_concat _ (fun serve event => if Serve.abandons serve event then [()] else [])
      hr hs
  rw [Serve.Balanced, hmade, habandoned]
  simp only [List.map_append, List.sum_append, List.length_append, List.count_append,
    List.countP_append, haccepted, hconnected, hconnections]
  obtain ⟨he, ⟨hw, hw'⟩, ⟨hi, hi'⟩, ha⟩ | ⟨reason, he, ⟨hw, hw'⟩, ⟨hi, hi'⟩, ha⟩ |
    ⟨he | he, ⟨hw, hw'⟩, ⟨hi, hi'⟩, ha⟩ | ⟨he, ⟨hw, hw'⟩, ⟨hi, hi'⟩, ha⟩ |
    ⟨he, ⟨hw, hw'⟩, ⟨hi, hi'⟩, ha⟩ | ⟨transfer, ended, he, hw, ⟨hi, hi'⟩, ha⟩ |
    ⟨he, hw, hi, ha⟩ := Serve.emits_cases hs
  · simp [he, hw, hw', hi, hi', ha, ServerUpdate.unaccounted, ServerUpdate.unended,
      ServerUpdate.isEnded]
    omega
  · simp [he, hw, hw', hi, hi', ha, ServerUpdate.unaccounted, ServerUpdate.unended,
      ServerUpdate.isEnded]
  · simp [he, hw, hw', hi, hi', ha, ServerUpdate.unaccounted, ServerUpdate.unended,
      ServerUpdate.isEnded]
  · simp [he, hw, hw', hi, hi', ha, ServerUpdate.unaccounted, ServerUpdate.unended,
      ServerUpdate.isEnded]
  · simp [he, hw, hw', hi, hi', ha, ServerUpdate.unaccounted, ServerUpdate.unended,
      ServerUpdate.isEnded]
    omega
  · simp [he, hw, hw', hi, hi', ha, ServerUpdate.unaccounted, ServerUpdate.unended,
      ServerUpdate.isEnded]
    omega
  · have hw' : next.phase.waiting = false := by rw [hi']; rfl
    have hi' : next.phase.inFlight = false := by rw [hi']; rfl
    simp [he, hw, hw', hi, hi', ha, ServerUpdate.unaccounted, ServerUpdate.unended,
      ServerUpdate.isEnded, serverFinished, count_endedReason, List.countP_cons]
    omega
  · simp [he, hw, hi, ha]

-- Any number of tasks, whose updates of the metrics interleave.
abbrev Serving := Machine.Crew Serve ServerUpdate ServerMetrics

abbrev Serving.step (settings : ServeSettings) : Machine Serving (Machine.CrewEvent ServeEvent) :=
  Machine.crew (Serve.own settings) (.start settings) (Serve.emits settings) ServerUpdate.apply

def Serving.start : Serving where
  shared := {}

-- No stream is lost: each accepted one is still waiting or in one count, and
-- each connection to the upstream that is over is in the count of endings once.
def Serving.Accounted (serving : Serving) : Prop :=
  (serving.shared.streamsAccepted : Int) =
    serving.members.countP (·.state.phase.waiting) + serving.shared.streamsWithoutRequest +
      serving.shared.upstreamFailures + serving.shared.inFlight +
      serving.shared.ended.total endedReasons ∧
  (serving.shared.upstreamConnections : Int) =
    serving.shared.inFlight + serving.shared.ended.total endedReasons ∧
  ∀ member ∈ serving.members, member.state.phase = .returned →
    member.log.count .upstreamConnection = member.log.countP ServerUpdate.isEnded

theorem abandoned_eq_nil {settings : ServeSettings} {events : List ServeEvent} {serve : Serve}
    (hr : (Serve.own settings).run (.start settings) events = some serve) :
    Serve.abandoned settings events = [] ↔ ∀ before event after middle,
      events = before ++ event :: after →
      (Serve.own settings).run (.start settings) before = some middle →
      middle.abandons event = false := by
  constructor
  · rintro hnone before event after middle rfl hbefore
    obtain ⟨_, hsame, hafter⟩ := Machine.run_append_some hr
    obtain rfl := Option.some.inj (hbefore.symm.trans hsame)
    obtain ⟨next, hs, -⟩ := Option.bind_eq_some_iff.mp hafter
    rw [Serve.abandoned, Machine.views_append _ _ hbefore] at hnone
    simp only [Machine.views, hs, List.append_eq_nil_iff] at hnone
    simpa using hnone.2.1
  · intro hnever
    refine List.eq_nil_iff_forall_not_mem.mpr fun once honce => ?_
    obtain ⟨before, event, after, middle, hevents, hbefore, hmem⟩ := Machine.mem_views honce
    simp [hnever before event after middle hevents hbefore] at hmem

theorem ServerMetrics.accounted_iff (metrics : ServerMetrics) (waiting : Nat) :
    ((metrics.streamsAccepted : Int) = waiting + metrics.streamsWithoutRequest +
        metrics.upstreamFailures + metrics.inFlight + metrics.ended.total endedReasons ∧
      (metrics.upstreamConnections : Int) =
        metrics.inFlight + metrics.ended.total endedReasons) ↔
    metrics.unaccounted = waiting ∧ metrics.unended = 0 := by
  unfold ServerMetrics.unaccounted ServerMetrics.unended
  omega

section

variable {settings : ServeSettings} {events : List (Machine.CrewEvent ServeEvent)}
  {serving : Serving}

theorem Serving.member_balanced
    (hr : (Serving.step settings).run .start events = some serving)
    (hidle : ∀ member ∈ serving.members, member.pending = []) {id : Nat}
    {member : Machine.Member Serve ServerUpdate} (hid : serving.members[id]? = some member) :
    member.log = Serve.made settings (Machine.ownEvents id events) ∧
      member.state.Balanced settings (Machine.ownEvents id events) := by
  obtain ⟨hrun, hlog⟩ := Machine.crew_member hr hid
  rw [hidle member (List.mem_of_getElem? hid), List.append_nil] at hlog
  exact ⟨hlog, serve_balanced hrun⟩

-- Both balances of the metrics come to the requests that were abandoned.
theorem Serving.balances (hr : (Serving.step settings).run .start events = some serving)
    (hidle : ∀ member ∈ serving.members, member.pending = []) :
    serving.shared.unaccounted = serving.members.countP (·.state.phase.waiting) +
      (serving.members.map fun member => (member.log.map ServerUpdate.unended).sum).sum ∧
    serving.shared.unended =
      (serving.members.map fun member => (member.log.map ServerUpdate.unended).sum).sum := by
  have haccounted := Machine.crew_tally ServerMetrics.unaccounted ServerUpdate.unaccounted
    ServerUpdate.apply_unaccounted hr
  have hended := Machine.crew_tally ServerMetrics.unended ServerUpdate.unended
    ServerUpdate.apply_unended hr
  have hsplit : (serving.members.map fun member =>
      (member.log.map ServerUpdate.unaccounted).sum) =
      serving.members.map fun member => (member.state.phase.waiting.toNat : Int) +
        (member.log.map ServerUpdate.unended).sum := by
    refine List.map_congr_left fun member hmember => ?_
    obtain ⟨id, hid⟩ := List.mem_iff_getElem?.mp hmember
    obtain ⟨hlog, haccepted, hconnected, -⟩ := Serving.member_balanced hr hidle hid
    rw [hlog, haccepted, hconnected]
  rw [hsplit, List.sum_map_add, Machine.sum_map_toNat] at haccounted
  exact ⟨haccounted.trans (Int.zero_add _), hended.trans (Int.zero_add _)⟩

-- The accounting loses exactly the streams whose first request could not be
-- written to the upstream.
theorem serving_accounted_iff (hr : (Serving.step settings).run .start events = some serving)
    (hidle : ∀ member ∈ serving.members, member.pending = []) :
    serving.Accounted ↔ ∀ id before event after serve,
      Machine.ownEvents id events = before ++ event :: after →
      (Serve.own settings).run (.start settings) before = some serve →
      serve.abandons event = false := by
  obtain ⟨haccounted, hended⟩ := Serving.balances hr hidle
  have hlost (id : Nat) (member : Machine.Member Serve ServerUpdate)
      (hid : serving.members[id]? = some member) :
      (member.log.map ServerUpdate.unended).sum =
        (Serve.abandoned settings (Machine.ownEvents id events)).length := by
    obtain ⟨hlog, -, hconnected, -⟩ := Serving.member_balanced hr hidle hid
    rw [hlog, hconnected]
  have hnonneg : ∀ lost ∈ serving.members.map fun member =>
      (member.log.map ServerUpdate.unended).sum, 0 ≤ lost := by
    intro lost hlist
    obtain ⟨member, hmember, rfl⟩ := List.mem_map.mp hlist
    obtain ⟨id, hid⟩ := List.mem_iff_getElem?.mp hmember
    rw [hlost id member hid]
    exact Int.natCast_nonneg _
  have hleft := ServerMetrics.accounted_iff serving.shared
    (serving.members.countP (·.state.phase.waiting))
  constructor
  · rintro ⟨haccepted, hconnected, -⟩ id before event after serve hevents hbefore
    have hsum : (serving.members.map fun member =>
        (member.log.map ServerUpdate.unended).sum).sum = 0 := by
      rw [← hended]
      exact (hleft.mp ⟨haccepted, hconnected⟩).2
    have hfaithful := Machine.crew_faithful hr id
    cases hid : serving.members[id]? with
    | none =>
        rw [hid, hevents] at hfaithful
        simp at hfaithful
    | some member =>
        rw [hid] at hfaithful
        have hmember := List.mem_of_getElem? hid
        have hzero := List.all_zero_of_le_zero_le_of_sum_eq_zero hnonneg hsum
          (List.mem_map_of_mem hmember)
        rw [hlost id member hid, Int.natCast_eq_zero, List.length_eq_zero_iff] at hzero
        exact (abandoned_eq_nil hfaithful.1).mp hzero before event after serve hevents hbefore
  · intro hnever
    have hnone (id : Nat) (member : Machine.Member Serve ServerUpdate)
        (hid : serving.members[id]? = some member) :
        Serve.abandoned settings (Machine.ownEvents id events) = [] :=
      (abandoned_eq_nil (Machine.crew_member hr hid).1).mpr (hnever id)
    have hsum : (serving.members.map fun member =>
        (member.log.map ServerUpdate.unended).sum).sum = 0 := by
      refine List.sum_eq_zero fun lost hlist => ?_
      obtain ⟨member, hmember, rfl⟩ := List.mem_map.mp hlist
      obtain ⟨id, hid⟩ := List.mem_iff_getElem?.mp hmember
      rw [hlost id member hid, hnone id member hid]
      rfl
    rw [hsum, Int.add_zero] at haccounted
    obtain ⟨haccepted, hconnected⟩ := hleft.mpr ⟨haccounted, hended.trans hsum⟩
    refine ⟨haccepted, hconnected, fun member hmember hreturned => ?_⟩
    obtain ⟨id, hid⟩ := List.mem_iff_getElem?.mp hmember
    obtain ⟨hlog, -, -, hconnections⟩ := Serving.member_balanced hr hidle hid
    rw [hlog, hconnections, hnone id member hid, hreturned]
    simp [ServePhase.inFlight]

end

def accountSettings : ServeSettings where
  handshakeTimeout := 10
  firstRequestTimeout := 20
  idleTimeout := 300

-- One stream is carried until the upstream closes it, and another says nothing
-- that we know.
def carriedAndForeign : List (Machine.CrewEvent ServeEvent) :=
  [.join, .step 0 (.stream (.io (.read (Header.encode ⟨false, 7⟩)))), .join, .update 0,
    .step 1 (.stream (.io (.read (List.replicate HEADER_LEN 0)))),
    .step 0 (.stream (.io (.read [80]))), .step 0 .connected, .update 0, .update 1, .update 0,
    .step 0 (.upstream (.wrote 1)), .step 0 (.splice (.outbound (.read []))), .update 0,
    .update 0, .update 0, .update 0]

theorem carried_and_foreign_accounted : ∃ serving,
    (Serving.step accountSettings).run .start carriedAndForeign = some serving ∧
    serving.members.map (·.state.phase) = [.returned, .returned] ∧ serving.Accounted := by
  obtain ⟨serving, hr, hmembers⟩ : ∃ serving,
      (Serving.step accountSettings).run .start carriedAndForeign = some serving ∧
      serving.members.map (fun member => (member.state.phase, member.pending)) =
        [(.returned, []), (.returned, [])] :=
    Option.map_eq_some_iff.mp (by decide +kernel)
  have hidle : ∀ member ∈ serving.members, member.pending = [] := by
    intro member hmember
    have hin := List.mem_map_of_mem (f := fun member => (member.state.phase, member.pending))
      hmember
    rw [hmembers] at hin
    simp at hin
    exact hin.2
  refine ⟨serving, hr, ?_, (serving_accounted_iff hr hidle).mpr ?_⟩
  · have hphases := congrArg (List.map Prod.fst) hmembers
    rwa [List.map_map] at hphases
  · intro id before event after serve hevents _
    have hevent : Machine.CrewEvent.step id event ∈ carriedAndForeign :=
      Machine.mem_ownEvents.mp (by simp [hevents])
    unfold Serve.abandons
    split
    · simp [carriedAndForeign] at hevent
    · rename_i count _
      have hcount : count = 1 := by
        simp [carriedAndForeign] at hevent
        exact hevent.2
      simp [hcount]
    · rfl

-- The upstream resets the connection before the first request is written.
def abandonedRequest : List (Machine.CrewEvent ServeEvent) :=
  [.join, .step 0 (.stream (.io (.read (Header.encode ⟨false, 7⟩)))), .update 0,
    .step 0 (.stream (.io (.read [80]))), .step 0 .connected, .update 0, .update 0,
    .step 0 (.upstream (.failed (.Other 104))), .update 0]

theorem abandoned_request_unaccounted : ¬∀ (settings : ServeSettings)
    (events : List (Machine.CrewEvent ServeEvent)) (serving : Serving),
    (Serving.step settings).run .start events = some serving →
    (∀ member ∈ serving.members, member.pending = []) → serving.Accounted := by
  intro hclaim
  obtain ⟨serving, hr, hcounts⟩ : ∃ serving,
      (Serving.step accountSettings).run .start abandonedRequest = some serving ∧
      (serving.members.map (·.pending), serving.shared.upstreamConnections,
        serving.shared.inFlight, serving.shared.ended.total endedReasons) = ([[]], 1, 0, 0) :=
    Option.map_eq_some_iff.mp (by decide +kernel)
  obtain ⟨hpending, hconnections, hinFlight, htotal⟩ : serving.members.map (·.pending) = [[]] ∧
      serving.shared.upstreamConnections = 1 ∧ serving.shared.inFlight = 0 ∧
      serving.shared.ended.total endedReasons = 0 := by
    simpa using hcounts
  have hidle : ∀ member ∈ serving.members, member.pending = [] := by
    intro member hmember
    have hin := List.mem_map_of_mem (f := fun member => member.pending) hmember
    rw [hpending] at hin
    exact List.mem_singleton.mp hin
  have hconnected := (hclaim _ _ serving hr hidle).2.1
  rw [hconnections, hinFlight, htotal] at hconnected
  exact absurd hconnected (by decide)

end LwdMixnet
