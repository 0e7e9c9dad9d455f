import LwdMixnet.Splice.Loop

namespace LwdMixnet

-- One direction as its two ends see it: what its reader produced, what its
-- writer took, and what of this had been taken when a flush last came back.
structure Flow where
  read : Bytes := []
  accepted : Bytes := []
  flushed : Bytes := []
  deriving DecidableEq, Repr

def Flow.move (flow : Flow) (pump : Pump) (event : IoEvent) : Flow where
  read := flow.read ++ event.taken
  accepted := flow.accepted ++ pump.given event
  flushed := if event = .flushed then flow.accepted else flow.flushed

-- All that was read is at the writer, flushed and counted.
def Flow.Settled (flow : Flow) (bytes : Nat) : Prop :=
  flow.accepted = flow.read ∧ flow.flushed = flow.read ∧ bytes = flow.read.length

-- A direction that is in the middle of a chunk, or was dropped there.
structure Flow.Counted (flow : Flow) (bytes : Nat) : Prop where
  aligned : flow.accepted <+: flow.read
  counted : bytes ≤ flow.accepted.length
  uncounted : flow.accepted.length ≤ bytes + COPY_BUFFER

-- What holds of a direction at each of the three points where its pump may be
-- left, and once it has returned.
def Pump.Copies (pump : Pump) (flow : Flow) (bytes : Nat) : Prop :=
  match pump with
  | .reading | .returned (.ok ()) => flow.Settled bytes
  | .writing read rest => flow.accepted ++ rest = flow.read ∧
      flow.read.length = bytes + read ∧ rest.length ≤ read ∧ read ≤ COPY_BUFFER
  | .flushing read => flow.accepted = flow.read ∧ flow.read.length = bytes + read ∧
      read ≤ COPY_BUFFER
  | .returned (.error _) => flow.Counted bytes

theorem Flow.Settled.counted {flow : Flow} {bytes : Nat} (h : flow.Settled bytes) :
    flow.Counted bytes := by
  obtain ⟨haccepted, -, hbytes⟩ := h
  refine ⟨haccepted ▸ List.prefix_rfl, ?_, ?_⟩
  · rw [haccepted, hbytes]
  · rw [haccepted, hbytes]
    exact Nat.le_add_right _ _

theorem Pump.Copies.counted {pump : Pump} {flow : Flow} {bytes : Nat}
    (h : pump.Copies flow bytes) : flow.Counted bytes := by
  cases pump with
  | reading => exact Flow.Settled.counted h
  | writing read rest =>
      obtain ⟨hheld, hlen, hrest, hread⟩ := h
      have hsplit := congrArg List.length hheld
      rw [List.length_append] at hsplit
      exact ⟨⟨rest, hheld⟩, by omega, by omega⟩
  | flushing read =>
      obtain ⟨haccepted, hlen, hread⟩ := h
      rw [← haccepted] at hlen
      exact ⟨haccepted ▸ List.prefix_rfl, by omega, by omega⟩
  | returned result =>
      cases result with
      | ok => exact Flow.Settled.counted h
      | error error => exact h

theorem Pump.Copies.step {pump next : Pump} {event : IoEvent} {flow : Flow} {bytes : Nat}
    (h : pump.Copies flow bytes) (hs : pump.step event = some next) :
    next.Copies (flow.move pump event) (bytes + (pump.recorded event).getD 0) := by
  obtain ⟨error, rfl, rfl⟩ | ⟨rfl, rfl, rfl⟩ | ⟨chunk, rfl, rfl, hne, hfits, rfl⟩ |
    ⟨read, rest, count, rfl, rfl, hw⟩ | ⟨read, rfl, rfl, rfl⟩ := Pump.step_cases hs
  · have hgiven : pump.given (.failed error) = [] := by cases pump <;> rfl
    have hrecorded : pump.recorded (.failed error) = none := by cases pump <;> rfl
    have hcounted := h.counted
    simpa [Pump.Copies, Flow.move, hgiven, hrecorded, IoEvent.taken] using
      (⟨hcounted.aligned, hcounted.counted, hcounted.uncounted⟩ : Flow.Counted _ _)
  · simpa [Pump.Copies, Flow.Settled, Flow.move, Pump.given, Pump.recorded, IoEvent.taken] using h
  · obtain ⟨haccepted, hflushed, hbytes⟩ := h
    simp [Pump.Copies, Flow.move, Pump.given, Pump.recorded, IoEvent.taken, haccepted, hbytes,
      hfits]
  · obtain ⟨hheld, hlen, hrest, hread⟩ := h
    obtain ⟨left, hw, rfl⟩ | ⟨hw, rfl⟩ | ⟨error, hw, rfl⟩ := hw
    · obtain ⟨hleft, -⟩ := writeAll_pending hw
      have hshorter := congrArg List.length hleft
      rw [List.length_append] at hshorter
      refine ⟨?_, by simpa [Flow.move, IoEvent.taken, Pump.recorded] using hlen, by omega, hread⟩
      simp [Flow.move, IoEvent.taken, Pump.given, hleft, hheld]
    · refine ⟨?_, by simpa [Flow.move, IoEvent.taken, Pump.recorded] using hlen, hread⟩
      simp [Flow.move, IoEvent.taken, Pump.given, writeAll_complete hw, hheld]
    · have hcopies : Pump.Copies (.writing read rest) flow bytes := ⟨hheld, hlen, hrest, hread⟩
      have hcounted := hcopies.counted
      simpa [Pump.Copies, Flow.move, Pump.given, Pump.recorded, IoEvent.taken,
        writeAll_failed hw] using
        (⟨hcounted.aligned, hcounted.counted, hcounted.uncounted⟩ : Flow.Counted _ _)
  · obtain ⟨haccepted, hlen, -⟩ := h
    simp [Pump.Copies, Flow.Settled, Flow.move, Pump.given, Pump.recorded, IoEvent.taken,
      haccepted, hlen]

abbrev Flows := Way → Flow

def Flows.start : Flows := fun _ => {}

def Flows.move (flows : Flows) (splice : Splice) (event : SpliceEvent) : Flows := fun way =>
  match way, event with
  | .outbound, .outbound io => (flows .outbound).move splice.outbound io
  | .inbound, .inbound io => (flows .inbound).move splice.inbound io
  | way, _ => flows way

-- A splice, with what its two ends see of it.
def Splice.flowing : Machine (Splice × Flows) SpliceEvent := fun (splice, flows) event =>
  (splice.step event).map fun next => (next, flows.move splice event)

def Transfer.count (transfer : Transfer) : Way → Nat
  | .outbound => transfer.toRemote
  | .inbound => transfer.fromRemote

theorem Activity.transfer_count (activity : Activity) (way : Way) :
    activity.transfer.count way = (activity.direction way).bytes := by
  cases way <;> rfl

theorem bytes_record (activity : Activity) (way other : Way) (count elapsed : Nat) :
    ((activity.record way count elapsed).direction other).bytes =
      (activity.direction other).bytes + if way = other then count else 0 := by
  cases way <;> cases other <;> rfl

theorem bytes_records {pump : Pump} {way : Way} {io : IoEvent} {watch next : Watch}
    (h : Watch.step.run watch (pump.records way io) = some next) (other : Way) :
    (next.activity.direction other).bytes = (watch.activity.direction other).bytes +
      if way = other then (pump.recorded io).getD 0 else 0 := by
  obtain ⟨hrecorded, rfl⟩ | ⟨count, hrecorded, hs⟩ := Pump.records_cases h
  · simp [hrecorded]
  · obtain ⟨-, ⟨_, _, he, -, rfl⟩ | ⟨_, he, -⟩ | ⟨he, -⟩⟩ := Watch.step_cases hs
    · cases he
      rw [hrecorded]
      exact bytes_record watch.activity way other count watch.elapsed
    · cases he
    · cases he

theorem Watch.activity_kept {watch next : Watch} {event : WatchEvent}
    (h : Watch.step watch event = some next) (he : ∀ way count, event ≠ .moved way count) :
    next.activity = watch.activity := by
  obtain ⟨-, ⟨way, count, rfl, -⟩ | ⟨_, -, -, rfl⟩ | ⟨-, -, rfl⟩⟩ := Watch.step_cases h
  · exact absurd rfl (he way count)
  · rfl
  · rfl

-- A tick never reports the ordinary close.
theorem Watchdog.stalled_ne_closed (watchdog : Watchdog) (now since : Nat) :
    watchdog.stalled now since ≠ some .Closed := by
  unfold Watchdog.stalled
  split <;> (try split_ifs) <;> simp

theorem Watchdog.idled_ne_closed (watchdog : Watchdog) (now latest : Nat) :
    watchdog.idled now latest ≠ some .Closed := by
  unfold Watchdog.idled
  split <;> (try split_ifs) <;> simp

theorem Watch.ended_ne_closed {watch next : Watch} (h : Watch.step watch .tick = some next) :
    next.ended ≠ some .Closed := by
  obtain ⟨-, ⟨_, _, he, -⟩ | ⟨_, he, -⟩ | ⟨-, -, rfl⟩⟩ := Watch.step_cases h
  · cases he
  · cases he
  · simp only [Watchdog.tripped]
    split
    · intro hclosed
      rcases Option.or_eq_some_iff.mp hclosed with hstalled | ⟨-, hidled⟩
      · exact Watchdog.stalled_ne_closed _ _ _ hstalled
      · exact Watchdog.idled_ne_closed _ _ _ hidled
    · exact Watchdog.idled_ne_closed _ _ _

-- Both directions, and what the splice reports once it has ended.
structure Splice.Copies (splice : Splice) (flows : Flows) : Prop where
  ways : ∀ way, (splice.pump way).Copies (flows way) (splice.watch.activity.direction way).bytes
  running : splice.ended = none → ∀ way result, splice.pump way ≠ .returned result
  reported : ∀ transfer reason, splice.ended = some (transfer, reason) →
    transfer = splice.watch.activity.transfer ∧
      (reason = .Closed ↔ ∃ way, splice.pump way = .returned (.ok ()))

theorem Splice.start_copies (watchdog : Watchdog) : (Splice.start watchdog).Copies .start where
  ways way := by cases way <;> exact ⟨rfl, rfl, rfl⟩
  running _ way result := by cases way <;> simp [Splice.pump, Splice.start]
  reported _ _ h := by cases h

-- The pump of one direction took a step: the other direction is as it was.
theorem Splice.Copies.pumped {splice next : Splice} {flows moved : Flows} {io : IoEvent}
    {pump : Pump} (h : splice.Copies flows) (hgoes : splice.ended = none) (way : Way)
    (hp : (splice.pump way).step io = some pump)
    (hw : Watch.step.run splice.watch ((splice.pump way).records way io) = some next.watch)
    (hpump : ∀ other, next.pump other = if other = way then pump else splice.pump other)
    (hended : next.ended = pump.result.map fun result =>
      (next.watch.activity.transfer, LwdMixnet.ended result))
    (hmoved : ∀ other, moved other =
      if other = way then (flows way).move (splice.pump way) io else flows other) :
    next.Copies moved := by
  have hrunning := h.running hgoes
  refine ⟨fun other => ?_, fun hnone other result => ?_, fun transfer reason hreported => ?_⟩
  · rw [bytes_records hw, hpump, hmoved]
    by_cases ho : other = way
    · subst ho
      simpa using (h.ways other).step hp
    · simpa [ho, Ne.symm ho] using h.ways other
  · rw [hpump]
    split_ifs
    · rw [hended, Option.map_eq_none_iff] at hnone
      rintro rfl
      cases hnone
    · exact hrunning other result
  · rw [hended] at hreported
    obtain ⟨result, hresult, he⟩ := Option.map_eq_some_iff.mp hreported
    cases he
    obtain rfl : pump = .returned result := by
      cases pump with
      | returned other =>
          obtain rfl := Option.some.inj hresult
          rfl
      | reading | writing _ _ | flushing _ => cases hresult
    refine ⟨rfl, ?_⟩
    constructor
    · intro hclosed
      refine ⟨way, ?_⟩
      rw [hpump, if_pos rfl]
      cases result with
      | ok => rfl
      | error error => cases hclosed
    · rintro ⟨other, hother⟩
      rw [hpump] at hother
      split_ifs at hother
      · cases hother
        rfl
      · exact absurd hother (hrunning other _)

theorem Splice.Copies.step {splice next : Splice} {flows : Flows} {event : SpliceEvent}
    (h : splice.Copies flows) (hs : splice.step event = some next) :
    next.Copies (flows.move splice event) := by
  obtain ⟨hgoes, ⟨io, pump, watch, rfl, hp, hw, rfl⟩ | ⟨io, pump, watch, rfl, hp, hw, rfl⟩ |
    ⟨time, watch, rfl, hw, rfl⟩ | ⟨watch, rfl, hw, rfl⟩⟩ := Splice.step_cases hs
  · refine h.pumped hgoes .outbound hp hw (fun other => ?_) rfl (fun other => ?_)
    · cases other <;> rfl
    · cases other <;> rfl
  · refine h.pumped hgoes .inbound hp hw (fun other => ?_) rfl (fun other => ?_)
    · cases other <;> rfl
    · cases other <;> rfl
  · have hmoved : flows.move splice (.elapse time) = flows := by
      funext way
      cases way <;> rfl
    have hactivity := Watch.activity_kept hw (by simp)
    rw [hmoved]
    refine ⟨fun way => hactivity ▸ h.ways way, fun _ => h.running hgoes,
      fun transfer reason hreported => ?_⟩
    change splice.ended = some (transfer, reason) at hreported
    rw [hgoes] at hreported
    cases hreported
  · have hmoved : flows.move splice .tick = flows := by
      funext way
      cases way <;> rfl
    have hactivity := Watch.activity_kept hw (by simp)
    have hrunning := h.running hgoes
    rw [hmoved]
    refine ⟨fun way => hactivity ▸ h.ways way, fun _ => hrunning,
      fun transfer reason hreported => ?_⟩
    obtain ⟨tripped, htripped, he⟩ := Option.map_eq_some_iff.mp hreported
    cases he
    refine ⟨rfl, fun hclosed => ?_, fun ⟨way, hway⟩ => absurd hway (hrunning way _)⟩
    rw [hclosed] at htripped
    exact absurd htripped (Watch.ended_ne_closed hw)

theorem splice_copies {watchdog : Watchdog} {events : List SpliceEvent} {splice : Splice}
    {flows : Flows}
    (hr : Splice.flowing.run (.start watchdog, .start) events = some (splice, flows)) :
    splice.Copies flows := by
  refine Machine.run_invariant (fun state : Splice × Flows => state.1.Copies state.2) ?_
    (Splice.start_copies watchdog) hr
  rintro ⟨splice, flows⟩ event ⟨next, moved⟩ h hs
  obtain ⟨_, hstep, he⟩ := Option.map_eq_some_iff.mp hs
  cases he
  exact Splice.Copies.step h hstep

-- Wherever a splice stands or was left, each direction was copied in order and
-- without a gap, and at most one buffer of it is not in the count. The direction
-- whose reader ended is copied, flushed and counted whole.
theorem splice_transfers (watchdog : Watchdog) (events : List SpliceEvent) (splice : Splice)
    (flows : Flows)
    (hr : Splice.flowing.run (.start watchdog, .start) events = some (splice, flows)) :
    (∀ way, (flows way).accepted <+: (flows way).read) ∧
    ∀ transfer reason, splice.ended = some (transfer, reason) →
      (∀ way, transfer.count way ≤ (flows way).accepted.length ∧
        (flows way).accepted.length ≤ transfer.count way + COPY_BUFFER) ∧
      (reason = .Closed ↔ ∃ way, splice.pump way = .returned (.ok ())) ∧
      ∀ way, splice.pump way = .returned (.ok ()) →
        (flows way).accepted = (flows way).read ∧ (flows way).flushed = (flows way).read ∧
        transfer.count way = (flows way).read.length := by
  have hcopies := splice_copies hr
  refine ⟨fun way => (hcopies.ways way).counted.aligned, fun transfer reason hended => ?_⟩
  obtain ⟨rfl, hclosed⟩ := hcopies.reported transfer reason hended
  refine ⟨fun way => ?_, hclosed, fun way hpump => ?_⟩
  · have hcounted := (hcopies.ways way).counted
    rw [Activity.transfer_count]
    exact ⟨hcounted.counted, hcounted.uncounted⟩
  · have hsettled := hcopies.ways way
    rw [hpump] at hsettled
    rw [Activity.transfer_count]
    exact hsettled

-- A request in two writes, and an answer that is being written when the wallet
-- closes.
def closedMidAnswer : List SpliceEvent :=
  [.outbound (.read [1, 2, 3]), .outbound (.wrote 2), .elapse 7, .outbound (.wrote 1),
    .outbound .flushed, .inbound (.read [4, 5]), .inbound (.wrote 1), .outbound (.read [])]

theorem closed_mid_answer_transfers : ∃ splice flows,
    Splice.flowing.run (.start {}, .start) closedMidAnswer = some (splice, flows) ∧
    splice.ended = some (⟨3, 0⟩, .Closed) ∧ (flows .outbound).flushed = [1, 2, 3] ∧
    (flows .inbound).accepted = [4] ∧ [4] <+: (flows .inbound).read := by
  obtain ⟨⟨splice, flows⟩, hr, hseen⟩ : ∃ state,
      Splice.flowing.run (.start {}, .start) closedMidAnswer = some state ∧
      (state.1.ended, state.1.outbound, (state.2 .outbound).read, (state.2 .inbound).accepted) =
        (some (⟨3, 0⟩, .Closed), .returned (.ok ()), [1, 2, 3], [4]) :=
    Option.map_eq_some_iff.mp (by decide +kernel)
  obtain ⟨hended, houtbound, hread, haccepted⟩ : splice.ended = some (⟨3, 0⟩, .Closed) ∧
      splice.outbound = .returned (.ok ()) ∧ (flows .outbound).read = [1, 2, 3] ∧
      (flows .inbound).accepted = [4] := by
    simpa using hseen
  obtain ⟨haligned, hreported⟩ := splice_transfers {} closedMidAnswer splice flows hr
  obtain ⟨-, -, hsettled⟩ := hreported _ _ hended
  refine ⟨splice, flows, hr, hended, ?_, haccepted, haccepted ▸ haligned .inbound⟩
  exact (hsettled .outbound houtbound).2.1.trans hread

end LwdMixnet
