import LwdMixnet.Handshake.Exchange
import LwdMixnet.Metrics
import LwdMixnet.Splice.Loop

namespace LwdMixnet

def FIRST_CHUNK : Nat := 8 * 1024

structure ServeSettings where
  handshakeTimeout : Nat
  firstRequestTimeout : Nat
  idleTimeout : Nat
  deriving DecidableEq, Repr

-- Where `serve` is suspended: in `accept`, in the timed read of the first
-- request, in the connect, in the write of that request, or in the splice.
inductive ServePhase
  | accepting (accept : Accept)
  | awaitingRequest (deadline : Nat)
  | connecting (opening : Bytes)
  | writing (rest : Bytes)
  | splicing (splice : Splice)
  | returned
  deriving DecidableEq, Repr

-- A stream that was accepted `elapsed` ago, and the upstream connection that
-- was opened for it.
structure Serve where
  elapsed : Nat := 0
  stream : Duplex := {}
  upstream : Option Duplex := none
  phase : ServePhase
  deriving DecidableEq, Repr

inductive ServeEvent
  | stream (event : WaitEvent)
  | connected
  | refused (code : Nat)
  | upstream (event : IoEvent)
  | splice (event : SpliceEvent)
  | elapse (time : Nat)
  deriving DecidableEq, Repr

def Serve.start (settings : ServeSettings) : Serve where
  phase := .accepting (.start 0 settings.handshakeTimeout)

-- Only the reaper applies on this half.
def ServeSettings.watchdog (settings : ServeSettings) : Watchdog where
  idle := some settings.idleTimeout

-- Time does not pass beyond an armed deadline, and in a splice its watchdog
-- keeps the time.
def ServePhase.allows (phase : ServePhase) (instant : Nat) : Bool :=
  match phase with
  | .accepting (.reading deadline _) | .awaitingRequest deadline => instant ≤ deadline
  | .splicing _ => false
  | _ => true

-- The bytes an event moves on the stream.
def Serve.taken (serve : Serve) (event : ServeEvent) : Bytes :=
  match serve.phase, event with
  | .accepting _, .stream event | .awaitingRequest _, .stream event => event.taken
  | .splicing _, .splice (.inbound event) => event.taken
  | _, _ => []

def Serve.given (serve : Serve) (event : ServeEvent) : Bytes :=
  match serve.phase, event with
  | .accepting accept, .stream event => accept.given event
  | .splicing splice, .splice (.outbound event) => splice.outbound.given event
  | _, _ => []

-- The upstream is the local end of the splice.
def Serve.step (settings : ServeSettings) : Machine (ServerMetrics × Serve) ServeEvent :=
  fun (metrics, serve) event =>
    let stream := serve.stream.move (serve.taken event) (serve.given event)
    match serve.phase, event with
    | .accepting accept, .stream waited =>
        match accept.step settings.handshakeTimeout serve.elapsed waited with
        | none => none
        | some (.returned (.ok _)) =>
            let deadline := serve.elapsed + settings.firstRequestTimeout
            some (metrics.streamAccepted, { serve with stream, phase := .awaitingRequest deadline })
        | some (.returned (.error error)) =>
            some (metrics.streamRejected error, { serve with stream, phase := .returned })
        | some accept => some (metrics, { serve with stream, phase := .accepting accept })
    | .awaitingRequest _, .stream (.io (.read opening)) =>
        if opening = [] then
          some (metrics.streamWithoutRequest, { serve with phase := .returned })
        else if opening.length ≤ FIRST_CHUNK then
          some (metrics, { serve with stream, phase := .connecting opening })
        else none
    | .awaitingRequest _, .stream (.io (.failed _)) =>
        some (metrics.streamWithoutRequest, { serve with phase := .returned })
    | .awaitingRequest deadline, .stream .expired =>
        if deadline ≤ serve.elapsed then
          some (metrics.streamWithoutRequest, { serve with phase := .returned })
        else none
    | .connecting opening, .connected =>
        some (metrics.upstreamConnected,
          { serve with upstream := some {}, phase := .writing opening })
    | .connecting _, .refused _ =>
        some (metrics.upstreamUnreachable, { serve with phase := .returned })
    | .writing _, .upstream (.failed _) =>
        some (metrics.dropInFlight, { serve with phase := .returned })
    | .writing rest, .upstream (.wrote count) =>
        let upstream := serve.upstream.map (·.move [] (rest.take count))
        match writeAll rest count with
        | none => none
        | some (.pending left) => some (metrics, { serve with upstream, phase := .writing left })
        | some .complete =>
            some (metrics,
              { serve with upstream, phase := .splicing (.start settings.watchdog) })
        | some (.failed _) => some (metrics.dropInFlight, { serve with phase := .returned })
    | .splicing splice, .splice waited =>
        match splice.step waited with
        | none => none
        | some next =>
            let serve := { serve with
              elapsed := serve.elapsed + waited.delay
              stream
              upstream := serve.upstream.map (splice.localEnd · waited) }
            match next.ended with
            | none => some (metrics, { serve with phase := .splicing next })
            | some (transfer, ended) =>
                some ((metrics.finished transfer ended).dropInFlight,
                  { serve with phase := .returned })
    | phase, .elapse time =>
        if phase.allows (serve.elapsed + time) then
          some (metrics, { serve with elapsed := serve.elapsed + time })
        else none
    | _, _ => none

-- One task of it, for which the metrics of the others do not matter.
def Serve.own (settings : ServeSettings) : Machine Serve ServeEvent := fun serve event =>
  (Serve.step settings ({}, serve) event).map Prod.snd

-- Everything a step can do to the stream and to the upstream.
theorem Serve.step_cases {settings : ServeSettings} {metrics after : ServerMetrics}
    {serve next : Serve} {event : ServeEvent}
    (h : Serve.step settings (metrics, serve) event = some (after, next)) :
    (∃ accept waited resumed, serve.phase = .accepting accept ∧ event = .stream waited ∧
      accept.step settings.handshakeTimeout serve.elapsed waited = some resumed ∧
      next.elapsed = serve.elapsed ∧ next.upstream = serve.upstream ∧
      next.stream = serve.stream.move waited.taken (accept.given waited) ∧
      ((∃ header, resumed = .returned (.ok header) ∧
          next.phase = .awaitingRequest (serve.elapsed + settings.firstRequestTimeout)) ∨
        (∃ error, resumed = .returned (.error error) ∧ next.phase = .returned) ∨
        ((∀ result, resumed ≠ .returned result) ∧ next.phase = .accepting resumed))) ∨
    (∃ deadline opening, serve.phase = .awaitingRequest deadline ∧
      event = .stream (.io (.read opening)) ∧ opening ≠ [] ∧
      next = { serve with stream := serve.stream.move opening [], phase := .connecting opening }) ∨
    (∃ opening, serve.phase = .connecting opening ∧ event = .connected ∧
      next = { serve with upstream := some {}, phase := .writing opening }) ∨
    (∃ rest count, serve.phase = .writing rest ∧ event = .upstream (.wrote count) ∧
      next.elapsed = serve.elapsed ∧ next.stream = serve.stream ∧
      next.upstream = serve.upstream.map (·.move [] (rest.take count)) ∧
      ((∃ left, writeAll rest count = some (.pending left) ∧ next.phase = .writing left) ∨
        (writeAll rest count = some .complete ∧
          next.phase = .splicing (.start settings.watchdog)))) ∨
    (∃ splice waited resumed, serve.phase = .splicing splice ∧ event = .splice waited ∧
      splice.step waited = some resumed ∧
      next.elapsed = serve.elapsed + waited.delay ∧
      next.stream = splice.remoteEnd serve.stream waited ∧
      next.upstream = serve.upstream.map (splice.localEnd · waited) ∧
      (next.phase = .splicing resumed ∨ next.phase = .returned)) ∨
    (next = { serve with phase := .returned } ∧ serve.phase ≠ .returned ∧ event ≠ .connected ∧
      serve.taken event = [] ∧ serve.given event = []) ∨
    (∃ time, event = .elapse time ∧ serve.phase.allows (serve.elapsed + time) ∧
      next = { serve with elapsed := serve.elapsed + time }) := by
  simp only [Serve.step] at h
  split at h
  · rename_i accept waited hphase
    cases ha : accept.step settings.handshakeTimeout serve.elapsed waited with
    | none => simp [ha] at h
    | some resumed =>
        refine Or.inl ⟨accept, waited, resumed, hphase, rfl, ha, ?_⟩
        simp only [ha, Serve.taken, Serve.given, hphase] at h
        split at h
        · cases h
        · rename_i header hresumed
          cases hresumed
          cases h
          exact ⟨rfl, rfl, rfl, Or.inl ⟨header, rfl, rfl⟩⟩
        · rename_i error hresumed
          cases hresumed
          cases h
          exact ⟨rfl, rfl, rfl, Or.inr (Or.inl ⟨error, rfl, rfl⟩)⟩
        · rename_i hok herror hresumed
          cases hresumed
          cases h
          refine ⟨rfl, rfl, rfl, Or.inr (Or.inr ⟨fun result he => ?_, rfl⟩)⟩
          cases result with
          | ok header => exact hok header he
          | error error => exact herror error he
  · rename_i deadline opening hphase
    split_ifs at h with hempty hfits
    · cases h
      simp [hphase, hempty, Serve.taken, Serve.given, WaitEvent.taken, IoEvent.taken]
    · simp only [Serve.taken, Serve.given, hphase] at h
      cases h
      exact Or.inr (Or.inl ⟨deadline, opening, hphase, rfl, hempty, rfl⟩)
  · rename_i deadline error hphase
    cases h
    simp [hphase, Serve.taken, Serve.given, WaitEvent.taken, IoEvent.taken]
  · rename_i deadline hphase
    split_ifs at h
    cases h
    simp [hphase, Serve.taken, Serve.given, WaitEvent.taken, IoEvent.taken]
  · rename_i opening hphase
    cases h
    exact Or.inr (Or.inr (Or.inl ⟨opening, hphase, rfl, rfl⟩))
  · rename_i opening code hphase
    cases h
    simp [hphase, Serve.taken, Serve.given, WaitEvent.taken, IoEvent.taken]
  · rename_i rest error hphase
    cases h
    simp [hphase, Serve.taken, Serve.given, WaitEvent.taken, IoEvent.taken]
  · rename_i rest count hphase
    split at h
    · cases h
    · rename_i left hw
      cases h
      exact Or.inr (Or.inr (Or.inr (Or.inl ⟨rest, count, hphase, rfl, rfl, rfl, rfl,
        Or.inl ⟨left, hw, rfl⟩⟩)))
    · rename_i hw
      cases h
      exact Or.inr (Or.inr (Or.inr (Or.inl ⟨rest, count, hphase, rfl, rfl, rfl, rfl,
        Or.inr ⟨hw, rfl⟩⟩)))
    · cases h
      simp [hphase, Serve.taken, Serve.given, WaitEvent.taken, IoEvent.taken]
  · rename_i splice waited hphase
    cases hs : splice.step waited with
    | none => simp [hs] at h
    | some resumed =>
        refine Or.inr (Or.inr (Or.inr (Or.inr (Or.inl
          ⟨splice, waited, resumed, hphase, rfl, hs, ?_⟩))))
        have hstream : serve.stream.move (serve.taken (.splice waited))
            (serve.given (.splice waited)) = splice.remoteEnd serve.stream waited := by
          cases waited <;> simp [Serve.taken, Serve.given, hphase, Splice.remoteEnd, Duplex.move]
        simp only [hs, hstream] at h
        split at h
        · cases h
          exact ⟨rfl, rfl, rfl, Or.inl rfl⟩
        · cases h
          exact ⟨rfl, rfl, rfl, Or.inr rfl⟩
  · rename_i time
    split_ifs at h with hallows
    cases h
    exact Or.inr (Or.inr (Or.inr (Or.inr (Or.inr (Or.inr ⟨time, rfl, hallows, rfl⟩)))))
  · cases h

theorem Serve.returned_stays {settings : ServeSettings} {metrics after : ServerMetrics}
    {serve next : Serve} {event : ServeEvent}
    (hs : Serve.step settings (metrics, serve) event = some (after, next))
    (hreturned : serve.phase = .returned) : next.phase = .returned := by
  obtain ⟨_, _, _, hphase, -⟩ | ⟨_, _, hphase, -⟩ | ⟨_, hphase, -⟩ | ⟨_, _, hphase, -⟩ |
    ⟨_, _, _, hphase, -⟩ | ⟨rfl, -⟩ | ⟨time, -, -, rfl⟩ := Serve.step_cases hs
  · simp [hphase] at hreturned
  · simp [hphase] at hreturned
  · simp [hphase] at hreturned
  · simp [hphase] at hreturned
  · simp [hphase] at hreturned
  · rfl
  · exact hreturned

theorem Serve.own_step {settings : ServeSettings} {serve next : Serve} {event : ServeEvent}
    (hs : Serve.own settings serve event = some next) :
    ∃ after, Serve.step settings ({}, serve) event = some (after, next) := by
  obtain ⟨⟨after, _⟩, hstep, rfl⟩ := Option.map_eq_some_iff.mp hs
  exact ⟨after, hstep⟩

theorem Serve.step_own {settings : ServeSettings} {metrics after : ServerMetrics}
    {serve next : Serve} {event : ServeEvent}
    (hs : Serve.step settings (metrics, serve) event = some (after, next)) :
    Serve.own settings serve event = some next := by
  have hsame : (Serve.step settings ({}, serve) event).map Prod.snd =
      (Serve.step settings (metrics, serve) event).map Prod.snd := by
    simp only [Serve.step]
    split <;> (try split) <;> (try split) <;> rfl
  rw [Serve.own, hsame, hs]
  rfl

end LwdMixnet
