import LwdMixnet.Dial
import LwdMixnet.Splice.Loop
import LwdMixnet.Streaks

namespace LwdMixnet

structure Carrying where
  dial : DialSettings
  watchdog : Watchdog
  deriving DecidableEq, Repr

-- What `carry` tells the streaks of a dial.
def DialSettings.outcome (settings : DialSettings) : Except GaveUp Dialled → Outcome
  | .ok _ =>
      match settings.probe with
      | some _ => .Answered
      | none => .Unprobed
  | .error gaveUp => if gaveUp.nothingOpened then .NothingOpened else .NothingAnswered

-- Where `carry` stands: in its dial, between the dial and what it reports of
-- it, or in the splice over the stream it kept.
inductive CarryPhase
  | accepted
  | dialling (dial : Dial)
  | dialled (result : Except GaveUp Dialled)
  | splicing (stream : StreamId) (splice : Splice)
  | returned
  deriving DecidableEq, Repr

-- The wallet's connection and the near ends of the streams it dialled, with the
-- time since it was accepted.
structure Carry where
  waited : Nat := 0
  wallet : Duplex := {}
  near : StreamId → Duplex := fun _ => {}
  phase : CarryPhase := .accepted

inductive CarryEvent
  | start
  | dial (event : DialEvent)
  | fold
  | splice (event : SpliceEvent)
  | elapse (time : Nat)
  deriving DecidableEq, Repr

def Streaks.report (streaks : Streaks) (update : ClientMetrics → ClientMetrics) : Streaks :=
  { streaks with metrics := update streaks.metrics }

-- The bytes an event moves on a stream.
def Carry.moved (carry : Carry) (event : CarryEvent) : Option Moved :=
  match carry.phase, event with
  | .dialling dial, .dial event => dial.moved event
  | .splicing stream splice, .splice (.outbound event) =>
      some ⟨stream, [], splice.outbound.given event⟩
  | .splicing stream _, .splice (.inbound event) => some ⟨stream, event.taken, []⟩
  | _, _ => none

def Carry.step (carrying : Carrying) : Machine (Streaks × Carry) CarryEvent :=
  fun (streaks, carry) event =>
    match carry.phase, event with
    | .accepted, .start =>
        some (streaks.report ClientMetrics.connectionAccepted,
          { carry with phase := .dialling (.start carrying.dial) })
    | .dialling dial, .dial waited =>
        match dial.step carrying.dial waited with
        | none => none
        | some next =>
            some (streaks, { carry with
              waited := carry.waited + waited.delay
              near := moveAt carry.near (carry.moved event)
              phase := match next.phase with
                | .returned result => .dialled result
                | _ => .dialling next })
    | .dialled (.ok dialled), .fold =>
        let streaks := streaks.report (·.established dialled.rounds carry.waited)
        some (streaks.fold (carrying.dial.outcome (.ok dialled)),
          { carry with phase := .splicing dialled.stream (.start carrying.watchdog) })
    | .dialled (.error gaveUp), .fold =>
        let streaks := streaks.report (·.gaveUp gaveUp.rounds)
        let streaks := streaks.fold (carrying.dial.outcome (.error gaveUp))
        some (streaks.report ClientMetrics.dropInFlight, { carry with phase := .returned })
    | .splicing stream splice, .splice waited =>
        match splice.step waited with
        | none => none
        | some next =>
            let carry := { carry with
              waited := carry.waited + waited.delay
              wallet := splice.localEnd carry.wallet waited
              near := moveAt carry.near (carry.moved event) }
            match next.ended with
            | none => some (streaks, { carry with phase := .splicing stream next })
            | some (transfer, ended) =>
                let streaks := streaks.report (·.finished transfer ended)
                some (streaks.report ClientMetrics.dropInFlight, { carry with phase := .returned })
    | .accepted, .elapse time | .dialled _, .elapse time =>
        some (streaks, { carry with waited := carry.waited + time })
    | _, _ => none

-- One task of it, for which the streaks and the metrics do not matter.
def Carry.own (carrying : Carrying) : Machine Carry CarryEvent := fun carry event =>
  (Carry.step carrying ({}, carry) event).map Prod.snd

-- Everything a step can do to the wallet and to the streams.
theorem Carry.step_cases {carrying : Carrying} {streaks after : Streaks} {carry next : Carry}
    {event : CarryEvent} (h : Carry.step carrying (streaks, carry) event = some (after, next)) :
    (carry.phase = .accepted ∧ event = .start ∧
      next = { carry with phase := .dialling (.start carrying.dial) }) ∨
    (∃ dial waited resumed, carry.phase = .dialling dial ∧ event = .dial waited ∧
      dial.step carrying.dial waited = some resumed ∧ next.wallet = carry.wallet ∧
      next.near = moveAt carry.near (dial.moved waited) ∧
      ((∃ result, resumed.phase = .returned result ∧ next.phase = .dialled result) ∨
        next.phase = .dialling resumed)) ∨
    (∃ dialled, carry.phase = .dialled (.ok dialled) ∧ event = .fold ∧
      next = { carry with phase := .splicing dialled.stream (.start carrying.watchdog) }) ∨
    (∃ gaveUp, carry.phase = .dialled (.error gaveUp) ∧ event = .fold ∧
      next = { carry with phase := .returned }) ∨
    (∃ stream splice waited resumed, carry.phase = .splicing stream splice ∧
      event = .splice waited ∧ splice.step waited = some resumed ∧
      next.wallet = splice.localEnd carry.wallet waited ∧
      next.near = moveAt carry.near (carry.moved event) ∧
      (next.phase = .splicing stream resumed ∨ next.phase = .returned)) ∨
    (∃ time, event = .elapse time ∧ next = { carry with waited := carry.waited + time }) := by
  simp only [Carry.step] at h
  split at h
  · rename_i hphase
    cases h
    exact Or.inl ⟨hphase, rfl, rfl⟩
  · rename_i dial waited hphase
    cases hd : dial.step carrying.dial waited with
    | none => simp [hd] at h
    | some resumed =>
        refine Or.inr (Or.inl ⟨dial, waited, resumed, hphase, rfl, hd, ?_⟩)
        have hmoved : carry.moved (.dial waited) = dial.moved waited := by
          simp [Carry.moved, hphase]
        simp only [hd, hmoved] at h
        cases h
        refine ⟨rfl, rfl, ?_⟩
        cases hresumed : resumed.phase with
        | returned result => exact Or.inl ⟨result, rfl, by simp⟩
        | opening _ _ | announcing _ _ | probing _ _ => exact Or.inr (by simp)
  · rename_i dialled hphase
    cases h
    exact Or.inr (Or.inr (Or.inl ⟨dialled, hphase, rfl, rfl⟩))
  · rename_i gaveUp hphase
    cases h
    exact Or.inr (Or.inr (Or.inr (Or.inl ⟨gaveUp, hphase, rfl, rfl⟩)))
  · rename_i stream splice waited hphase
    cases hs : splice.step waited with
    | none => simp [hs] at h
    | some resumed =>
        refine Or.inr (Or.inr (Or.inr (Or.inr (Or.inl
          ⟨stream, splice, waited, resumed, hphase, rfl, hs, ?_⟩))))
        simp only [hs] at h
        split at h
        · cases h
          exact ⟨rfl, rfl, Or.inl rfl⟩
        · cases h
          exact ⟨rfl, rfl, Or.inr rfl⟩
  · rename_i time hphase
    cases h
    exact Or.inr (Or.inr (Or.inr (Or.inr (Or.inr ⟨time, rfl, rfl⟩))))
  · rename_i time hphase
    cases h
    exact Or.inr (Or.inr (Or.inr (Or.inr (Or.inr ⟨time, rfl, rfl⟩))))
  · cases h

theorem Carry.own_step {carrying : Carrying} {carry next : Carry} {event : CarryEvent}
    (hs : Carry.own carrying carry event = some next) :
    ∃ after, Carry.step carrying ({}, carry) event = some (after, next) := by
  obtain ⟨⟨after, _⟩, hstep, rfl⟩ := Option.map_eq_some_iff.mp hs
  exact ⟨after, hstep⟩

-- Whatever the other tasks have made of what they share, a step of this one is
-- a step of its own.
theorem Carry.step_own {carrying : Carrying} {streaks after : Streaks} {carry next : Carry}
    {event : CarryEvent} (hs : Carry.step carrying (streaks, carry) event = some (after, next)) :
    Carry.own carrying carry event = some next := by
  have hsame : (Carry.step carrying ({}, carry) event).map Prod.snd =
      (Carry.step carrying (streaks, carry) event).map Prod.snd := by
    simp only [Carry.step]
    split <;> (try split) <;> (try split) <;> rfl
  rw [Carry.own, hsame, hs]
  rfl

end LwdMixnet
