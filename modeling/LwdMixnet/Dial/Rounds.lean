import LwdMixnet.Dial
import Mathlib.Data.List.Induction

namespace LwdMixnet

def WriteHeader.result : WriteHeader → Option (Except HandshakeError Unit)
  | .returned result => some result
  | _ => none

def Probe.result : Probe → Option (Except HandshakeError Nat)
  | .returned result => some result
  | _ => none

-- Everything a step can do.
theorem Dial.step_cases {settings : DialSettings} {dial next : Dial} {event : DialEvent}
    (h : dial.step settings event = some next) :
    (∃ left opened, dial.phase = .opening left opened ∧ event = .opened ∧
      next = Dial.opens settings { dial with
        nextStream := dial.nextStream + 1
        round := { dial.round with opened := dial.round.opened + 1 } }
        (left - 1) (opened ++ [dial.nextStream])) ∨
    (∃ left opened code, dial.phase = .opening left opened ∧ event = .refused code ∧
      next = (dial.discard (.Open code)).opens settings (left - 1) opened) ∨
    (∃ stream NEXT_TOKEN, dial.phase = .announcing stream none ∧
      event = .polled stream NEXT_TOKEN ∧
      next = { dial with
        phase := .announcing stream (some (.start (Header.next NEXT_TOKEN false).1)) }) ∨
    (∃ stream write io after, dial.phase = .announcing stream (some write) ∧
      event = .wait stream (.io io) ∧ write.step io = some after ∧
      ((after = .returned (.ok ()) ∧ next = dial.answered stream) ∨
        (∃ error, after = .returned (.error error) ∧
          next = (dial.discard (.Probe error)).unanswered settings) ∨
        (after.result = none ∧
          next = { dial with phase := .announcing stream (some after) }))) ∨
    (∃ timeout probes stream NEXT_TOKEN, dial.phase = .probing timeout probes ∧
      event = .polled stream NEXT_TOKEN ∧ (stream, none) ∈ probes ∧
      next = { dial with
        phase := .probing timeout (probes.map fun slot =>
          if slot.1 = stream then
            (stream, some (.start dial.elapsed (Header.next NEXT_TOKEN true).1))
          else slot) }) ∨
    (∃ timeout probes stream wait probe after, dial.phase = .probing timeout probes ∧
      event = .wait stream wait ∧
      (probes.find? fun slot => slot.1 = stream) = some (stream, some probe) ∧
      probe.step timeout dial.elapsed wait = some after ∧
      ((∃ roundTrip, after = .returned (.ok roundTrip) ∧ next = dial.answered stream) ∨
        (∃ error, after = .returned (.error error) ∧
          next = (dial.discard (.Probe error)).probes settings timeout
            (probes.filter fun slot => slot.1 ≠ stream)) ∨
        (after.result = none ∧
          next = { dial with
            phase := .probing timeout (probes.map fun slot =>
              if slot.1 = stream then (stream, some after) else slot) }))) ∨
    (∃ time, event = .elapse time ∧ dial.phase.allows (dial.elapsed + time) ∧
      next = { dial with elapsed := dial.elapsed + time }) := by
  unfold Dial.step at h
  split at h
  · rename_i left opened hphase
    exact Or.inl ⟨left, opened, hphase, rfl, (Option.some.inj h).symm⟩
  · rename_i left opened code hphase
    exact Or.inr (Or.inl ⟨left, opened, code, hphase, rfl, (Option.some.inj h).symm⟩)
  · rename_i stream polled NEXT_TOKEN hphase
    split_ifs at h with hstream
    subst hstream
    exact Or.inr (Or.inr (Or.inl ⟨polled, NEXT_TOKEN, hphase, rfl, (Option.some.inj h).symm⟩))
  · rename_i stream write waited io hphase
    split_ifs at h with hstream
    subst hstream
    cases hw : write.step io with
    | none => simp [hw] at h
    | some after =>
        refine Or.inr (Or.inr (Or.inr (Or.inl
          ⟨waited, write, io, after, hphase, rfl, hw, ?_⟩)))
        simp only [hw] at h
        cases after with
        | returned result =>
            cases result with
            | ok _ => exact Or.inl ⟨rfl, (Option.some.inj h).symm⟩
            | error error => exact Or.inr (Or.inl ⟨error, rfl, (Option.some.inj h).symm⟩)
        | writing _ | flushing => exact Or.inr (Or.inr ⟨rfl, (Option.some.inj h).symm⟩)
  · rename_i timeout probes stream NEXT_TOKEN hphase
    split at h
    · rename_i found hfind
      have hstream : found = stream := by simpa using List.find?_some hfind
      subst hstream
      exact Or.inr (Or.inr (Or.inr (Or.inr (Or.inl ⟨timeout, probes, found, NEXT_TOKEN, hphase,
        rfl, List.mem_of_find?_eq_some hfind, (Option.some.inj h).symm⟩))))
    · cases h
  · rename_i timeout probes stream wait hphase
    split at h
    · rename_i found probe hfind
      have hstream : found = stream := by simpa using List.find?_some hfind
      subst hstream
      cases hp : probe.step timeout dial.elapsed wait with
      | none => simp [hp] at h
      | some after =>
          refine Or.inr (Or.inr (Or.inr (Or.inr (Or.inr (Or.inl
            ⟨timeout, probes, found, wait, probe, after, hphase, rfl, hfind, hp, ?_⟩)))))
          simp only [hp] at h
          cases after with
          | returned result =>
              cases result with
              | ok roundTrip => exact Or.inl ⟨roundTrip, rfl, (Option.some.inj h).symm⟩
              | error error => exact Or.inr (Or.inl ⟨error, rfl, (Option.some.inj h).symm⟩)
          | sending _ _ _ | awaiting _ _ _ _ =>
              exact Or.inr (Or.inr ⟨rfl, (Option.some.inj h).symm⟩)
    · cases h
  · rename_i time
    split_ifs at h with hallows
    exact Or.inr (Or.inr (Or.inr (Or.inr (Or.inr (Or.inr
      ⟨time, rfl, hallows, (Option.some.inj h).symm⟩)))))
  · cases h

-- What comes after an open: the next one, or what the round does with the streams
-- it opened.
theorem Dial.opens_cases (settings : DialSettings) (dial : Dial) (left : Nat)
    (opened : List StreamId) :
    (0 < left ∧ dial.opens settings left opened = { dial with phase := .opening left opened }) ∨
    (left = 0 ∧ opened = [] ∧ dial.opens settings left opened = dial.unanswered settings) ∨
    (left = 0 ∧ settings.probe = none ∧ ∃ stream, opened.getLast? = some stream ∧
      dial.opens settings left opened = { dial with phase := .announcing stream none }) ∨
    (left = 0 ∧ opened ≠ [] ∧ ∃ probe, settings.probe = some probe ∧
      dial.opens settings left opened = { dial with
        phase := .probing probe.timeout (opened.map fun stream => (stream, none)) }) := by
  by_cases hleft : 0 < left
  · exact Or.inl ⟨hleft, if_pos hleft⟩
  · have hzero : left = 0 := by omega
    rw [Dial.opens, if_neg hleft]
    by_cases hnil : opened = []
    · refine Or.inr (Or.inl ⟨hzero, hnil, ?_⟩)
      rw [hnil]
      cases settings.probe <;> rfl
    · cases hprobe : settings.probe with
      | none =>
          have hlast := List.getLast?_eq_getLast_of_ne_nil hnil
          exact Or.inr (Or.inr (Or.inl ⟨hzero, rfl, _, hlast, by rw [hlast]⟩))
      | some probe =>
          refine Or.inr (Or.inr (Or.inr ⟨hzero, hnil, probe, rfl, ?_⟩))
          exact if_neg (by simpa using hnil)

-- How many streams the rounds so far have opened, the current one included.
def Dial.opensTotal (dial : Dial) : Nat :=
  (dial.rounds.map Round.opened).sum + dial.round.opened

section

variable (settings : DialSettings) (dial : Dial)

theorem Dial.turn_opensTotal :
    (dial.turn settings).opensTotal = (dial.rounds.map Round.opened).sum := by
  unfold Dial.turn
  split_ifs <;> simp [Dial.opensTotal]

theorem Dial.unanswered_opensTotal : (dial.unanswered settings).opensTotal = dial.opensTotal := by
  rw [Dial.unanswered, Dial.turn_opensTotal]
  simp [Dial.opensTotal]

theorem Dial.answered_opensTotal (stream : StreamId) :
    (dial.answered stream).opensTotal = dial.opensTotal := by
  simp [Dial.answered, Dial.opensTotal]

theorem Dial.probes_opensTotal (timeout : Nat) (probes : List (StreamId × Option Probe)) :
    (dial.probes settings timeout probes).opensTotal = dial.opensTotal := by
  unfold Dial.probes
  split_ifs
  · exact dial.unanswered_opensTotal settings
  · rfl

theorem Dial.opens_opensTotal (left : Nat) (opened : List StreamId) :
    (dial.opens settings left opened).opensTotal = dial.opensTotal := by
  obtain ⟨-, he⟩ | ⟨-, -, he⟩ | ⟨-, -, stream, -, he⟩ | ⟨-, -, probe, -, he⟩ :=
    dial.opens_cases settings left opened
  · rw [he]
    rfl
  · rw [he]
    exact dial.unanswered_opensTotal settings
  · rw [he]
    rfl
  · rw [he]
    rfl

end

-- Every open counts, in whichever round.
theorem Dial.step_opensTotal {settings : DialSettings} {dial next : Dial} {event : DialEvent}
    (h : dial.step settings event = some next) :
    next.opensTotal = dial.opensTotal + if event = .opened then 1 else 0 := by
  obtain ⟨left, opened, -, rfl, rfl⟩ | ⟨left, opened, code, -, rfl, rfl⟩ |
    ⟨stream, token, -, rfl, rfl⟩ |
    ⟨stream, write, io, after, -, rfl, -, ⟨-, rfl⟩ | ⟨error, -, rfl⟩ | ⟨-, rfl⟩⟩ |
    ⟨timeout, probes, stream, token, -, rfl, -, rfl⟩ |
    ⟨timeout, probes, stream, wait, probe, after, -, rfl, -, -,
      ⟨roundTrip, -, rfl⟩ | ⟨error, -, rfl⟩ | ⟨-, rfl⟩⟩ |
    ⟨time, rfl, -, rfl⟩ := Dial.step_cases h
  · rw [Dial.opens_opensTotal]
    simp [Dial.opensTotal, Nat.add_assoc]
  · rw [Dial.opens_opensTotal]
    simp [Dial.opensTotal, Dial.discard]
  · simp [Dial.opensTotal]
  · rw [Dial.answered_opensTotal]
    simp
  · rw [Dial.unanswered_opensTotal]
    simp [Dial.opensTotal, Dial.discard]
  · simp [Dial.opensTotal]
  · simp [Dial.opensTotal]
  · rw [Dial.answered_opensTotal]
    simp
  · rw [Dial.probes_opensTotal]
    simp [Dial.opensTotal, Dial.discard]
  · simp [Dial.opensTotal]
  · simp [Dial.opensTotal]

-- What the phases say of the rounds.
def Dial.Counted (dial : Dial) : Prop :=
  match dial.phase with
  | .opening _ opened => opened.length = dial.round.opened
  | .announcing _ _ => 0 < dial.round.opened
  | .probing _ probes => 0 < dial.round.opened ∧ probes ≠ []
  | .returned (.ok dialled) => dialled.rounds = dial.rounds ∧ dial.round = {} ∧
      0 < dial.opensTotal
  | .returned (.error gaveUp) => gaveUp.rounds = dial.rounds ∧ dial.round = {}

section

variable (settings : DialSettings) (dial : Dial)

theorem Dial.turn_counted : (dial.turn settings).Counted := by
  unfold Dial.turn
  split_ifs
  · exact ⟨rfl, rfl⟩
  · rfl

theorem Dial.answered_counted (stream : StreamId) (h : 0 < dial.round.opened) :
    (dial.answered stream).Counted := by
  refine ⟨rfl, rfl, ?_⟩
  rw [Dial.answered_opensTotal, Dial.opensTotal]
  omega

theorem Dial.probes_counted (timeout : Nat) (probes : List (StreamId × Option Probe))
    (h : probes ≠ [] → 0 < dial.round.opened) :
    (dial.probes settings timeout probes).Counted := by
  unfold Dial.probes
  split_ifs with hnil
  · exact Dial.turn_counted settings _
  · exact ⟨h hnil, hnil⟩

theorem Dial.opens_counted (left : Nat) (opened : List StreamId)
    (h : opened.length = dial.round.opened) : (dial.opens settings left opened).Counted := by
  obtain ⟨-, he⟩ | ⟨-, -, he⟩ | ⟨-, -, stream, hlast, he⟩ | ⟨-, hne, probe, -, he⟩ :=
    dial.opens_cases settings left opened
  · rw [he]
    exact h
  · rw [he]
    exact Dial.turn_counted settings _
  · have hpos := List.length_pos_of_mem (List.mem_of_getLast? hlast)
    rw [h] at hpos
    rw [he]
    exact hpos
  · have hpos := List.length_pos_of_ne_nil hne
    rw [h] at hpos
    rw [he]
    exact ⟨hpos, by simpa using hne⟩

end

theorem Dial.Counted.step {settings : DialSettings} {dial next : Dial} {event : DialEvent}
    (h : dial.Counted) (hs : dial.step settings event = some next) : next.Counted := by
  unfold Dial.Counted at h
  obtain ⟨left, opened, hphase, rfl, rfl⟩ | ⟨left, opened, code, hphase, rfl, rfl⟩ |
    ⟨stream, token, hphase, rfl, rfl⟩ |
    ⟨stream, write, io, after, hphase, rfl, -, ⟨-, rfl⟩ | ⟨error, -, rfl⟩ | ⟨-, rfl⟩⟩ |
    ⟨timeout, probes, stream, token, hphase, rfl, -, rfl⟩ |
    ⟨timeout, probes, stream, wait, probe, after, hphase, rfl, -, -,
      ⟨roundTrip, -, rfl⟩ | ⟨error, -, rfl⟩ | ⟨-, rfl⟩⟩ |
    ⟨time, rfl, hallows, rfl⟩ := Dial.step_cases hs
  · rw [hphase] at h
    apply Dial.opens_counted
    simpa using h
  · rw [hphase] at h
    exact Dial.opens_counted settings _ _ _ h
  · rw [hphase] at h
    exact h
  · rw [hphase] at h
    exact dial.answered_counted stream h
  · exact Dial.turn_counted settings _
  · rw [hphase] at h
    exact h
  · rw [hphase] at h
    exact ⟨h.1, by simpa using h.2⟩
  · rw [hphase] at h
    exact dial.answered_counted stream h.1
  · rw [hphase] at h
    exact Dial.probes_counted settings _ _ _ fun _ => h.1
  · rw [hphase] at h
    exact ⟨h.1, by simpa using h.2⟩
  · unfold Dial.Counted
    cases hphase : dial.phase with
    | returned result => simp [hphase, DialPhase.allows] at hallows
    | opening _ _ | announcing _ _ | probing _ _ =>
        rw [hphase] at h
        exact h

-- A dial that returns has opened as many streams as its rounds say.
theorem dial_counted {settings : DialSettings} {events : List DialEvent} {dial : Dial}
    (hr : (Dial.step settings).run (.start settings) events = some dial) :
    dial.Counted ∧ dial.opensTotal = events.countP (· = .opened) := by
  refine Machine.run_history (fun events dial =>
    dial.Counted ∧ dial.opensTotal = events.countP (· = .opened)) ?_ ?_ hr
  · exact ⟨Dial.turn_counted settings _, Dial.turn_opensTotal settings _⟩
  · rintro events state event next - ⟨hcounted, htotal⟩ hs
    refine ⟨hcounted.step hs, ?_⟩
    rw [Dial.step_opensTotal hs, htotal, List.countP_append]
    by_cases he : event = .opened <;> simp [he]

-- `nothing_opened` says what it is meant to: no open of any round succeeded.
theorem nothingOpened_iff {settings : DialSettings} {events : List DialEvent} {dial : Dial}
    {gaveUp : GaveUp} (hr : (Dial.step settings).run (.start settings) events = some dial)
    (hreturned : dial.phase = .returned (.error gaveUp)) :
    gaveUp.nothingOpened ↔ .opened ∉ events := by
  obtain ⟨hcounted, htotal⟩ := dial_counted hr
  unfold Dial.Counted at hcounted
  rw [hreturned] at hcounted
  obtain ⟨hrounds, hround⟩ := hcounted
  have hsum : (gaveUp.rounds.map Round.opened).sum = events.countP (· = .opened) := by
    rw [← htotal, Dial.opensTotal, hrounds, hround, Nat.add_zero]
  have hnone : .opened ∉ events ↔ events.countP (· = .opened) = 0 := by
    rw [List.countP_eq_zero]
    exact ⟨fun h event hm he => h (of_decide_eq_true he ▸ hm), fun h hm => h _ hm (by simp)⟩
  rw [hnone, ← hsum, List.sum_eq_zero_iff_forall_eq_nat, GaveUp.nothingOpened]
  simp

theorem opened_of_dialled {settings : DialSettings} {events : List DialEvent} {dial : Dial}
    {dialled : Dialled} (hr : (Dial.step settings).run (.start settings) events = some dial)
    (hreturned : dial.phase = .returned (.ok dialled)) : .opened ∈ events := by
  obtain ⟨hcounted, htotal⟩ := dial_counted hr
  unfold Dial.Counted at hcounted
  rw [hreturned] at hcounted
  obtain ⟨-, -, hpos⟩ := hcounted
  rw [htotal, List.countP_pos_iff] at hpos
  obtain ⟨event, hm, he⟩ := hpos
  obtain rfl : event = .opened := by simpa using he
  exact hm

end LwdMixnet
