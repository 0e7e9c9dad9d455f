import LwdMixnet.Bench.Groups
import LwdMixnet.Dial.Budget
import Mathlib.Algebra.Order.BigOperators.Group.List
import Mathlib.Data.List.TakeWhile

namespace LwdMixnet

theorem Trial.opened_le (trial : Trial) :
    trial.opened ≤ (trial.rounds.map Round.attempted).sum :=
  List.sum_le_sum fun _ _ => Nat.le_add_right _ _

section

variable {settings : DialSettings} {trial : Trial}

-- A round that was answered opened the stream that answered it.
theorem Round.Accounted.opened_pos {size : Nat} {round : Round}
    (h : Round.Accounted settings size round) (hanswered : round.answered = true) :
    0 < round.opened := by
  have hunclamped := h.unclamped
  rw [hanswered, Bool.toNat_true] at hunclamped
  omega

-- What `dial` leaves to its caller.
structure Trial.Returned (settings : DialSettings) (trial : Trial) : Prop where
  shared : Dial.Shared settings trial.rounds
  within : trial.rounds.length ≤ settings.mostRounds
  ended : (trial.answered = true ∧ ∃ earlier last, trial.rounds = earlier ++ [last] ∧
      (∀ round ∈ earlier, round.answered = false) ∧ last.answered = true) ∨
    (trial.answered = false ∧ (∀ round ∈ trial.rounds, round.answered = false) ∧
      settings.attempts ≤ trial.rounds.length * settings.concurrency)

theorem Trial.Ran.returned (h : trial.Ran settings) : trial.Returned settings := by
  obtain ⟨events, dial, hr, htrial⟩ := h
  have hbudgeted := dial_budgeted hr
  have hshared := hbudgeted.shared
  have hwithin := (Nat.le_add_right _ _).trans hbudgeted.bounded.1
  unfold Dial.Budgeted at hbudgeted
  unfold runTrial at htrial
  split at htrial
  · rename_i dialled hphase
    simp only [hphase] at hbudgeted
    obtain ⟨hsame, -, earlier, last, hlast, hlooping, -, hanswered⟩ := hbudgeted
    have htrial := Option.some.inj htrial
    have hrounds : trial.rounds = dial.rounds := (congrArg Trial.rounds htrial).symm.trans hsame
    have hended : trial.answered = true := (congrArg Trial.answered htrial).symm
    rw [← hrounds] at hshared hwithin hlast
    exact ⟨hshared, hwithin, Or.inl ⟨hended, earlier, last, hlast, hlooping.unanswered, hanswered⟩⟩
  · rename_i gaveUp hphase
    simp only [hphase] at hbudgeted
    obtain ⟨hsame, hlooping, hall⟩ := hbudgeted
    have htrial := Option.some.inj htrial
    have hrounds : trial.rounds = dial.rounds := (congrArg Trial.rounds htrial).symm.trans hsame
    have hended : trial.answered = false := (congrArg Trial.answered htrial).symm
    have hnone := hlooping.unanswered
    rw [← hrounds] at hshared hwithin hnone hall
    exact ⟨hshared, hwithin, Or.inr ⟨hended, hnone, hall⟩⟩
  · cases htrial

-- What a trial may ask of the client: never more than its attempts, and all of them
-- where the client opened nothing.
structure Trial.Spent (attempts : Nat) (trial : Trial) : Prop where
  within : (trial.rounds.map Round.attempted).sum ≤ attempts
  exhausted : trial.opened = 0 → (trial.rounds.map Round.attempted).sum = attempts

theorem Trial.Returned.spent (h : trial.Returned settings) : trial.Spent settings.attempts := by
  have hattempts := h.shared.attempts
  refine ⟨hattempts.le.trans (Nat.min_le_left _ _), fun hnone => ?_⟩
  obtain ⟨-, earlier, last, hlast, -, hanswered⟩ | ⟨-, -, hall⟩ := h.ended
  · -- the round that was answered opened a stream
    have hpos := (h.shared earlier.length last (by simp [hlast])).opened_pos hanswered
    rw [Trial.opened, hlast, List.map_append, List.sum_append] at hnone
    simp only [List.map_cons, List.map_nil, List.sum_cons, List.sum_nil] at hnone
    omega
  · rw [hattempts, Nat.min_eq_left hall]

end

-- How many opens a dial may still ask for.
def Dial.unasked (dial : Dial) : Nat :=
  match dial.phase with
  | .opening left _ => left + dial.remaining
  | _ => dial.remaining

def Dial.Unopened (dial : Dial) : Prop :=
  (∃ left, dial.phase = .opening (left + 1) []) ∨
    ∃ gaveUp, dial.phase = .returned (.error gaveUp)

section

variable {settings : DialSettings} {dial : Dial}

theorem Dial.turn_unopened (settings : DialSettings) (dial : Dial) :
    (dial.turn settings).Unopened ∧ (dial.turn settings).unasked = dial.remaining := by
  have hpos := settings.concurrency_pos
  unfold Dial.turn
  split_ifs with hspent
  · exact ⟨Or.inr ⟨_, rfl⟩, rfl⟩
  · have hsize : min settings.concurrency dial.remaining - 1 + 1 =
        min settings.concurrency dial.remaining := by omega
    refine ⟨Or.inl ⟨_, by rw [hsize]⟩, ?_⟩
    simp only [Dial.unasked]
    omega

theorem Dial.opens_unopened (settings : DialSettings) (dial : Dial) (left : Nat) :
    (dial.opens settings left []).Unopened ∧
      (dial.opens settings left []).unasked = left + dial.remaining := by
  cases left with
  | zero =>
      have hturn := Dial.turn_unopened settings { dial with rounds := dial.rounds ++ [dial.round] }
      have hopens : dial.opens settings 0 [] = dial.unanswered settings := by
        unfold Dial.opens Dial.probes
        cases settings.probe <;> rfl
      rw [hopens, Dial.unanswered, Nat.zero_add]
      exact hturn
  | succ left =>
      rw [Dial.opens, if_pos (Nat.succ_pos left)]
      exact ⟨Or.inl ⟨left, rfl⟩, rfl⟩

theorem Dial.Unopened.step (h : dial.Unopened) :
    (∃ gaveUp, dial.phase = .returned (.error gaveUp)) ∨ ∃ event next,
      Dial.step settings dial event = some next ∧ next.Unopened ∧ next.unasked < dial.unasked := by
  obtain ⟨left, hphase⟩ | hgaveUp := h
  · obtain ⟨hunopened, hunasked⟩ := Dial.opens_unopened settings (dial.discard (.Open 1)) left
    refine Or.inr ⟨.refused 1, _, ?_, hunopened, ?_⟩
    · simp only [Dial.step, hphase, Nat.add_sub_cancel]
    · rw [hunasked, Dial.unasked, hphase]
      exact Nat.add_lt_add_right (Nat.lt_succ_self left) dial.remaining
  · exact Or.inl hgaveUp

-- A client that opens nothing lets every dial end.
theorem dial_refusable (settings : DialSettings) : ∃ events dial,
    (Dial.step settings).run (.start settings) events = some dial ∧
    ∃ gaveUp, dial.phase = .returned (.error gaveUp) := by
  have hstart := (Dial.turn_unopened settings
    { remaining := settings.attempts, phase := .opening 0 [] }).1
  obtain ⟨events, dial, hr, -, hgaveUp⟩ := Machine.run_descends Dial.Unopened _ Dial.unasked
    (fun _ h => h.step) hstart
  exact ⟨events, dial, hr, hgaveUp⟩

end

section

variable {arguments : Arguments} {bench next : Bench}

-- The loop goes on until it is stopped or has run the trials that were asked for.
theorem Bench.step_enabled (hgoes : bench.stopped = false)
    (hmore : bench.trials.length < arguments.trials) :
    ∃ events next, bench.step arguments events = some next := by
  have hpos : 0 < (arms arguments).length := by
    obtain ⟨size, hsize⟩ := List.exists_mem_of_ne_nil _ arguments.concurrency_given
    obtain ⟨gap, hgap⟩ : ∃ gap, gap ∈ arguments.gaps := by
      unfold Arguments.gaps
      cases hgiven : arguments.gapSecs with
      | none => exact ⟨none, List.mem_singleton_self none⟩
      | some gaps =>
          obtain ⟨gap, hgap⟩ := List.exists_mem_of_ne_nil _ (arguments.gaps_given gaps hgiven)
          exact ⟨some gap, List.mem_map_of_mem hgap⟩
    have harm : Arm.mk size gap ∈ arms arguments := (mem_arms arguments).mpr ⟨hsize, hgap⟩
    exact List.length_pos_of_mem harm
  have hturn := Nat.mod_lt bench.trials.length hpos
  obtain ⟨events, dial, hr, gaveUp, hphase⟩ :=
    dial_refusable (arguments.settings (arms arguments)[bench.trials.length % _])
  refine ⟨events, bench.record ⟨(arms arguments)[bench.trials.length % _], gaveUp.rounds,
    dial.elapsed, none⟩, ?_⟩
  rw [Bench.step, if_neg (by simp [hgoes, hmore])]
  simp [List.getElem?_eq_getElem hturn, hr, runTrial, hphase]

-- The run was not abandoned before its last trial.
def Bench.Patient (bench : Bench) : Prop :=
  ∀ earlier, earlier <+: bench.trials → earlier ≠ bench.trials →
    ({ trials := earlier } : Bench).refusals < REFUSAL_STREAK_LIMIT

theorem Bench.Patient.step {events : List DialEvent} (hrefusing : bench.Refusing)
    (h : bench.Patient) (hs : bench.step arguments events = some next) : next.Patient := by
  obtain ⟨hgoes, -, trial, rfl, -⟩ := Bench.step_cases hs
  intro earlier hprefix hproper
  have hbefore : earlier <+: bench.trials := by
    obtain hall | hbefore := List.prefix_concat_iff.mp hprefix
    · exact absurd hall hproper
    · exact hbefore
  by_cases hlast : earlier = bench.trials
  · subst hlast
    rw [hrefusing.stopped, decide_eq_false_iff_not, Nat.not_le, hrefusing.streak] at hgoes
    exact hgoes
  · exact h earlier hbefore hlast

end

section

variable {trials : List Trial} {attempts : Nat}

-- Every open that was asked for was opened or refused.
theorem refused_opened (trials : List Trial) :
    (trials.map Trial.refusedOpens).sum + (trials.map Trial.opened).sum =
      (trials.map fun trial => (trial.rounds.map Round.attempted).sum).sum := by
  rw [← List.sum_map_add]
  congr 1
  refine List.map_congr_left fun trial _ => ?_
  exact Nat.sub_add_cancel trial.opened_le

theorem spent_within (h : ∀ trial ∈ trials, trial.Spent attempts) :
    (trials.map fun trial => (trial.rounds.map Round.attempted).sum).sum ≤
      trials.length * attempts := by
  induction trials with
  | nil => simp
  | cons trial trials ih =>
      have hwithin := (h trial List.mem_cons_self).within
      have hrest := ih fun other hother => h other (List.mem_cons_of_mem trial hother)
      rw [List.map_cons, List.sum_cons, List.length_cons, Nat.add_mul, Nat.one_mul]
      omega

theorem Trial.Spent.refused {trial : Trial} (h : trial.Spent attempts)
    (hopened : trial.opened = 0) : trial.refusedOpens = attempts := by
  rw [Trial.refusedOpens, hopened, Nat.sub_zero]
  exact h.exhausted hopened

theorem unopened_refused (h : ∀ trial ∈ trials, trial.Spent attempts) :
    (trials.countP fun trial => trial.opened = 0) * attempts ≤
      (trials.map Trial.refusedOpens).sum := by
  induction trials with
  | nil => simp
  | cons trial trials ih =>
      have hrest := ih fun other hother => h other (List.mem_cons_of_mem trial hother)
      rw [List.map_cons, List.sum_cons, List.countP_cons, Nat.add_mul]
      by_cases hopened : trial.opened = 0
      · have hrefused := (h trial List.mem_cons_self).refused hopened
        simp only [hopened, decide_true, if_true, Nat.one_mul, hrefused]
        omega
      · simp only [hopened, decide_false, Bool.false_eq_true, if_false, Nat.zero_mul]
        omega

theorem Bench.refusals_le (bench : Bench) :
    bench.refusals ≤ bench.trials.countP fun trial => trial.opened = 0 := by
  have hall : (bench.trials.reverse.takeWhile fun trial => trial.opened = 0).countP
      (fun trial => trial.opened = 0) = bench.refusals := by
    refine List.countP_eq_length.mpr fun trial htrial => ?_
    have hopened := List.mem_takeWhile_imp htrial
    exact hopened
  rw [← hall, ← List.countP_reverse (l := bench.trials)]
  exact (List.takeWhile_sublist _).countP_le

end

-- A client that stopped opening streams ends the run, and only that does before its
-- last trial. The opens it refused are all counted, so no such run is reported as valid.
theorem refusing_abandoned (arguments : Arguments) (events : List (List DialEvent))
    (bench : Bench) (hr : (Bench.step arguments).run {} events = some bench) :
    bench.trials.length ≤ arguments.trials ∧
    (∀ earlier, earlier <+: bench.trials → earlier ≠ bench.trials →
      ({ trials := earlier } : Bench).refusals < REFUSAL_STREAK_LIMIT) ∧
    (bench.stopped = true ↔ bench.refusals = REFUSAL_STREAK_LIMIT) ∧
    ((∀ more, bench.step arguments more = none) ↔
      bench.stopped = true ∨ bench.trials.length = arguments.trials) ∧
    (report arguments bench.trials).refused + (bench.trials.map Trial.opened).sum =
      (bench.trials.map fun trial => (trial.rounds.map Round.attempted).sum).sum ∧
    (bench.trials.map fun trial => (trial.rounds.map Round.attempted).sum).sum ≤
      bench.trials.length * arguments.attempts ∧
    (∀ trial ∈ bench.trials, (trial.rounds.map Round.attempted).sum ≤ arguments.attempts ∧
      (trial.opened = 0 → trial.refusedOpens = arguments.attempts)) ∧
    (bench.trials.countP fun trial => trial.opened = 0) * arguments.attempts ≤
      (report arguments bench.trials).refused ∧
    (bench.stopped = true →
      REFUSAL_STREAK_LIMIT * arguments.attempts ≤ (report arguments bench.trials).refused ∧
      0 < (report arguments bench.trials).refused) := by
  obtain ⟨hmost, -, hstopped⟩ := bench_abandoned hr
  have hpatient : bench.Refusing ∧ bench.Patient :=
    Machine.run_invariant (fun bench : Bench => bench.Refusing ∧ bench.Patient)
      (fun _ _ _ h hs => ⟨h.1.step hs, h.2.step h.1 hs⟩)
      ⟨⟨rfl, rfl, Nat.zero_le _⟩, fun earlier hprefix hproper =>
        absurd (List.prefix_nil.mp hprefix) hproper⟩ hr
  have hspent : ∀ trial ∈ bench.trials, trial.Spent arguments.attempts := fun trial htrial =>
    ((bench_interleaved hr).ran trial htrial).returned.spent
  have hrefused : (bench.trials.countP fun trial => trial.opened = 0) * arguments.attempts ≤
      (report arguments bench.trials).refused := unopened_refused hspent
  refine ⟨hmost, hpatient.2, hstopped, ?_, refused_opened bench.trials, spent_within hspent,
    fun trial htrial => ⟨(hspent trial htrial).within, (hspent trial htrial).refused⟩, hrefused,
    fun hends => ?_⟩
  · constructor
    · intro hnone
      by_contra hgoes
      rw [not_or, Bool.not_eq_true] at hgoes
      have hmore : bench.trials.length < arguments.trials := Nat.lt_of_le_of_ne hmost hgoes.2
      obtain ⟨more, next, hs⟩ := Bench.step_enabled hgoes.1 hmore
      rw [hnone more] at hs
      cases hs
    · rintro hends more
      rw [Bench.step, if_pos (hends.imp_right Eq.ge)]
  · have hcount := bench.refusals_le
    rw [hstopped.mp hends] at hcount
    have hall := (Nat.mul_le_mul_right _ hcount).trans hrefused
    exact ⟨hall, (Nat.mul_pos (by decide) arguments.attempts_pos).trans_le hall⟩

theorem gaps_not_given : ∀ gaps ∈ (none : Option (List Nat)), gaps ≠ [] :=
  fun gaps h => absurd h (Option.not_mem_none gaps)

-- Of seven trials of two streams each, the first is answered and the next five find a
-- client that opens nothing.
def sevenTrials : Arguments where
  trials := 7
  attempts := 2
  concurrency := [2]
  gapSecs := none
  attempts_pos := Nat.two_pos
  concurrency_pos := fun _ h => List.mem_singleton.mp h ▸ Nat.two_pos
  concurrency_given := List.cons_ne_nil _ _
  gaps_given := gaps_not_given

def thenRefused : List (List DialEvent) :=
  ([.opened, .opened] ++ firstAnswers) :: List.replicate 5 [.refused 1, .refused 1]

theorem seven_trials_abandoned : ∃ bench,
    (Bench.step sevenTrials).run {} thenRefused = some bench ∧ bench.trials.length = 6 ∧
    (∀ more, bench.step sevenTrials more = none) ∧
    10 ≤ (report sevenTrials bench.trials).refused := by
  obtain ⟨bench, hr, hends⟩ : ∃ bench,
      (Bench.step sevenTrials).run {} thenRefused = some bench ∧
      (bench.stopped, bench.trials.length) = (true, 6) :=
    Option.map_eq_some_iff.mp (by decide +kernel)
  obtain ⟨hstopped, hlength⟩ := Prod.mk.inj hends
  obtain ⟨-, -, -, hnone, -, -, -, -, hrefused⟩ :=
    refusing_abandoned sevenTrials thenRefused bench hr
  exact ⟨bench, hr, hlength, hnone.mpr (Or.inl hstopped), (hrefused hstopped).1⟩

end LwdMixnet
