import LwdMixnet.Bench
import LwdMixnet.Machine.Basic
import LwdMixnet.Rotation

namespace LwdMixnet

section

variable {arguments : Arguments} {bench next : Bench}

-- Each trial ran with the arm whose turn it was, and as `dial` ran with it.
structure Bench.Interleaved (arguments : Arguments) (bench : Bench) : Prop where
  rotated : Rotation.Rotated Trial.arm (arms arguments) bench.trials
  ran : ∀ trial ∈ bench.trials, trial.Ran (arguments.settings trial.arm)
  within : bench.trials.length ≤ arguments.trials

theorem Bench.Interleaved.step {events : List DialEvent} (h : bench.Interleaved arguments)
    (hs : bench.step arguments events = some next) : next.Interleaved arguments := by
  obtain ⟨-, hmore, trial, rfl, harm, hran⟩ := Bench.step_cases hs
  refine ⟨h.rotated.snoc harm, fun other hother => ?_, ?_⟩
  · rcases List.mem_append.mp hother with hother | hother
    · exact h.ran other hother
    · obtain rfl := List.mem_singleton.mp hother
      exact hran
  · simpa [Bench.record, Nat.succ_le_iff] using hmore

theorem bench_interleaved {events : List (List DialEvent)}
    (hr : (Bench.step arguments).run {} events = some bench) : bench.Interleaved arguments :=
  Machine.run_invariant (Bench.Interleaved arguments) (fun _ _ _ h hs => h.step hs)
    (show Bench.Interleaved arguments {} from
      ⟨fun _ _ h => (nomatch h), fun _ h => (nomatch h), Nat.zero_le _⟩) hr

-- The trials at the end that opened nothing.
def Bench.refusals (bench : Bench) : Nat :=
  (bench.trials.reverse.takeWhile fun trial => trial.opened = 0).length

structure Bench.Refusing (bench : Bench) : Prop where
  streak : bench.refusingStreak = bench.refusals
  stopped : bench.stopped = decide (REFUSAL_STREAK_LIMIT ≤ bench.refusingStreak)
  most : bench.refusingStreak ≤ REFUSAL_STREAK_LIMIT

theorem Bench.Refusing.step {events : List DialEvent} (h : bench.Refusing)
    (hs : bench.step arguments events = some next) : next.Refusing := by
  obtain ⟨hgoes, -, trial, rfl, -⟩ := Bench.step_cases hs
  rw [h.stopped, decide_eq_false_iff_not, Nat.not_le] at hgoes
  have hstreak := h.streak
  unfold Bench.refusals at hstreak
  by_cases hopened : trial.opened = 0
  · refine ⟨?_, rfl, ?_⟩
    · simp [Bench.record, Bench.refusals, hopened, hstreak]
    · simpa [Bench.record, hopened, Nat.succ_le_iff] using hgoes
  · refine ⟨?_, rfl, ?_⟩
    · simp [Bench.record, Bench.refusals, hopened]
    · simp [Bench.record, hopened]

-- The loop ends with the trials that were asked for, or is abandoned after so many
-- refusals in a row and no later.
theorem bench_abandoned {events : List (List DialEvent)}
    (hr : (Bench.step arguments).run {} events = some bench) :
    bench.trials.length ≤ arguments.trials ∧ bench.refusals ≤ REFUSAL_STREAK_LIMIT ∧
      (bench.stopped = true ↔ bench.refusals = REFUSAL_STREAK_LIMIT) := by
  have h : bench.Refusing :=
    Machine.run_invariant Bench.Refusing (fun _ _ _ h hs => h.step hs)
      (show Bench.Refusing {} from ⟨rfl, rfl, Nat.zero_le _⟩) hr
  have hmost := h.most
  rw [h.stopped, decide_eq_true_iff, ← h.streak]
  refine ⟨(bench_interleaved hr).within, hmost, ?_⟩
  omega

theorem grouped_groups (trials : List Trial) : (grouped arguments trials).map Prod.snd =
    Rotation.groups Trial.arm (arms arguments) trials := by
  rw [grouped, List.map_map]
  rfl

end

section

variable (arguments : Arguments)

-- A configuration is listed as often as its size and its gap are.
theorem count_arms (arm : Arm) : (arms arguments).count arm =
    arguments.concurrency.count arm.concurrency * arguments.gaps.count arm.gapSecs := by
  have hgaps (size : Nat) :
      (arguments.gaps.map fun gap => Arm.mk size gap).count arm =
        if size = arm.concurrency then arguments.gaps.count arm.gapSecs else 0 := by
    split_ifs with hsize
    · subst hsize
      exact List.count_map_of_injective _ _ (fun _ _ h => (Arm.mk.inj h).2) arm.gapSecs
    · refine List.count_eq_zero.mpr fun hm => ?_
      obtain ⟨gap, -, rfl⟩ := List.mem_map.mp hm
      exact hsize rfl
  unfold arms
  induction arguments.concurrency with
  | nil => simp
  | cons size sizes ih =>
      rw [List.flatMap_cons, List.count_append, hgaps, ih, List.count_cons, Nat.add_mul,
        Nat.add_comm]
      congr 1
      by_cases hsize : size = arm.concurrency
      · simp [hsize]
      · simp [hsize]

theorem gaps_nodup : arguments.gaps.Nodup ↔ ∀ gaps ∈ arguments.gapSecs, gaps.Nodup := by
  unfold Arguments.gaps
  cases arguments.gapSecs with
  | none => simp
  | some gaps => simp [List.nodup_map_iff (Option.some_injective Nat)]

theorem mem_arms {arm : Arm} : arm ∈ arms arguments ↔
    arm.concurrency ∈ arguments.concurrency ∧ arm.gapSecs ∈ arguments.gaps := by
  rw [← List.count_pos_iff, count_arms, CanonicallyOrderedAdd.mul_pos, List.count_pos_iff,
    List.count_pos_iff]

end

theorem Bench.Interleaved.partition_iff {arguments : Arguments} {bench : Bench}
    (h : bench.Interleaved arguments) :
    (((grouped arguments bench.trials).map Prod.snd).flatten.Perm bench.trials ∧
      ∀ first ∈ grouped arguments bench.trials, ∀ second ∈ grouped arguments bench.trials,
        first.2.length ≤ second.2.length + 1) ↔
      ∀ arm ∈ (arms arguments).take bench.trials.length,
        arguments.concurrency.count arm.concurrency = 1 ∧
          arguments.gaps.count arm.gapSecs = 1 := by
  have hpartition := h.rotated.partition_iff
  simp only [count_arms, mul_eq_one, ← grouped_groups, List.mem_map, forall_exists_index, and_imp,
    forall_apply_eq_imp_iff₂] at hpartition
  exact hpartition

-- Neither list repeats a value: then every run is partitioned, wherever it stops.
theorem distinct_partition {arguments : Arguments} (hsizes : arguments.concurrency.Nodup)
    (hgaps : ∀ gaps ∈ arguments.gapSecs, gaps.Nodup) {events : List (List DialEvent)}
    {bench : Bench} (hr : (Bench.step arguments).run {} events = some bench) :
    ((grouped arguments bench.trials).map Prod.snd).flatten.Perm bench.trials ∧
      ∀ first ∈ grouped arguments bench.trials, ∀ second ∈ grouped arguments bench.trials,
        first.2.length ≤ second.2.length + 1 := by
  rw [(bench_interleaved hr).partition_iff]
  intro arm harm
  obtain ⟨hsize, hgap⟩ := (mem_arms arguments).mp (List.mem_of_mem_take harm)
  have hdistinct := (gaps_nodup arguments).mpr hgaps
  exact ⟨List.count_eq_one_of_mem hsizes hsize, List.count_eq_one_of_mem hdistinct hgap⟩

-- The groups of a report are a balanced partition of the trials exactly when no
-- configuration that was reached is listed twice.
theorem groups_partition (arguments : Arguments) (events : List (List DialEvent)) (bench : Bench)
    (hr : (Bench.step arguments).run {} events = some bench) :
    (((grouped arguments bench.trials).map Prod.snd).flatten.Perm bench.trials ∧
      ∀ first ∈ grouped arguments bench.trials, ∀ second ∈ grouped arguments bench.trials,
        first.2.length ≤ second.2.length + 1) ↔
      ∀ arm ∈ (arms arguments).take bench.trials.length,
        arguments.concurrency.count arm.concurrency = 1 ∧
          arguments.gaps.count arm.gapSecs = 1 := by
  exact (bench_interleaved hr).partition_iff

-- Rounds of one and of three, as they are by default, and a trial of each that its
-- first stream answers.
def onesAndThrees : Arguments where
  trials := 2
  concurrency := [1, 3]
  gapSecs := none
  attempts_pos := Nat.succ_pos 5
  concurrency_pos := by decide
  concurrency_given := List.cons_ne_nil _ _
  gaps_given := fun _ h => nomatch h

def firstAnswers : List DialEvent :=
  [.polled 0 7, .wait 0 (.io (.wrote 14)), .wait 0 (.io .flushed),
    .wait 0 (.io (.read (Header.encode ⟨true, 7⟩)))]

theorem ones_and_threes_apart : ∃ bench,
    (Bench.step onesAndThrees).run {}
      [.opened :: firstAnswers, [.opened, .opened, .opened] ++ firstAnswers] = some bench ∧
    ((grouped onesAndThrees bench.trials).map Prod.snd).flatten.Perm bench.trials := by
  obtain ⟨bench, hr, hlength⟩ : ∃ bench,
      (Bench.step onesAndThrees).run {}
        [.opened :: firstAnswers, [.opened, .opened, .opened] ++ firstAnswers] = some bench ∧
      bench.trials.length = 2 :=
    Option.map_eq_some_iff.mp (by decide +kernel)
  refine ⟨bench, hr, ((groups_partition onesAndThrees _ bench hr).mpr ?_).1⟩
  rw [hlength]
  decide

-- Rounds of one against rounds of one.
def onesAndOnes : Arguments where
  trials := 2
  concurrency := [1, 1]
  gapSecs := none
  attempts_pos := Nat.succ_pos 5
  concurrency_pos := by decide
  concurrency_given := List.cons_ne_nil _ _
  gaps_given := fun _ h => nomatch h

theorem trials_counted_twice : ¬∀ (arguments : Arguments) (events : List (List DialEvent))
    (bench : Bench), (Bench.step arguments).run {} events = some bench →
    ((grouped arguments bench.trials).map Prod.snd).flatten.Perm bench.trials ∧
      ∀ first ∈ grouped arguments bench.trials, ∀ second ∈ grouped arguments bench.trials,
        first.2.length ≤ second.2.length + 1 := by
  intro hclaim
  obtain ⟨bench, hr, hlengths⟩ : ∃ bench,
      (Bench.step onesAndOnes).run {} [.opened :: firstAnswers, .opened :: firstAnswers] =
        some bench ∧
      (((grouped onesAndOnes bench.trials).map Prod.snd).flatten.length, bench.trials.length) =
        (4, 2) :=
    Option.map_eq_some_iff.mp (by decide +kernel)
  obtain ⟨hgroups, htrials⟩ := Prod.mk.inj hlengths
  have hlength := (hclaim onesAndOnes _ bench hr).1.length_eq
  omega

end LwdMixnet
