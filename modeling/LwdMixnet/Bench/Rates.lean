import LwdMixnet.Bench.Groups
import LwdMixnet.Dial.Budget
import LwdMixnet.Survival

namespace LwdMixnet

-- How many rounds of a trial went unanswered.
def Trial.lost (trial : Trial) : Nat :=
  trial.rounds.countP fun round => !round.answered

-- A trial loses rounds from the first one on. It stops at the one that is answered,
-- or at the last.
structure Trial.Ladder (most : Nat) (trial : Trial) : Prop where
  within : trial.rounds.length ≤ most
  reached : ∀ index < most, index < trial.rounds.length ↔ index ≤ trial.lost
  failed : ∀ index < most,
    (trial.rounds[index]?.any fun round => !round.answered) = decide (index + 1 ≤ trial.lost)
  gaveUp : trial.answered = false ↔ most ≤ trial.lost

section

variable {settings : DialSettings} {trial : Trial} {most : Nat}

theorem lost_unanswered {rounds : List Round} (h : ∀ round ∈ rounds, round.answered = false) :
    (rounds.countP fun round => !round.answered) = rounds.length := by
  rw [List.countP_eq_length]
  intro round hround
  rw [h round hround]
  rfl

theorem Trial.ladder_answered {earlier : List Round} {last : Round}
    (hrounds : trial.rounds = earlier ++ [last]) (hanswered : trial.answered)
    (hearlier : ∀ round ∈ earlier, round.answered = false) (hlast : last.answered = true)
    (hwithin : earlier.length < most) : trial.Ladder most := by
  have hlost : trial.lost = earlier.length := by
    rw [Trial.lost, hrounds, List.countP_append, lost_unanswered hearlier]
    simp [hlast]
  have hlength : trial.rounds.length = earlier.length + 1 := by
    rw [hrounds, List.length_append, List.length_singleton]
  refine ⟨by omega, fun index _ => by omega, fun index _ => ?_, ?_⟩
  · rw [hlost, hrounds]
    rcases Nat.lt_trichotomy index earlier.length with hlt | rfl | hgt
    · rw [List.getElem?_append_left hlt, List.getElem?_eq_getElem hlt]
      simp [hearlier _ (List.getElem_mem hlt), hlt]
    · simp [hlast]
    · rw [List.getElem?_eq_none (by simpa using hgt)]
      simpa using hgt.le
  · rw [hanswered, hlost]
    simpa using hwithin

theorem Trial.ladder_gaveUp (hanswered : trial.answered = false)
    (hrounds : ∀ round ∈ trial.rounds, round.answered = false)
    (hall : trial.rounds.length = most) : trial.Ladder most := by
  have hlost : trial.lost = most := (lost_unanswered hrounds).trans hall
  refine ⟨hall.le, fun index hindex => by omega, fun index hindex => ?_, ?_⟩
  · rw [← hall] at hindex
    rw [List.getElem?_eq_getElem hindex, hlost, ← hall]
    simp [hrounds _ (List.getElem_mem hindex), hindex]
  · simp [hanswered, hlost]

-- `dial` goes up its rounds one by one, so its trials do.
theorem Trial.Ran.ladder (h : trial.Ran settings) : trial.Ladder settings.mostRounds := by
  obtain ⟨events, dial, hr, htrial⟩ := h
  have hbudgeted := dial_budgeted hr
  obtain ⟨hmost, -⟩ := hbudgeted.bounded
  unfold Dial.Budgeted at hbudgeted
  unfold runTrial at htrial
  split at htrial
  · rename_i dialled hphase
    simp only [hphase] at hbudgeted
    obtain ⟨hsame, -, earlier, last, hrounds, hlooping, hneeded, hanswered⟩ := hbudgeted
    rw [← Option.some.inj htrial]
    refine Trial.ladder_answered (hsame.trans hrounds) rfl hlooping.unanswered hanswered ?_
    rw [hrounds, List.length_append, List.length_singleton] at hmost
    omega
  · rename_i gaveUp hphase
    simp only [hphase] at hbudgeted
    obtain ⟨hsame, hlooping, hall⟩ := hbudgeted
    rw [← Option.some.inj htrial]
    refine Trial.ladder_gaveUp rfl (hsame ▸ hlooping.unanswered) ?_
    rw [← hsame] at hall hmost
    exact Nat.le_antisymm ((Nat.le_add_right _ _).trans hmost) (mostRounds_le hall)
  · cases htrial

end

section

variable {group : List Trial} {most : Nat} (h : ∀ trial ∈ group, trial.Ladder most)

theorem failed_eq (group : List Trial) (index : Nat) : failed group index =
    group.countP fun trial => trial.rounds[index]?.any fun round => !round.answered := by
  rw [failed, List.countP_filterMap]
  congr 1
  funext trial
  cases trial.rounds[index]? <;> rfl

include h

theorem reached_survivors {index : Nat} (hindex : index < most) :
    reached group index = Survival.survivors Trial.lost group index := by
  refine List.countP_congr fun trial htrial => ?_
  simpa using (h trial htrial).reached index hindex

theorem failed_survivors {index : Nat} (hindex : index < most) :
    failed group index = Survival.survivors Trial.lost group (index + 1) := by
  rw [failed_eq]
  refine List.countP_congr fun trial htrial => ?_
  rw [(h trial htrial).failed index hindex]

theorem visible_survivors : (group.countP fun trial => !trial.answered) =
    Survival.survivors Trial.lost group most := by
  refine List.countP_congr fun trial htrial => ?_
  simpa using (h trial htrial).gaveUp

theorem visible_ratio (hne : group ≠ []) :
    ratio (group.countP fun trial => !trial.answered) group.length =
      (Survival.survivors Trial.lost group most : ℚ) / group.length := by
  rw [ratio, Nat.max_eq_left (List.length_pos_iff.mpr hne), visible_survivors h]

theorem prod_ratio (hne : group ≠ []) {rounds : Nat} (hrounds : rounds ≤ most) :
    ∏ index ∈ Finset.range rounds, ratio (failed group index) (reached group index) =
      (Survival.survivors Trial.lost group rounds : ℚ) / group.length := by
  rw [← Survival.prod_share hne]
  refine Finset.prod_congr rfl fun index hindex => ?_
  have hlt := (Finset.mem_range.mp hindex).trans_le hrounds
  rw [ratio, failed_survivors h hlt, reached_survivors h hlt]

end

theorem length_le_deepest {group : List Trial} {trial : Trial} (h : trial ∈ group) :
    trial.rounds.length ≤ deepest group :=
  List.le_max?_getD_of_mem (List.mem_map_of_mem h)

theorem deepest_le {group : List Trial} {most : Nat}
    (h : ∀ trial ∈ group, trial.rounds.length ≤ most) : deepest group ≤ most := by
  unfold deepest
  cases hmax : (group.map fun trial => trial.rounds.length).max? with
  | none => exact Nat.zero_le most
  | some length =>
      obtain ⟨trial, htrial, rfl⟩ := List.mem_map.mp (List.max?_mem hmax)
      exact h trial htrial

theorem reached_deepest (group : List Trial) : reached group (deepest group) = 0 := by
  rw [reached, List.countP_eq_zero]
  intro trial htrial
  simpa using length_le_deepest htrial

-- Nothing is lost by the rounds that a table leaves out, as nothing reached them.
theorem prod_rates {group : List Trial} {most : Nat} (h : ∀ trial ∈ group, trial.Ladder most)
    (hne : group ≠ []) (hprinted : conditionalRates group ≠ []) :
    ((conditionalRates group).map RoundRate.rate).prod =
      ratio (group.countP fun trial => !trial.answered) group.length := by
  have hdeepest := deepest_le fun trial htrial => (h trial htrial).within
  have hsurvivors : Survival.survivors Trial.lost group (deepest group) =
      Survival.survivors Trial.lost group most := by
    rcases Nat.lt_or_eq_of_le hdeepest with hlt | heq
    · have hzero : Survival.survivors Trial.lost group (deepest group) = 0 := by
        rw [← reached_survivors h hlt, reached_deepest]
      have hmost : Survival.survivors Trial.lost group most ≤ 0 :=
        hzero ▸ Survival.survivors_antitone hdeepest
      rw [hzero, Nat.eq_zero_of_le_zero hmost]
    · rw [heq]
  unfold conditionalRates at hprinted ⊢
  split_ifs at hprinted ⊢ with hshallow
  · exact absurd rfl hprinted
  · rw [List.map_map, ← List.prod_toFinset _ List.nodup_range, List.toFinset_range,
      visible_ratio h hne, ← hsurvivors]
    exact prod_ratio h hne hdeepest

section

variable {attempts concurrency : Nat} {group : List Trial}
  (hran : ∀ trial ∈ group, ∃ settings : DialSettings,
    settings.attempts = attempts ∧ settings.concurrency = concurrency ∧ trial.Ran settings)

include hran

end

-- And so it is in every report, wherever the loop over the trials stopped.
theorem report_rates_multiply {arguments : Arguments} {events : List (List DialEvent)}
    {bench : Bench} (hr : (Bench.step arguments).run {} events = some bench) :
    ∀ printed ∈ (report arguments bench.trials).arms, printed.rates ≠ [] →
      (printed.rates.map RoundRate.rate).prod = printed.visibleRate := by
  intro printed hprinted
  obtain ⟨entry, hentry, hreport⟩ := List.mem_filterMap.mp hprinted
  obtain ⟨arm, -, rfl⟩ := List.mem_map.mp hentry
  obtain ⟨hne, rfl⟩ := reportArm_some hreport
  have hladder : ∀ trial ∈ bench.trials.filter fun trial => trial.arm = arm,
      trial.Ladder (arguments.settings arm).mostRounds := by
    intro trial htrial
    obtain ⟨hmember, harm⟩ := List.mem_filter.mp htrial
    rw [← of_decide_eq_true harm]
    exact ((bench_interleaved hr).ran trial hmember).ladder
  exact prod_rates hladder hne

end LwdMixnet
