import Mathlib.Algebra.BigOperators.Field
import Mathlib.Algebra.BigOperators.Intervals
import Mathlib.Algebra.CharZero.Defs
import Mathlib.Tactic.FieldSimp

-- How many of some items outlive each stage, and the shares that go on from one
-- stage to the next.
namespace Survival

variable {α : Type*} {life : α → ℕ} {items : List α}

def survivors (life : α → ℕ) (items : List α) (stage : ℕ) : ℕ :=
  items.countP fun item => stage ≤ life item

theorem survivors_zero : survivors life items 0 = items.length :=
  List.countP_eq_length.mpr fun _ _ => decide_eq_true (Nat.zero_le _)

theorem survivors_antitone : Antitone (survivors life items) :=
  fun _ _ hle => List.countP_mono_left fun _ _ hlives =>
    decide_eq_true (hle.trans (of_decide_eq_true hlives))

-- A stage that nothing reaches has no share, and nothing comes after it.
theorem prod_share {K : Type*} [Field K] [CharZero K] (hne : items ≠ []) (stages : ℕ) :
    ∏ stage ∈ Finset.range stages,
      ((survivors life items (stage + 1) : K) / (max (survivors life items stage) 1 : ℕ)) =
      (survivors life items stages : K) / items.length := by
  have hlength : (items.length : K) ≠ 0 :=
    Nat.cast_ne_zero.mpr (List.length_pos_iff.mpr hne).ne'
  induction stages with
  | zero => rw [Finset.prod_range_zero, survivors_zero, div_self hlength]
  | succ stages ih =>
      rw [Finset.prod_range_succ, ih]
      rcases Nat.eq_zero_or_pos (survivors life items stages) with hzero | hpos
      · have hnext : survivors life items (stages + 1) = 0 :=
          Nat.eq_zero_of_le_zero (hzero ▸ survivors_antitone (Nat.le_succ stages))
        rw [hzero, hnext]
        simp
      · have hstage : (survivors life items stages : K) ≠ 0 := Nat.cast_ne_zero.mpr hpos.ne'
        rw [Nat.max_eq_left hpos]
        field_simp

end Survival
