import Mathlib.Algebra.GroupWithZero.Nat
import Mathlib.Data.Nat.Basic
import Mathlib.Order.MinMax

namespace LwdMixnet

-- A duration, and an instant counted from a fixed start, is a number of
-- nanoseconds.
def MILLI : Nat := 1000000

def U64_MAX : Nat := 2 ^ 64 - 1

def fromMillis (count : Nat) : Nat := count * MILLI

def fromSecs (count : Nat) : Nat := count * (1000 * MILLI)

-- Whole milliseconds, saturating where they no longer fit a u64.
def asMillis (duration : Nat) : Nat := min (duration / MILLI) U64_MAX

-- The millisecond clock has the deadline counted from `start` reached at `now`,
-- and it is not.
def Premature (deadline start now : Nat) : Prop :=
  asMillis start + asMillis deadline ≤ asMillis now ∧ now < start + deadline

theorem le_of_not_premature {deadline start now : Nat} (h : ¬Premature deadline start now)
    (hdue : asMillis start + asMillis deadline ≤ asMillis now) : start + deadline ≤ now :=
  Nat.le_of_not_lt fun hlt => h ⟨hdue, hlt⟩

theorem asMillis_mono {first second : Nat} (h : first ≤ second) :
    asMillis first ≤ asMillis second :=
  min_le_min_right U64_MAX (Nat.div_le_div_right h)

theorem asMillis_le (duration : Nat) : asMillis duration ≤ duration / MILLI :=
  Nat.min_le_left _ _

theorem asMillis_le_max (duration : Nat) : asMillis duration ≤ U64_MAX :=
  Nat.min_le_right _ _

theorem asMillis_of_le {duration : Nat} (h : duration / MILLI ≤ U64_MAX) :
    asMillis duration = duration / MILLI :=
  Nat.min_eq_left h

theorem asMillis_mul_le (duration : Nat) : asMillis duration * MILLI ≤ duration :=
  (Nat.mul_le_mul_right _ (asMillis_le duration)).trans (Nat.div_mul_le_self _ _)

theorem asMillis_add_le {first second : Nat} (hfits : (first + second) / MILLI ≤ U64_MAX) :
    asMillis first + asMillis second ≤ asMillis (first + second) := by
  rw [asMillis_of_le hfits]
  exact (Nat.add_le_add (asMillis_le first) (asMillis_le second)).trans
    Nat.div_add_div_le_add_div

theorem asMillis_fromMillis {count : Nat} (hfits : count ≤ U64_MAX) :
    asMillis (fromMillis count) = count := by
  rw [asMillis, fromMillis, Nat.mul_div_cancel _ (by decide)]
  exact Nat.min_eq_left hfits

-- A deadline of whole milliseconds is less than one of them early.
theorem lt_of_asMillis {count start now : Nat} (hfits : count ≤ U64_MAX) (hpast : start ≤ now)
    (h : asMillis start + count ≤ asMillis now) : start + fromMillis count < now + MILLI := by
  unfold asMillis fromMillis MILLI U64_MAX at *
  omega

theorem lt_of_asMillis_le {duration count : Nat} (h : asMillis duration ≤ count)
    (hfits : count < U64_MAX) : duration < fromMillis (count + 1) := by
  unfold asMillis fromMillis MILLI at *
  omega

theorem mul_milli_div (count width : Nat) : count * (width * MILLI) / MILLI = count * width := by
  rw [← Nat.mul_assoc, Nat.mul_div_cancel _ (by decide : 0 < MILLI)]

end LwdMixnet
