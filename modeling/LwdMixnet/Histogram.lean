import Mathlib.Algebra.BigOperators.Group.List.Basic
import Mathlib.Algebra.GroupWithZero.Nat
import Mathlib.Order.Lattice

-- How often each key occurred, in the order of the keys.
structure Histogram (κ : Type*) [LinearOrder κ] where
  entries : List (κ × Nat)
  sorted : entries.Pairwise fun first second => first.1 < second.1
  positive : ∀ entry ∈ entries, 0 < entry.2

namespace Histogram

variable {κ : Type*}

def weight (weigh : κ → Nat) (entries : List (κ × Nat)) : Nat :=
  (entries.map fun entry => entry.2 * weigh entry.1).sum

variable [LinearOrder κ]

def bumped (key : κ) : List (κ × Nat) → List (κ × Nat)
  | [] => [(key, 1)]
  | entry :: entries =>
      if key < entry.1 then (key, 1) :: entry :: entries
      else if key = entry.1 then (key, entry.2 + 1) :: entries
      else entry :: bumped key entries

section

variable {key : κ} {entries : List (κ × Nat)}

theorem mem_bumped {entry : κ × Nat} (h : entry ∈ bumped key entries) :
    entry ∈ entries ∨ entry.1 = key ∧ 0 < entry.2 := by
  induction entries with
  | nil =>
      obtain rfl := List.mem_singleton.mp h
      exact Or.inr ⟨rfl, Nat.one_pos⟩
  | cons first entries ih =>
      unfold bumped at h
      split_ifs at h with hless hsame
      · obtain rfl | hrest := List.mem_cons.mp h
        · exact Or.inr ⟨rfl, Nat.one_pos⟩
        · exact Or.inl hrest
      · obtain rfl | hrest := List.mem_cons.mp h
        · exact Or.inr ⟨rfl, Nat.succ_pos _⟩
        · exact Or.inl (List.mem_cons_of_mem first hrest)
      · obtain rfl | hrest := List.mem_cons.mp h
        · exact Or.inl List.mem_cons_self
        · exact (ih hrest).imp_left (List.mem_cons_of_mem first)

theorem bumped_sorted (h : entries.Pairwise fun first second => first.1 < second.1) :
    (bumped key entries).Pairwise fun first second => first.1 < second.1 := by
  induction entries with
  | nil => exact List.pairwise_singleton _ _
  | cons entry entries ih =>
      obtain ⟨hfirst, hrest⟩ := List.pairwise_cons.mp h
      unfold bumped
      split_ifs with hless hsame
      · refine List.pairwise_cons.mpr ⟨fun other hother => ?_, h⟩
        obtain rfl | hother := List.mem_cons.mp hother
        · exact hless
        · exact lt_trans hless (hfirst other hother)
      · subst hsame
        exact List.pairwise_cons.mpr ⟨hfirst, hrest⟩
      · refine List.pairwise_cons.mpr ⟨fun other hother => ?_, ih hrest⟩
        obtain hother | ⟨hkey, -⟩ := mem_bumped hother
        · exact hfirst other hother
        · rw [hkey]
          exact lt_of_le_of_ne (not_lt.mp hless) (Ne.symm hsame)

end

def empty : Histogram κ where
  entries := []
  sorted := List.Pairwise.nil
  positive := fun _ h => nomatch h

def bump (histogram : Histogram κ) (key : κ) : Histogram κ where
  entries := bumped key histogram.entries
  sorted := bumped_sorted histogram.sorted
  positive := fun entry hentry => (mem_bumped hentry).elim (histogram.positive entry) And.right

-- The histogram of a list of keys.
def of (keys : List κ) : Histogram κ := keys.foldl bump empty

end Histogram
