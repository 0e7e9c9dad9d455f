import Mathlib.Algebra.BigOperators.Fin
import Mathlib.Algebra.Order.BigOperators.Group.Finset

-- Two lists of items where each item of the one that counts at all has an item of the
-- other to itself.
namespace Matching

variable {α β : Type*}

structure Matched (left : List α) (right : List β) (value : α → Nat) (other : β → Nat)
    (matched : Nat → Nat → Prop) : Prop where
  covered : ∀ index item, left[index]? = some item → value item ≠ 0 →
    ∃ target found, matched index target ∧ right[target]? = some found ∧ value item ≤ other found
  alone : ∀ first second target item later, left[first]? = some item → value item ≠ 0 →
    left[second]? = some later → value later ≠ 0 → matched first target → matched second target →
    first = second

theorem Matched.sum_le {left : List α} {right : List β} {value : α → Nat} {other : β → Nat}
    {matched : Nat → Nat → Prop} (h : Matched left right value other matched) :
    (left.map value).sum ≤ (right.map other).sum := by
  classical
  have hcovered (index : Fin left.length) (hvalue : value left[index] ≠ 0) :
      ∃ target : Fin right.length,
        matched index target ∧ value left[index] ≤ other right[target] := by
    obtain ⟨target, found, hmatched, hfound, hless⟩ :=
      h.covered index left[index] (List.getElem?_eq_getElem index.isLt) hvalue
    obtain ⟨hlt, rfl⟩ := List.getElem?_eq_some_iff.mp hfound
    exact ⟨⟨target, hlt⟩, hmatched, hless⟩
  choose target hmatched hless using hcovered
  let counted := Finset.univ.filter fun index : Fin left.length => value left[index] ≠ 0
  let aim (index : counted) : Fin right.length := target index (Finset.mem_filter.mp index.2).2
  have halone : Set.InjOn aim counted.attach := by
    intro first _ second _ hsame
    have hfirst := hmatched first (Finset.mem_filter.mp first.2).2
    have hsecond := hmatched second (Finset.mem_filter.mp second.2).2
    have haim : target first (Finset.mem_filter.mp first.2).2 =
      target second (Finset.mem_filter.mp second.2).2 := hsame
    rw [← haim] at hsecond
    refine Subtype.ext (Fin.ext ?_)
    exact h.alone first second _ _ _ (List.getElem?_eq_getElem first.1.isLt)
      (Finset.mem_filter.mp first.2).2 (List.getElem?_eq_getElem second.1.isLt)
      (Finset.mem_filter.mp second.2).2 hfirst hsecond
  rw [← Fin.sum_univ_fun_getElem left value, ← Fin.sum_univ_fun_getElem right other]
  calc ∑ index : Fin left.length, value left[index]
      = ∑ index ∈ counted, value left[index] := (Finset.sum_filter_ne_zero _).symm
    _ = ∑ index ∈ counted.attach, value left[index.1] :=
        (Finset.sum_attach counted fun index => value left[index]).symm
    _ ≤ ∑ index ∈ counted.attach, other right[aim index] :=
        Finset.sum_le_sum fun index _ => hless index _
    _ = ∑ index ∈ counted.attach.image aim, other right[index] :=
        (Finset.sum_image (f := fun index : Fin right.length => other right[index]) halone).symm
    _ ≤ ∑ index : Fin right.length, other right[index] :=
        Finset.sum_le_sum_of_subset (Finset.subset_univ _)

end Matching
