import Mathlib.Data.Int.CardIntervalMod
import Mathlib.Data.List.Duplicate

-- Items that are handed to keys in rotation, and grouped by the value of their
-- key afterwards.
namespace Rotation

variable {α κ : Type*}

def Rotated (key : α → κ) (keys : List κ) (items : List α) : Prop :=
  ∀ index item, items[index]? = some item → keys[index % keys.length]? = some (key item)

section

variable {key : α → κ} {keys : List κ} {items : List α}

theorem Rotated.init {item : α} (h : Rotated key keys (items ++ [item])) :
    Rotated key keys items ∧ keys[items.length % keys.length]? = some (key item) := by
  refine ⟨fun index other hother => h index other ?_, h items.length item ?_⟩
  · rw [List.getElem?_append_left (List.getElem?_eq_some_iff.mp hother).1, hother]
  · rw [List.getElem?_append_right (Nat.le_refl _), Nat.sub_self]
    rfl

theorem Rotated.snoc {item : α} (h : Rotated key keys items)
    (hitem : keys[items.length % keys.length]? = some (key item)) :
    Rotated key keys (items ++ [item]) := by
  intro index other hother
  rcases Nat.lt_or_ge index items.length with hlt | hge
  · rw [List.getElem?_append_left hlt] at hother
    exact h index other hother
  · have hlen := (List.getElem?_eq_some_iff.mp hother).1
    rw [List.length_append, List.length_singleton] at hlen
    obtain rfl : index = items.length := by omega
    rw [List.getElem?_append_right hge, Nat.sub_self] at hother
    obtain rfl := Option.some.inj hother
    exact hitem

end

variable [DecidableEq κ]

def group (key : α → κ) (items : List α) (value : κ) : List α :=
  items.filter fun item => key item = value

def groups (key : α → κ) (keys : List κ) (items : List α) : List (List α) :=
  keys.map (group key items)

variable {key : α → κ} {keys : List κ} {items : List α}

theorem count_groups [DecidableEq α] (item : α) : (groups key keys items).flatten.count item =
    keys.count (key item) * items.count item := by
  induction keys with
  | nil => simp [groups]
  | cons value keys ih =>
      rw [groups] at ih ⊢
      rw [List.map_cons, List.flatten_cons, List.count_append, ih, List.count_cons, Nat.add_mul,
        Nat.add_comm]
      congr 1
      by_cases hvalue : key item = value
      · rw [group, List.count_filter (by simpa using hvalue)]
        simp [hvalue]
      · have hnot : item ∉ group key items value := by
          simp [group, hvalue]
        rw [List.count_eq_zero.mpr hnot]
        simp [Ne.symm hvalue]

-- Grouping keeps each item once exactly when no key that is in use is repeated.
theorem groups_perm_iff : (groups key keys items).flatten.Perm items ↔
    ∀ item ∈ items, keys.count (key item) = 1 := by
  classical
  rw [List.perm_iff_count]
  refine forall_congr' fun item => ?_
  rw [count_groups]
  constructor
  · intro h hm
    exact Nat.eq_of_mul_eq_mul_right (List.count_pos_iff.mpr hm) (h.trans (Nat.one_mul _).symm)
  · intro h
    by_cases hm : item ∈ items
    · rw [h hm, Nat.one_mul]
    · rw [List.count_eq_zero.mpr hm, Nat.mul_zero]

theorem place_unique {value : κ} {first second : Nat} (hunique : keys.count value = 1)
    (hfirst : keys[first]? = some value) (hsecond : keys[second]? = some value) :
    first = second := by
  have hnot : ¬keys.Duplicate value := by
    rw [List.duplicate_iff_two_le_count]
    omega
  obtain ⟨hlt, hvalue⟩ := List.getElem?_eq_some_iff.mp hfirst
  obtain ⟨hlt', hvalue'⟩ := List.getElem?_eq_some_iff.mp hsecond
  by_contra hne
  rw [List.duplicate_iff_exists_distinct_get] at hnot
  rcases Nat.lt_or_gt_of_ne hne with horder | horder
  · exact hnot ⟨⟨first, hlt⟩, ⟨second, hlt'⟩, horder, hvalue.symm, hvalue'.symm⟩
  · exact hnot ⟨⟨second, hlt'⟩, ⟨first, hlt⟩, horder, hvalue'.symm, hvalue.symm⟩

-- A key that is listed once gets every item whose place comes round to it.
theorem Rotated.length_group (h : Rotated key keys items) {value : κ} {place : Nat}
    (hplace : keys[place]? = some value) (hunique : keys.count value = 1) :
    (group key items value).length = items.length.count (· ≡ place [MOD keys.length]) := by
  have hmod : place % keys.length = place :=
    Nat.mod_eq_of_lt (List.getElem?_eq_some_iff.mp hplace).1
  induction items using List.reverseRecOn with
  | nil => simp [group]
  | append_singleton items item ih =>
      obtain ⟨hitems, hitem⟩ := h.init
      have hkey : key item = value ↔ items.length ≡ place [MOD keys.length] := by
        rw [Nat.ModEq, hmod]
        constructor
        · rintro rfl
          exact place_unique hunique hitem hplace
        · intro hround
          rw [hround, hplace] at hitem
          exact (Option.some.inj hitem).symm
      rw [group, List.filter_append, List.length_append, List.length_append, List.length_singleton,
        Nat.count_succ, ← ih hitems, group]
      congr 1
      by_cases hvalue : key item = value
      · simp [hvalue, hkey.mp hvalue]
      · simp [hvalue, mt hkey.mpr hvalue]

-- With no key in use repeated, the groups are as even as their number allows.
theorem Rotated.balanced (h : Rotated key keys items)
    (hunique : ∀ value ∈ keys.take items.length, keys.count value = 1) {value : κ}
    (hvalue : value ∈ keys) : items.length / keys.length ≤ (group key items value).length ∧
      (group key items value).length ≤ items.length / keys.length + 1 := by
  obtain ⟨place, hplace⟩ := List.getElem?_of_mem hvalue
  by_cases hused : value ∈ keys.take items.length
  · have hpos := List.length_pos_of_mem hvalue
    rw [h.length_group hplace (hunique value hused), Nat.count_modEq_card _ hpos]
    split_ifs
    · exact ⟨Nat.le_add_right _ _, Nat.le_refl _⟩
    · exact ⟨Nat.le_refl _, Nat.le_add_right _ _⟩
  · -- its place has not come round yet
    have hshort : items.length < keys.length := by
      by_contra hlong
      rw [List.take_of_length_le (Nat.le_of_not_lt hlong)] at hused
      exact hused hvalue
    have hnone : group key items value = [] := by
      rw [group, List.filter_eq_nil_iff]
      intro item hitem hkey
      obtain ⟨index, hindex⟩ := List.getElem?_of_mem hitem
      have hlt := (List.getElem?_eq_some_iff.mp hindex).1
      have hplaced := h index item hindex
      rw [Nat.mod_eq_of_lt (hlt.trans hshort), decide_eq_true_iff.mp hkey] at hplaced
      apply hused
      rw [← List.getElem?_take_of_lt hlt] at hplaced
      exact List.mem_of_getElem? hplaced
    rw [hnone, Nat.div_eq_of_lt hshort]
    exact ⟨Nat.le_refl _, Nat.zero_le _⟩

-- The keys in use are the ones whose turn has come.
theorem Rotated.used_iff (h : Rotated key keys items) :
    (∀ item ∈ items, keys.count (key item) = 1) ↔
      ∀ value ∈ keys.take items.length, keys.count value = 1 := by
  constructor
  · intro hitems value hvalue
    obtain ⟨index, hindex⟩ := List.getElem?_of_mem hvalue
    have hlt := (List.getElem?_eq_some_iff.mp hindex).1
    rw [List.length_take, Nat.lt_min] at hlt
    rw [List.getElem?_take_of_lt hlt.1] at hindex
    have hitem := List.getElem?_eq_getElem hlt.1
    have hkey := h index _ hitem
    rw [Nat.mod_eq_of_lt hlt.2, hindex] at hkey
    rw [Option.some.inj hkey]
    exact hitems _ (List.getElem_mem _)
  · intro hvalues item hitem
    obtain ⟨index, hindex⟩ := List.getElem?_of_mem hitem
    have hlt := (List.getElem?_eq_some_iff.mp hindex).1
    have hkey := h index item hindex
    rw [← List.getElem?_take_of_lt ((Nat.mod_le _ _).trans_lt hlt)] at hkey
    exact hvalues _ (List.mem_of_getElem? hkey)

theorem Rotated.partition_iff (h : Rotated key keys items) :
    ((groups key keys items).flatten.Perm items ∧
      ∀ first ∈ groups key keys items, ∀ second ∈ groups key keys items,
        first.length ≤ second.length + 1) ↔
      ∀ value ∈ keys.take items.length, keys.count value = 1 := by
  rw [groups_perm_iff, h.used_iff]
  refine ⟨And.left, fun hunique => ⟨hunique, ?_⟩⟩
  intro first hfirst second hsecond
  obtain ⟨value, hvalue, rfl⟩ := List.mem_map.mp hfirst
  obtain ⟨other, hother, rfl⟩ := List.mem_map.mp hsecond
  have hmost := (h.balanced hunique hvalue).2
  have hleast := (h.balanced hunique hother).1
  omega

end Rotation
