import Mathlib.Data.List.Sort
import Mathlib.Data.List.Nodup

/-! What can be said of a list without knowing the order in which it came. -/

namespace Pbox.Lib.Rearrange

variable {Item Key : Type*} {left right : List Item}

/-- Sorting by an order in which only equal items of the list are equivalent. -/
theorem insertionSort_perm {r : Item → Item → Prop} [DecidableRel r] [Std.Total r] [IsTrans Item r]
    (perm : left.Perm right) (antisymm : ∀ a ∈ left, ∀ b ∈ left, r a b → r b a → a = b) : left.insertionSort r = right.insertionSort r := by
  have arranged : (left.insertionSort r).Perm (right.insertionSort r) :=
    ((List.perm_insertionSort r left).trans perm).trans (List.perm_insertionSort r right).symm
  refine List.Perm.eq_of_pairwise ?_ (List.pairwise_insertionSort r left) (List.pairwise_insertionSort r right) arranged
  intro a b here there below above
  apply antisymm a ((List.perm_insertionSort r left).subset here) b _ below above
  exact perm.symm.subset ((List.perm_insertionSort r right).subset there)

/-- Looking for the item with a key, where no two have the same. -/
theorem find_perm [DecidableEq Key] (key : Item → Key) (perm : left.Perm right) (distinct : (left.map key).Nodup)
    (wanted : Key) :
    left.find? (fun item => key item = wanted) = right.find? fun item => key item = wanted := by
  cases found : left.find? (fun item => key item = wanted) with
  | none =>
    symm
    apply List.find?_eq_none.mpr
    intro item member same
    exact List.find?_eq_none.mp found item (perm.symm.subset member) same
  | some item =>
    have here : item ∈ left := List.mem_of_find?_eq_some found
    have same : key item = wanted := by simpa using List.find?_some found
    cases other : right.find? (fun item => key item = wanted) with
    | none => exact absurd (decide_eq_true same) (List.find?_eq_none.mp other item (perm.subset here))
    | some second =>
      have there : second ∈ left := perm.symm.subset (List.mem_of_find?_eq_some other)
      have also : key second = wanted := by simpa using List.find?_some other
      rw [List.inj_on_of_nodup_map distinct here there (same.trans also.symm)]

theorem any_perm {p : Item → Bool} (perm : left.Perm right) : left.any p = right.any p := by
  rw [Bool.eq_iff_iff, List.any_eq_true, List.any_eq_true]
  constructor
  · rintro ⟨item, member, holds⟩
    exact ⟨item, perm.subset member, holds⟩
  · rintro ⟨item, member, holds⟩
    exact ⟨item, perm.symm.subset member, holds⟩

end Pbox.Lib.Rearrange
