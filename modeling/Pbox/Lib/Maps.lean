import Mathlib.Data.List.AList

/-! Finite maps with values of one type, as association lists without duplicate keys. What is
found after an insertion or a removal is stated as one equivalence each. -/

namespace Pbox.Lib.Maps

abbrev Assoc (κ β : Type*) := AList fun _ : κ => β

variable {κ β : Type*} [DecidableEq κ]

def Assoc.find (map : Assoc κ β) (key : κ) : Option β := map.lookup key

theorem find_empty (key : κ) : Assoc.find (∅ : Assoc κ β) key = none := AList.lookup_empty key

theorem find_erase_iff {map : Assoc κ β} {key other : κ} {value : β} :
    Assoc.find (map.erase key) other = some value ↔ other ≠ key ∧ Assoc.find map other = some value := by
  by_cases same : other = key
  · subst same
    simp [Assoc.find]
  · simp [Assoc.find, AList.lookup_erase_ne same, same]

theorem find_insert_iff {map : Assoc κ β} {key other : κ} {fresh value : β} :
    Assoc.find (map.insert key fresh) other = some value ↔
      (other = key ∧ value = fresh) ∨ (other ≠ key ∧ Assoc.find map other = some value) := by
  by_cases same : other = key
  · subst same
    simp [Assoc.find, AList.lookup_insert, eq_comm]
  · simp [Assoc.find, AList.lookup_insert_ne same, same]

theorem find_some_iff {map : Assoc κ β} {key : κ} {value : β} :
    Assoc.find map key = some value ↔ Sigma.mk key value ∈ map.entries :=
  AList.mem_lookup_iff

/-- A key has at most one value. -/
theorem entries_unique {map : Assoc κ β} {key : κ} {first second : β}
    (one : Sigma.mk key first ∈ map.entries) (two : Sigma.mk key second ∈ map.entries) :
    first = second := by
  have found := find_some_iff.mpr one
  rw [find_some_iff.mpr two, Option.some.injEq] at found
  exact found.symm

end Pbox.Lib.Maps
