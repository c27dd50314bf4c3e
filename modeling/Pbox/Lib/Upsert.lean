import Mathlib.Data.List.Sort

/-! Lists of keyed entries in which an entry replaces the first one with its key, or is put at the
end when there is none. -/

namespace Pbox.Lib.Upsert

variable {Entry Key : Type} [DecidableEq Key] (key : Entry → Key)

@[grind =] def upsert (entry : Entry) : List Entry → List Entry
  | [] => [entry]
  | first :: rest => if key first = key entry then entry :: rest else first :: upsert entry rest

variable {key}

theorem mem_upsert_self (entry : Entry) (entries : List Entry) : entry ∈ upsert key entry entries := by
  induction entries with
  | nil => exact List.mem_singleton_self _
  | cons first rest ih =>
    unfold upsert
    split
    · exact List.mem_cons_self
    · exact List.mem_cons_of_mem _ ih

theorem mem_upsert_other {entry other : Entry} {entries : List Entry} (different : key other ≠ key entry)
    (member : other ∈ entries) : other ∈ upsert key entry entries := by
  induction entries with
  | nil => cases member
  | cons first rest ih =>
    unfold upsert
    split
    next same =>
      rcases List.mem_cons.mp member with rfl | later
      · exact absurd same different
      · exact List.mem_cons_of_mem _ later
    next =>
      rcases List.mem_cons.mp member with rfl | later
      · exact List.mem_cons_self
      · exact List.mem_cons_of_mem _ (ih later)

/-- Entries apart from the new one's key stay as they are. -/
theorem filter_upsert_other {entry : Entry} {entries : List Entry} {apart : Entry → Bool}
    (other : ∀ e, key e = key entry → apart e = false) :
    (upsert key entry entries).filter apart = entries.filter apart := by
  induction entries with
  | nil => simp [upsert, other]
  | cons first rest ih =>
    unfold upsert
    split
    next same => simp [other first same, other entry rfl]
    next different => simp [List.filter_cons, ih]

/-- Of the entries with the new one's key, the first is replaced. -/
theorem filter_upsert_same (entry : Entry) (entries : List Entry) :
    (upsert key entry entries).filter (fun e => key e = key entry) =
      entry :: (entries.filter fun e => key e = key entry).tail := by
  induction entries with
  | nil => simp [upsert]
  | cons first rest ih =>
    unfold upsert
    split
    next same => simp [same]
    next different => simp [different, ih]

theorem filter_sort (le : Entry → Entry → Prop) [DecidableRel le] (entries : List Entry) (keep : Entry → Bool) :
    ((entries.insertionSort le).filter keep).Perm (entries.filter keep) :=
  (List.perm_insertionSort le entries).filter keep

end Pbox.Lib.Upsert
