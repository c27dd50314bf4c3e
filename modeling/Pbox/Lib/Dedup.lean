import Mathlib.Data.List.Sort

/-! `Vec::dedup_by` for a key: of neighbours with one key the first is kept. In a list that is sorted so that equal keys
are neighbours, what is kept is the least entry of each key. -/

namespace Pbox.Lib.Dedup

variable {Entry Key : Type} [DecidableEq Key] (key : Entry → Key)

def dedupAfter (last : Entry) : List Entry → List Entry
  | [] => []
  | entry :: rest => if key entry = key last then dedupAfter last rest else entry :: dedupAfter entry rest

def dedup : List Entry → List Entry
  | [] => []
  | entry :: rest => entry :: dedupAfter key entry rest

variable {key} {le : Entry → Entry → Prop}

/-- An order that keeps entries of one key together. -/
structure Gathers (key : Entry → Key) (le : Entry → Entry → Prop) : Prop where
  refl : ∀ entry, le entry entry
  antisymm : ∀ first second, le first second → le second first → first = second
  between : ∀ first second third, le first second → le second third → key first = key third →
    key second = key first

/-- Whether an entry is the least of its key. -/
def Least (key : Entry → Key) (le : Entry → Entry → Prop) (entries : List Entry) (entry : Entry) : Prop :=
  entry ∈ entries ∧ ∀ other ∈ entries, key other = key entry → le entry other

theorem least_cons (gathers : Gathers key le) {first entry : Entry} {rest : List Entry}
    (sorted : (first :: rest).Pairwise le) :
    Least key le (first :: rest) entry ↔ entry = first ∨ key entry ≠ key first ∧ Least key le rest entry := by
  obtain ⟨least, _⟩ := List.pairwise_cons.mp sorted
  constructor
  · intro kept
    obtain ⟨member, smallest⟩ := kept
    by_cases same : key entry = key first
    · have up := smallest first List.mem_cons_self same.symm
      rcases List.mem_cons.mp member with rfl | member
      · exact .inl rfl
      · exact .inl (gathers.antisymm _ _ up (least entry member))
    · refine .inr ⟨same, ?_, fun found listed equal => smallest found (List.mem_cons_of_mem _ listed) equal⟩
      rcases List.mem_cons.mp member with rfl | member
      · exact absurd rfl same
      · exact member
  · intro kept
    rcases kept with rfl | ⟨other, member, smallest⟩
    · refine ⟨List.mem_cons_self, fun found listed _ => ?_⟩
      rcases List.mem_cons.mp listed with rfl | listed
      · exact gathers.refl _
      · exact least found listed
    · refine ⟨List.mem_cons_of_mem _ member, fun found listed equal => ?_⟩
      rcases List.mem_cons.mp listed with rfl | listed
      · exact absurd equal.symm other
      · exact smallest found listed equal

theorem mem_dedupAfter (gathers : Gathers key le) {last entry : Entry} {entries : List Entry}
    (sorted : (last :: entries).Pairwise le) :
    entry ∈ dedupAfter key last entries ↔ key entry ≠ key last ∧ Least key le entries entry := by
  induction entries generalizing last with
  | nil =>
    constructor
    · intro member
      cases member
    · intro kept
      cases kept.2.1
  | cons first rest ih =>
    obtain ⟨above, later⟩ := List.pairwise_cons.mp sorted
    obtain ⟨least, ordered⟩ := List.pairwise_cons.mp later
    have low := above first List.mem_cons_self
    unfold dedupAfter
    rw [least_cons gathers later]
    split
    next same =>
      have skip : (last :: rest).Pairwise le :=
        List.pairwise_cons.mpr ⟨fun other member => above other (List.mem_cons_of_mem _ member), ordered⟩
      rw [ih skip, same]
      constructor
      · exact fun kept => ⟨kept.1, .inr kept⟩
      · intro kept
        rcases kept.2 with equal | kept
        · exact absurd (equal ▸ same) kept.1
        · exact kept
    next different =>
      rw [List.mem_cons, ih later]
      constructor
      · intro kept
        refine ⟨?_, kept⟩
        rcases kept with rfl | ⟨other, member, _⟩
        · exact different
        · exact fun equal => different (gathers.between last first entry low (least entry member) equal.symm)
      · exact fun kept => kept.2

/-- What is kept of a sorted list. -/
theorem mem_dedup (gathers : Gathers key le) {entry : Entry} {entries : List Entry} (sorted : entries.Pairwise le) :
    entry ∈ dedup key entries ↔ Least key le entries entry := by
  cases entries with
  | nil =>
    constructor
    · intro member
      cases member
    · intro kept
      cases kept.1
  | cons first rest =>
    change entry ∈ first :: dedupAfter key first rest ↔ _
    rw [List.mem_cons, mem_dedupAfter gathers sorted, least_cons gathers sorted]

variable [DecidableRel le]

/-- Sorting first and then keeping the first entry of each key keeps the least entry of each key. -/
theorem mem_dedup_sort (gathers : Gathers key le) (total : ∀ first second, le first second ∨ le second first)
    (transitive : ∀ first second third, le first second → le second third → le first third)
    {entry : Entry} (entries : List Entry) :
    entry ∈ dedup key (entries.insertionSort le) ↔ Least key le entries entry := by
  have := Std.Total.mk total
  have := IsTrans.mk transitive
  rw [mem_dedup gathers (List.pairwise_insertionSort le entries)]
  unfold Least
  simp only [List.mem_insertionSort]

end Pbox.Lib.Dedup
