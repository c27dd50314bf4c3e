import Pbox.Lib.Strings

/-! A text cut at a pattern: at its occurrences from the left, none within the one before, as `str::split` does;
at the first one; and where the last one is. -/

namespace Pbox.Lib.Split
open Pbox.Lib.Strings

variable {α : Type*} [DecidableEq α]

/-- The pieces of what is left, behind the given number of characters that belong to an occurrence. -/
def splitFrom (pattern : List α) : Nat → List α → List (List α)
  | _, [] => [[]]
  | inside + 1, _ :: rest => splitFrom pattern inside rest
  | 0, x :: rest =>
    if pattern.isPrefixOf (x :: rest) then [] :: splitFrom pattern (pattern.length - 1) rest
    else (splitFrom pattern 0 rest).modifyHead (x :: ·)

/-- The pieces between the occurrences of a pattern, which is not empty. -/
def split (pattern text : List α) : List (List α) := splitFrom pattern 0 text

def splitOnce (pattern text : List α) : Option (List α × List α) :=
  (find pattern text).map fun i => (text.take i, text.drop (i + pattern.length))

/-- The position of the last occurrence of a pattern. -/
def rfind (pattern : List α) : List α → Option Nat
  | [] => if pattern = [] then some 0 else none
  | x :: rest =>
    match rfind pattern rest with
    | some i => some (i + 1)
    | none => if pattern.isPrefixOf (x :: rest) then some 0 else none

variable {pattern text front back : List α} {inside : Nat}

theorem splitFrom_ne_nil : splitFrom pattern inside text ≠ [] := by
  fun_induction splitFrom pattern inside text with
  | case1 => exact List.cons_ne_nil _ _
  | case2 inside x rest ih => exact ih
  | case3 x rest here ih => exact List.cons_ne_nil _ _
  | case4 x rest here ih =>
    intro none
    exact ih (List.modifyHead_eq_nil_iff.mp none)

theorem intercalate_splitFrom (nonempty : pattern ≠ []) :
    pattern.intercalate (splitFrom pattern inside text) = text.drop inside := by
  fun_induction splitFrom pattern inside text with
  | case1 inside => rw [List.drop_nil]; rfl
  | case2 inside x rest ih => exact ih
  | case3 x rest here ih =>
    obtain ⟨behind, whole⟩ := List.isPrefixOf_iff_prefix.mp here
    rw [List.intercalate_cons_of_ne_nil splitFrom_ne_nil, ih, List.drop_zero, List.nil_append]
    cases pattern with
    | nil => exact absurd rfl nonempty
    | cons y pattern =>
      obtain ⟨same, rest'⟩ := List.cons.inj whole
      rw [List.length_cons, Nat.add_sub_cancel, ← rest', List.append_eq, List.drop_left, List.cons_append, same]
  | case4 x rest here ih =>
    rw [List.drop_zero] at ih ⊢
    cases shape : splitFrom pattern 0 rest with
    | nil => exact absurd shape splitFrom_ne_nil
    | cons first more =>
      rw [shape] at ih
      rw [List.modifyHead_cons]
      cases more with
      | nil =>
        rw [List.intercalate_singleton] at ih ⊢
        rw [ih]
      | cons next more =>
        rw [List.intercalate_cons_cons] at ih ⊢
        rw [List.cons_append, List.cons_append, ih]

omit [DecidableEq α] in
theorem subset_intercalate {pieces : List (List α)} {piece : List α} (listed : piece ∈ pieces) :
    piece ⊆ pattern.intercalate pieces := by
  induction pieces with
  | nil => exact absurd listed List.not_mem_nil
  | cons first rest ih =>
    cases rest with
    | nil =>
      rw [List.intercalate_singleton, ← List.mem_singleton.mp listed]
      exact List.Subset.refl _
    | cons next rest =>
      rw [List.intercalate_cons_cons, List.append_assoc]
      rcases List.mem_cons.mp listed with same | later
      · rw [same]
        exact List.subset_append_left _ _
      · exact fun x member => List.mem_append_right _ (List.mem_append_right _ (ih later member))

/-- The pieces and the pattern between them are the text. -/
theorem intercalate_split (nonempty : pattern ≠ []) : pattern.intercalate (split pattern text) = text :=
  intercalate_splitFrom nonempty

theorem splitOnce_some (found : splitOnce pattern text = some (front, back)) : text = front ++ (pattern ++ back) := by
  unfold splitOnce at found
  cases at_ : find pattern text with
  | none =>
    rw [at_] at found
    cases found
  | some i =>
    rw [at_] at found
    cases found
    obtain ⟨behind, whole⟩ := (find_eq_some.mp at_).1
    rw [← List.drop_drop, ← whole, List.drop_left, whole, List.take_append_drop]

end Pbox.Lib.Split
