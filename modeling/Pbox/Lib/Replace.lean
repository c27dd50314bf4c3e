import Pbox.Lib.Strings

/-! Replacing every occurrence of a pattern, from the left and none within the one before, as `str::replace`
does for a pattern that is not empty. -/

namespace Pbox.Lib.Replace

section
variable {α : Type*} [DecidableEq α]

/-- What is left to do behind the given number of characters, which belong to an occurrence. -/
def replaceFrom (pattern new : List α) : Nat → List α → List α
  | _, [] => []
  | inside + 1, _ :: rest => replaceFrom pattern new inside rest
  | 0, x :: rest =>
    if pattern.isPrefixOf (x :: rest) then new ++ replaceFrom pattern new (pattern.length - 1) rest
    else x :: replaceFrom pattern new 0 rest

def replace (pattern new text : List α) : List α := replaceFrom pattern new 0 text

variable {pattern new text before after : List α} {inside : Nat}

theorem replaceFrom_length (shorter : new.length ≤ pattern.length) (fits : inside ≤ text.length) :
    (replaceFrom pattern new inside text).length + inside ≤ text.length := by
  fun_induction replaceFrom pattern new inside text with
  | case1 inside =>
    rw [List.length_nil] at fits ⊢
    omega
  | case2 inside x rest ih =>
    rw [List.length_cons] at fits ⊢
    have later := ih (by omega)
    omega
  | case3 x rest here ih =>
    have longer := (List.isPrefixOf_iff_prefix.mp here).length_le
    rw [List.length_cons] at longer ⊢
    rw [List.length_append]
    have later := ih (by omega)
    omega
  | case4 x rest here ih =>
    rw [List.length_cons, List.length_cons]
    have later := ih (by omega)
    omega

theorem replace_absent (absent : ¬pattern <:+: text) : replace pattern new text = text := by
  induction text with
  | nil => rfl
  | cons x rest ih =>
    have here : ¬pattern.isPrefixOf (x :: rest) = true := fun occurs =>
      absent (List.isPrefixOf_iff_prefix.mp occurs).isInfix
    have later : ¬pattern <:+: rest := fun occurs => absent (List.infix_cons occurs)
    rw [replace, replaceFrom, if_neg here]
    exact congrArg (x :: ·) (ih later)

/-- Each occurrence makes the text shorter by what the new text is shorter. -/
theorem replace_length_lt (shorter : new.length < pattern.length) (occurs : pattern <:+: text) :
    (replace pattern new text).length < text.length := by
  induction text with
  | nil =>
    rw [List.infix_nil.mp occurs] at shorter
    cases shorter
  | cons x rest ih =>
    rw [replace, replaceFrom]
    split
    next here =>
      have longer := (List.isPrefixOf_iff_prefix.mp here).length_le
      rw [List.length_cons] at longer ⊢
      rw [List.length_append]
      have later := @replaceFrom_length _ _ pattern new rest (pattern.length - 1) (by omega) (by omega)
      omega
    next here =>
      rcases List.infix_cons_iff.mp occurs with first | later
      · exact absurd (List.isPrefixOf_iff_prefix.mpr first) here
      · rw [List.length_cons, List.length_cons]
        exact Nat.succ_lt_succ (ih later)

/-- With a shorter text in its place, a pattern is not found if and only if nothing is replaced. -/
theorem replace_eq_self (shorter : new.length < pattern.length) :
    replace pattern new text = text ↔ ¬pattern <:+: text := by
  constructor
  · intro same occurs
    have less := replace_length_lt shorter occurs
    rw [same] at less
    exact Nat.lt_irrefl _ less
  · exact replace_absent

variable {head : α} {tail : List α}

omit [DecidableEq α] in
/-- A pattern whose first character is unique does not begin in a text and end within the pattern behind it. -/
theorem prefix_before (unique : head ∉ tail) :
    head :: tail <+: before ++ (head :: tail ++ after) ∧ before ≠ [] ↔ head :: tail <+: before := by
  constructor
  · intro given
    obtain ⟨occurs, nonempty⟩ := given
    have fresh : ¬before.length < (head :: tail).length := by
      intro short
      obtain ⟨rest, same⟩ := occurs
      have positive := List.length_pos_iff.mpr nonempty
      have there : (head :: tail ++ rest)[before.length]? = (before ++ (head :: tail ++ after))[before.length]? := by
        rw [same]
      rw [List.getElem?_append_left short, List.getElem?_append_right (Nat.le_refl _), Nat.sub_self] at there
      obtain ⟨place, shape⟩ := Nat.exists_eq_succ_of_ne_zero (Nat.pos_iff_ne_zero.mp positive)
      rw [shape, List.getElem?_cons_succ] at there
      exact unique (List.mem_of_getElem? there)
    exact List.prefix_of_prefix_length_le occurs (List.prefix_append _ _) (by omega)
  · intro occurs
    refine ⟨occurs.trans (List.prefix_append _ _), ?_⟩
    intro same
    subst same
    exact absurd (List.prefix_nil.mp occurs) (List.cons_ne_nil head tail)

theorem replaceFrom_behind {front back : List α} : replaceFrom pattern new front.length (front ++ back) =
    replace pattern new back := by
  induction front with
  | nil => rfl
  | cons x rest ih => exact ih

theorem replaceFrom_around (unique : head ∉ tail) (fits : inside ≤ before.length) :
    replaceFrom (head :: tail) new inside (before ++ (head :: tail ++ after)) =
      replaceFrom (head :: tail) new inside before ++ (new ++ replace (head :: tail) new after) := by
  induction before generalizing inside with
  | nil =>
    obtain rfl : inside = 0 := Nat.le_zero.mp fits
    have here : (head :: tail).isPrefixOf (head :: tail ++ after) = true :=
      List.isPrefixOf_iff_prefix.mpr (List.prefix_append _ _)
    have found : replaceFrom (head :: tail) new 0 (head :: tail ++ after) =
        new ++ replaceFrom (head :: tail) new tail.length (tail ++ after) := if_pos here
    rw [replaceFrom_behind] at found
    exact found
  | cons x rest ih =>
    cases inside with
    | succ inside => exact ih (Nat.le_of_succ_le_succ fits)
    | zero =>
      have same : head :: tail <+: x :: rest ++ (head :: tail ++ after) ↔ head :: tail <+: x :: rest :=
        ⟨fun occurs => (prefix_before unique).mp ⟨occurs, List.cons_ne_nil x rest⟩, fun occurs =>
          ((prefix_before unique).mpr occurs).1⟩
      rw [← List.isPrefixOf_iff_prefix, ← List.isPrefixOf_iff_prefix] at same
      rw [List.cons_append, replaceFrom, replaceFrom, ← List.cons_append]
      by_cases here : (head :: tail).isPrefixOf (x :: rest) = true
      · have longer := (List.isPrefixOf_iff_prefix.mp here).length_le
        rw [if_pos here, if_pos (same.mpr here), List.append_assoc, ih]
        exact Nat.le_of_succ_le_succ longer
      · rw [if_neg here, if_neg (same.not.mpr here), ih (Nat.zero_le _)]
        rfl

/-- A pattern whose first character is unique is replaced where it stands, and the texts around it by themselves. -/
theorem replace_around (unique : head ∉ tail) : replace (head :: tail) new (before ++ (head :: tail ++ after)) =
    replace (head :: tail) new before ++ (new ++ replace (head :: tail) new after) :=
  replaceFrom_around unique (Nat.zero_le _)

/-- So an occurrence is the only thing replaced if and only if there is none before it and none behind it. -/
theorem replace_only (unique : head ∉ tail) (shorter : new.length < (head :: tail).length) :
    replace (head :: tail) new (before ++ (head :: tail ++ after)) = before ++ (new ++ after) ↔
      ¬head :: tail <:+: before ∧ ¬head :: tail <:+: after := by
  rw [replace_around unique, ← replace_eq_self shorter, ← replace_eq_self shorter]
  constructor
  · intro same
    have front := @replaceFrom_length _ _ (head :: tail) new before 0 (by omega) (Nat.zero_le _)
    have back := @replaceFrom_length _ _ (head :: tail) new after 0 (by omega) (Nat.zero_le _)
    have lengths := congrArg List.length same
    rw [List.length_append, List.length_append, List.length_append, List.length_append] at lengths
    unfold replace at same lengths ⊢
    obtain ⟨before, rest⟩ := List.append_inj same (by omega)
    exact ⟨before, (List.append_inj rest rfl).2⟩
  · intro given
    obtain ⟨front, back⟩ := given
    rw [front, back]

/-- For a pattern of one character, every such character is replaced. -/
theorem replace_single (c : α) (new text : List α) :
    replace [c] new text = text.flatMap fun x => if x = c then new else [x] := by
  unfold replace
  induction text with
  | nil => rfl
  | cons x rest ih =>
    have step : replaceFrom [c] new 0 (x :: rest) =
        if [c].isPrefixOf (x :: rest) then new ++ replaceFrom [c] new 0 rest else x :: replaceFrom [c] new 0 rest := by
      rw [replaceFrom]
      rfl
    rw [List.flatMap_cons, ← ih, step]
    by_cases same : x = c
    · rw [if_pos same, if_pos (by simp [same])]
    · rw [if_neg same, if_neg (by simpa using fun back => same back.symm)]
      rfl

end

end Pbox.Lib.Replace
