import Pbox.Lib.Strings
import Mathlib.Data.List.DropRight

/-! Text as lines. A text is its segments between line feeds; the lines that a reader of lines
sees are these without the carriage returns before a line feed and without an empty last one. -/

namespace Pbox.Lib.Lines
open Pbox.Lib.Strings

/-- The pieces between line feeds. -/
@[grind =] def segments : Text → List Text
  | [] => [[]]
  | c :: rest =>
    if c = '\n' then [] :: segments rest
    else
      match segments rest with
      | [] => [[c]]
      | first :: more => (c :: first) :: more

@[grind =] def join : List Text → Text
  | [] => []
  | [line] => line
  | line :: next :: rest => line ++ '\n' :: join (next :: rest)

def stripReturn (line : Text) : Text := if line.getLast? = some '\r' then line.dropLast else line

@[grind =] def readLines : List Text → List Text
  | [] => []
  | [last] => if last = [] then [] else [last]
  | line :: next :: rest => stripReturn line :: readLines (next :: rest)

/-- The lines of a text, as `str::lines` gives them. -/
def lines (value : Text) : List Text := readLines (segments value)

/-- A line without its carriage returns at the end. -/
def bare (line : Text) : Text := line.rdropWhile (· = '\r')

theorem segments_append_feed {line : Text} (free : '\n' ∉ line) (rest : Text) :
    segments (line ++ '\n' :: rest) = line :: segments rest := by
  induction line with
  | nil => simp [segments]
  | cons c more ih =>
    rw [List.mem_cons, not_or] at free
    simp [segments, ih free.2, Ne.symm free.1]

theorem segments_of_free {line : Text} (free : '\n' ∉ line) : segments line = [line] := by
  induction line with
  | nil => rfl
  | cons c more ih =>
    rw [List.mem_cons, not_or] at free
    simp [segments, ih free.2, Ne.symm free.1]

theorem segments_join {pieces : List Text} (nonempty : pieces ≠ []) (free : ∀ piece ∈ pieces, '\n' ∉ piece) :
    segments (join pieces) = pieces := by
  induction pieces with
  | nil => exact absurd rfl nonempty
  | cons line rest ih =>
    have first := free line List.mem_cons_self
    cases rest with
    | nil => exact segments_of_free first
    | cons next rest =>
      rw [join, segments_append_feed first, ih (List.cons_ne_nil _ _)
        fun piece member => free piece (List.mem_cons_of_mem _ member)]

/-- Joining splits where a piece does. -/
theorem join_middle (above : List Text) (left right : Text) (below : List Text) :
    join (above ++ (left ++ right) :: below) = join (above ++ [left]) ++ join (right :: below) := by
  induction above with
  | nil => cases below <;> simp [join]
  | cons line rest ih =>
    cases rest with
    | nil =>
      simp only [List.nil_append, List.cons_append] at ih ⊢
      rw [join, join, ih]
      simp
    | cons next rest =>
      simp only [List.cons_append] at ih ⊢
      rw [join, join, ih]
      simp

/-- A pattern that does not hold the character between two texts occurs in one of them. -/
theorem infix_feed {separator : Char} {pattern front back : Text} (free : separator ∉ pattern)
    (occurs : pattern <:+: front ++ separator :: back) : pattern <:+: front ∨ pattern <:+: back := by
  -- what begins at the separator is empty
  have short : ∀ piece : Text, separator ∉ piece → piece <+: separator :: back → piece = [] := by
    intro piece absent starts
    cases piece with
    | nil => rfl
    | cons c more =>
      have same : c = separator := (List.cons_prefix_cons.mp starts).1
      exact absurd (same ▸ List.mem_cons_self) absent
  rcases List.infix_append_iff.mp occurs with left | right | ⟨first, second, split, ends, starts⟩
  · exact Or.inl left
  · rcases List.infix_cons_iff.mp right with starts | inside
    · rw [short pattern free starts]
      exact Or.inl List.nil_infix
    · exact Or.inr inside
  · have absent : separator ∉ second := fun member => free (split ▸ List.mem_append_right _ member)
    rw [short second absent starts, List.append_nil] at split
    rw [split]
    exact Or.inl ends.isInfix

/-- A pattern without line feeds that occurs in joined pieces occurs in one of them. -/
theorem infix_join {pattern : Text} (nonempty : pattern ≠ []) (free : '\n' ∉ pattern) {pieces : List Text}
    (occurs : pattern <:+: join pieces) : ∃ piece ∈ pieces, pattern <:+: piece := by
  induction pieces with
  | nil => exact absurd (List.infix_nil.mp occurs) nonempty
  | cons line rest ih =>
    cases rest with
    | nil => exact ⟨line, List.mem_cons_self, occurs⟩
    | cons next rest =>
      rcases infix_feed free occurs with here | later
      · exact ⟨line, List.mem_cons_self, here⟩
      · obtain ⟨piece, member, inside⟩ := ih later
        exact ⟨piece, List.mem_cons_of_mem _ member, inside⟩

/-! What a reader of lines sees, up to carriage returns at the end of lines. -/

theorem stripReturn_starts (line : Text) : stripReturn line <+: line := by
  unfold stripReturn
  split
  · exact List.dropLast_prefix line
  · exact List.prefix_refl line

theorem stripReturn_append (front : Text) {back : Text} (nonempty : back ≠ []) :
    stripReturn (front ++ back) = front ++ stripReturn back := by
  have same : (front ++ back).getLast? = back.getLast? := by
    rw [List.getLast?_append_of_ne_nil _ nonempty]
  unfold stripReturn
  rw [same]
  split
  · exact List.dropLast_append_of_ne_nil nonempty
  · rfl

theorem bare_stripReturn (line : Text) : bare (stripReturn line) = bare line := by
  unfold stripReturn
  split
  next returned =>
    obtain ⟨front, rfl⟩ := List.getLast?_eq_some_iff.mp returned
    simp [bare]
  next => rfl

/-- Lines read are the segments up to carriage returns, without an empty last one. -/
theorem bare_readLines (pieces : List Text) :
    ∃ blank, (blank = [] ∨ blank = [[]]) ∧ pieces.map bare = (readLines pieces).map bare ++ blank := by
  induction pieces with
  | nil => exact ⟨[], Or.inl rfl, rfl⟩
  | cons line rest ih =>
    cases rest with
    | nil =>
      by_cases empty : line = []
      · exact ⟨[[]], Or.inr rfl, by simp [readLines, empty, bare]⟩
      · exact ⟨[], Or.inl rfl, by simp [readLines, empty]⟩
    | cons next rest =>
      obtain ⟨blank, which, same⟩ := ih
      refine ⟨blank, which, ?_⟩
      rw [List.map_cons, same, readLines, List.map_cons, bare_stripReturn, List.cons_append]

theorem readLines_mem {pieces : List Text} {line : Text} (member : line ∈ readLines pieces) :
    ∃ piece ∈ pieces, line <+: piece := by
  induction pieces with
  | nil => cases member
  | cons first rest ih =>
    cases rest with
    | nil =>
      unfold readLines at member
      split at member
      · cases member
      · rw [List.mem_singleton.mp member]
        exact ⟨first, List.mem_cons_self, List.prefix_refl _⟩
    | cons next rest =>
      rw [readLines] at member
      rcases List.mem_cons.mp member with rfl | later
      · exact ⟨first, List.mem_cons_self, stripReturn_starts first⟩
      · obtain ⟨piece, inside, starts⟩ := ih later
        exact ⟨piece, List.mem_cons_of_mem _ inside, starts⟩

theorem readLines_append {above : List Text} {below : List Text} (nonempty : below ≠ []) :
    readLines (above ++ below) = above.map stripReturn ++ readLines below := by
  induction above with
  | nil => rfl
  | cons line rest ih =>
    obtain ⟨next, more, shape⟩ := List.exists_cons_of_ne_nil
      (show rest ++ below ≠ [] by simp [nonempty])
    rw [List.cons_append, shape, readLines, ← shape, ih, List.map_cons, List.cons_append]

end Pbox.Lib.Lines
