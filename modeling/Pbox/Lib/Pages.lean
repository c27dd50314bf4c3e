import Mathlib.Data.List.Basic

/-! A log that grows, and a reader that takes one page of it at a time, from where the last page ended. -/

namespace Pbox.Lib.Pages

variable {Line : Type}

/-- Lines with their numbers, which count from one. -/
def numbered (start : Nat) : List Line → List (Nat × Line)
  | [] => []
  | line :: rest => (start + 1, line) :: numbered (start + 1) rest

/-- The lines behind the first ones, no more than the limit. -/
def page (lines : List Line) (start limit : Nat) : List (Nat × Line) := numbered start ((lines.drop start).take limit)

theorem numbered_lines (start : Nat) (lines : List Line) : (numbered start lines).map Prod.snd = lines := by
  induction lines generalizing start with
  | nil => rfl
  | cons line rest ih => exact congrArg (line :: ·) (ih (start + 1))

/-- The greatest number of a page is where it ends. -/
theorem numbered_last (start : Nat) (lines : List Line) :
    (numbered start lines).foldl (fun cursor entry => max cursor entry.1) start = start + lines.length := by
  induction lines generalizing start with
  | nil => rfl
  | cons line rest ih =>
    change (numbered (start + 1) rest).foldl _ (max start (start + 1)) = _
    rw [Nat.max_eq_right (Nat.le_succ start), ih, List.length_cons]
    omega

/-- Where a reader is when it has read the log at these lengths, the last of them first. -/
def reach (limit : Nat) : List Nat → Nat
  | [] => 0
  | length :: earlier => min length (reach limit earlier + limit)

/-- A reader has come as far as it can when no read before was too far behind. -/
theorem le_reach_iff (limit : Nat) (lengths : List Nat) (count : Nat) :
    count ≤ reach limit lengths ↔ ∀ back, count ≤ lengths[back]?.getD 0 + limit * back := by
  induction lengths generalizing count with
  | nil =>
    constructor
    · intro none back
      exact Nat.le_trans none (Nat.zero_le _)
    · intro all
      exact all 0
  | cons length earlier ih =>
    have step : count ≤ reach limit (length :: earlier) ↔
        count ≤ length ∧ count - limit ≤ reach limit earlier := by
      change count ≤ min length (reach limit earlier + limit) ↔ _
      omega
    rw [step, ih]
    constructor
    · intro both back
      obtain ⟨first, later⟩ := both
      cases back with
      | zero => exact first
      | succ back =>
        have bound := later back
        change count ≤ earlier[back]?.getD 0 + limit * (back + 1)
        rw [Nat.mul_succ]
        omega
    · intro all
      refine ⟨all 0, fun back => ?_⟩
      have bound : count ≤ earlier[back]?.getD 0 + limit * (back + 1) := all (back + 1)
      rw [Nat.mul_succ] at bound
      omega

/-- What has been read, where the log has grown since, and the page that follows. -/
theorem take_page {earlier lines : List Line} {cursor limit : Nat} (grown : earlier <+: lines)
    (inside : cursor ≤ earlier.length) :
    earlier.take cursor ++ (lines.drop cursor).take limit = lines.take (min lines.length (cursor + limit)) := by
  obtain ⟨more, same⟩ := grown
  have front : earlier.take cursor = lines.take cursor := by
    rw [← same, List.take_append_of_le_length inside]
  rw [front, ← List.take_add, ← List.take_take]
  exact (List.take_of_length_le (List.length_take_le' _ _)).symm

end Pbox.Lib.Pages
