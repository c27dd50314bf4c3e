import Mathlib.Data.List.Infix

/-! The longest end of a list whose items do not weigh more than a limit together, found by a running total from the
last item on. -/

namespace Pbox.Lib.Suffix

variable {α : Type} (weight : α → Nat) (limit : Nat)

def total : List α → Nat
  | [] => 0
  | item :: rest => weight item + total rest

/-- How many items are taken before the running total passes the limit. -/
def within : List α → Nat → Nat
  | [], _ => 0
  | item :: rest, sum => if sum + weight item ≤ limit then within rest (sum + weight item) + 1 else 0

/-- The items at the end that the running total admits. -/
def lastWithin (items : List α) : List α := items.drop (items.length - within weight limit items.reverse 0)

structure LongestSuffix (items result : List α) : Prop where
  suffix : result <:+ items
  light : total weight result ≤ limit
  longest : ∀ other, other <:+ items → total weight other ≤ limit → other <:+ result

variable {weight limit}

theorem total_cons (item : α) (rest : List α) : total weight (item :: rest) = weight item + total weight rest := rfl

theorem total_append (front back : List α) : total weight (front ++ back) = total weight front + total weight back := by
  induction front with
  | nil => exact (Nat.zero_add _).symm
  | cons item rest ih => rw [List.cons_append, total_cons, total_cons, ih, Nat.add_assoc]

theorem total_reverse (items : List α) : total weight items.reverse = total weight items := by
  induction items with
  | nil => rfl
  | cons item rest ih =>
    rw [List.reverse_cons, total_append, ih, total_cons, total_cons]
    exact Nat.add_comm _ _

theorem within_le (items : List α) (sum : Nat) : within weight limit items sum ≤ items.length := by
  induction items generalizing sum with
  | nil => exact Nat.le_refl 0
  | cons item rest ih =>
    rw [within, List.length_cons]
    split
    · exact Nat.succ_le_succ (ih _)
    · exact Nat.zero_le _

theorem within_light (items : List α) {sum : Nat} (start : sum ≤ limit) :
    sum + total weight (items.take (within weight limit items sum)) ≤ limit := by
  induction items generalizing sum with
  | nil => exact start
  | cons item rest ih =>
    rw [within]
    split
    next room =>
      have later := ih room
      rw [List.take_succ_cons, total_cons]
      omega
    next => exact start

theorem within_most (items : List α) {sum count : Nat} (some_ : count ≤ items.length)
    (light : sum + total weight (items.take count) ≤ limit) : count ≤ within weight limit items sum := by
  induction items generalizing sum count with
  | nil => exact some_
  | cons item rest ih =>
    cases count with
    | zero => exact Nat.zero_le _
    | succ count =>
      rw [List.take_succ_cons, total_cons] at light
      rw [within, if_pos (by omega)]
      apply Nat.succ_le_succ
      apply ih
      · exact Nat.le_of_succ_le_succ some_
      · omega

/-- The end of a list, read backwards, is the front of the list read backwards. -/
theorem reverse_suffix {items other : List α} (suffix : other <:+ items) :
    other.reverse = items.reverse.take other.length := by
  obtain ⟨front, rfl⟩ := suffix
  rw [List.reverse_append, ← List.length_reverse, List.take_left]

theorem lastWithin_length (items : List α) :
    (lastWithin weight limit items).length = within weight limit items.reverse 0 := by
  have bound := @within_le α weight limit items.reverse 0
  rw [List.length_reverse] at bound
  unfold lastWithin
  rw [List.length_drop]
  omega

theorem lastWithin_longest (items : List α) : LongestSuffix weight limit items (lastWithin weight limit items) := by
  have suffix : lastWithin weight limit items <:+ items := List.drop_suffix _ _
  constructor
  · exact suffix
  · rw [← total_reverse, reverse_suffix suffix, lastWithin_length]
    have light := @within_light α weight limit items.reverse 0 (Nat.zero_le limit)
    omega
  · intro other ends light
    rw [← total_reverse, reverse_suffix ends] at light
    have short : other.length ≤ items.reverse.length := by
      rw [List.length_reverse]
      exact ends.length_le
    have most : other.length ≤ within weight limit items.reverse 0 := within_most items.reverse short (by omega)
    rw [← lastWithin_length] at most
    exact List.suffix_of_suffix_length_le ends suffix most

end Pbox.Lib.Suffix
