import Mathlib.Data.List.Basic

/-! A bounded queue with one receiver, as asynchronous runtimes provide it. A sender either
takes a slot at once, or reserves one first and fills it later; a dropped receiver refuses
both. The bound is part of the value. -/

namespace Pbox.Lib.Channel

set_option linter.dupNamespace false

/-- Reserved slots are counted before they hold a message. -/
structure Channel (α : Type*) where
  capacity : Nat
  queue : List α
  reserved : Nat
  closed : Bool
  fits : queue.length + reserved ≤ capacity
deriving DecidableEq

namespace Channel

variable {α : Type*}

def empty (capacity : Nat) : Channel α := ⟨capacity, [], 0, false, Nat.zero_le _⟩

def Room (c : Channel α) : Prop := c.closed = false ∧ c.queue.length + c.reserved < c.capacity

instance (c : Channel α) : Decidable c.Room := inferInstanceAs (Decidable (_ ∧ _))

def trySend (c : Channel α) (x : α) : Option (Channel α) :=
  if room : c.Room then
    some ⟨c.capacity, c.queue ++ [x], c.reserved, c.closed, by
      have free := room.2
      simp only [List.length_append, List.length_singleton]
      omega⟩
  else none

def reserve (c : Channel α) : Option (Channel α) :=
  if room : c.Room then
    some ⟨c.capacity, c.queue, c.reserved + 1, c.closed, by
      have free := room.2
      omega⟩
  else none

/-- A send whose failure the sender ignores. -/
def offer (c : Channel α) (x : α) : Channel α := (c.trySend x).getD c

/-- A permit outlives the receiver: filling it after a close loses the message. -/
def fill (c : Channel α) (x : α) : Option (Channel α) :=
  if held : 0 < c.reserved then
    some ⟨c.capacity, if c.closed then c.queue else c.queue ++ [x], c.reserved - 1, c.closed, by
      have fits := c.fits
      split
      · omega
      · simp only [List.length_append, List.length_singleton]
        omega⟩
  else none

/-- A permit dropped unused gives its slot back. -/
def release (c : Channel α) : Option (Channel α) :=
  if 0 < c.reserved then
    some ⟨c.capacity, c.queue, c.reserved - 1, c.closed, by
      have fits := c.fits
      omega⟩
  else none

def receive (c : Channel α) : Option (α × Channel α) :=
  match h : c.queue with
  | [] => none
  | x :: rest => some (x, ⟨c.capacity, rest, c.reserved, c.closed, by
      have fits := c.fits
      rw [h, List.length_cons] at fits
      omega⟩)

/-- Dropping the receiver drops what it had not taken. -/
def close (c : Channel α) : Channel α :=
  ⟨c.capacity, [], c.reserved, true, by
    have fits := c.fits
    simp only [List.length_nil]
    omega⟩

variable {c d : Channel α} {x : α}

@[simp] theorem empty_queue (capacity : Nat) : (empty capacity : Channel α).queue = [] := rfl
@[simp] theorem empty_reserved (capacity : Nat) : (empty capacity : Channel α).reserved = 0 := rfl
@[simp] theorem empty_closed (capacity : Nat) : (empty capacity : Channel α).closed = false := rfl
@[simp] theorem empty_capacity (capacity : Nat) :
    (empty capacity : Channel α).capacity = capacity := rfl

@[simp] theorem close_queue : c.close.queue = [] := rfl
@[simp] theorem close_closed : c.close.closed = true := rfl
@[simp] theorem close_reserved : c.close.reserved = c.reserved := rfl
@[simp] theorem close_capacity : c.close.capacity = c.capacity := rfl

theorem trySend_isSome : (c.trySend x).isSome ↔ c.Room := by
  unfold trySend
  split <;> simp [*]

/-- All that a send changes. -/
theorem trySend_some (sent : c.trySend x = some d) :
    c.Room ∧ d.queue = c.queue ++ [x] ∧ d.reserved = c.reserved ∧ d.closed = c.closed ∧
      d.capacity = c.capacity := by
  unfold trySend at sent
  split at sent
  next room =>
    cases sent
    exact ⟨room, rfl, rfl, rfl, rfl⟩
  next => cases sent

theorem offer_queue : (c.offer x).queue = if c.Room then c.queue ++ [x] else c.queue := by
  unfold offer trySend
  split <;> rfl

@[simp] theorem offer_closed : (c.offer x).closed = c.closed := by
  unfold offer trySend
  split <;> rfl

theorem room_empty {capacity : Nat} (some : 0 < capacity) : (empty capacity : Channel α).Room :=
  ⟨rfl, some⟩

theorem reserve_some (taken : c.reserve = some d) :
    c.Room ∧ d.queue = c.queue ∧ d.reserved = c.reserved + 1 ∧ d.closed = c.closed ∧
      d.capacity = c.capacity := by
  unfold reserve at taken
  split at taken
  next room =>
    cases taken
    exact ⟨room, rfl, rfl, rfl, rfl⟩
  next => cases taken

theorem fill_some (filled : c.fill x = some d) :
    0 < c.reserved ∧ d.queue = (if c.closed then c.queue else c.queue ++ [x]) ∧
      d.reserved + 1 = c.reserved ∧ d.closed = c.closed ∧ d.capacity = c.capacity := by
  unfold fill at filled
  split at filled
  next held =>
    cases filled
    exact ⟨held, rfl, Nat.sub_add_cancel held, rfl, rfl⟩
  next => cases filled

theorem release_getD_queue : (c.release.getD c).queue = c.queue := by
  unfold release
  split <;> rfl

theorem release_some (dropped : c.release = some d) :
    d.queue = c.queue ∧ d.reserved + 1 = c.reserved ∧ d.closed = c.closed ∧
      d.capacity = c.capacity := by
  unfold release at dropped
  split at dropped
  next held =>
    cases dropped
    exact ⟨rfl, Nat.sub_add_cancel held, rfl, rfl⟩
  next => cases dropped

theorem receive_some (taken : c.receive = some (x, d)) :
    c.queue = x :: d.queue ∧ d.reserved = c.reserved ∧ d.closed = c.closed ∧
      d.capacity = c.capacity := by
  unfold receive at taken
  split at taken
  next => cases taken
  next y rest same =>
    cases taken
    exact ⟨same, rfl, rfl, rfl⟩

theorem receive_eq_none : c.receive = none ↔ c.queue = [] := by
  unfold receive
  split <;> simp_all

theorem receive_isSome : c.receive.isSome ↔ c.queue ≠ [] := by
  rw [Option.isSome_iff_ne_none, ne_eq, receive_eq_none]

end Channel

end Pbox.Lib.Channel
