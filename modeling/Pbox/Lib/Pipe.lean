import Mathlib.Data.List.Basic

/-! One direction of a connected socket: a bounded buffer between a writer, who may write only
part of what it has and may end its side, and a reader. -/

namespace Pbox.Lib.Pipe
set_option linter.dupNamespace false

structure Pipe (α : Type*) where
  capacity : Nat
  buffered : List α
  ended : Bool
  fits : buffered.length ≤ capacity
  deriving DecidableEq

namespace Pipe

variable {α : Type*}

def empty (capacity : Nat) : Pipe α := ⟨capacity, [], false, Nat.zero_le _⟩

def room (p : Pipe α) : Nat := p.capacity - p.buffered.length

def write (p : Pipe α) (chunk : List α) : Option (Pipe α) :=
  if fits : chunk.length ≤ p.room ∧ p.ended = false then
    some ⟨p.capacity, p.buffered ++ chunk, p.ended, by
      have bound := p.fits
      have small := fits.1
      unfold room at small
      rw [List.length_append]
      omega⟩
  else none

def read (p : Pipe α) (count : Nat) : List α × Pipe α :=
  (p.buffered.take count, ⟨p.capacity, p.buffered.drop count, p.ended, by
    have bound := p.fits
    rw [List.length_drop]
    omega⟩)

def finish (p : Pipe α) : Pipe α := { p with ended := true }

variable {p q : Pipe α} {chunk : List α}

@[simp] theorem read_chunk (count : Nat) : (p.read count).1 = p.buffered.take count := rfl
@[simp] theorem read_buffered (count : Nat) : (p.read count).2.buffered = p.buffered.drop count := rfl
theorem write_isSome : (p.write chunk).isSome ↔ chunk.length ≤ p.room ∧ p.ended = false := by
  unfold write
  split <;> simp [*]

theorem write_some (wrote : p.write chunk = some q) :
    chunk.length ≤ p.room ∧ p.ended = false ∧ q.buffered = p.buffered ++ chunk ∧ q.ended = p.ended ∧
      q.room + chunk.length = p.room := by
  unfold write at wrote
  split at wrote
  next fits =>
    cases wrote
    refine ⟨fits.1, fits.2, rfl, rfl, ?_⟩
    have small := fits.1
    simp only [room, List.length_append] at small ⊢
    omega
  next => cases wrote

/-- Reading only makes room. -/
theorem read_room (count : Nat) : p.room ≤ (p.read count).2.room := by
  simp only [room, read, List.length_drop]
  omega

end Pipe

end Pbox.Lib.Pipe
