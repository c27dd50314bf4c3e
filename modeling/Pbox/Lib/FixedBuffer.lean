import Mathlib.Data.List.Basic

/-! Buffers of a fixed size. A write puts items over what is there; a buffer that is filled from the front has some
items that count, and behind them whatever an earlier use has left. -/

namespace Pbox.Lib.FixedBuffer

structure Buffer (α : Type) (size : Nat) where
  items : List α
  full : items.length = size

variable {α : Type} {size : Nat}

def Buffer.fill (size : Nat) (item : α) : Buffer α size := ⟨List.replicate size item, List.length_replicate⟩

def Buffer.front (buffer : Buffer α size) (count : Nat) : List α := buffer.items.take count

def Buffer.write (buffer : Buffer α size) (offset : Nat) (items : List α)
    (fits : offset + items.length ≤ size) : Buffer α size where
  items := buffer.items.take offset ++ (items ++ buffer.items.drop (offset + items.length))
  full := by
    have full := buffer.full
    simp only [List.length_append, List.length_take, List.length_drop]
    omega

theorem Buffer.length_front (buffer : Buffer α size) {count : Nat} (fits : count ≤ size) :
    (buffer.front count).length = count := by
  have full := buffer.full
  unfold front
  rw [List.length_take]
  omega

/-- What counts after a write is what counted before it, and the items behind that. -/
theorem Buffer.front_write (buffer : Buffer α size) {offset : Nat} {items : List α}
    (fits : offset + items.length ≤ size) :
    (buffer.write offset items fits).front (offset + items.length) = buffer.front offset ++ items := by
  have short : (buffer.front offset).length = offset := buffer.length_front (by omega)
  unfold front at short
  unfold front write
  have behind : offset + items.length = (buffer.items.take offset ++ items).length := by
    rw [List.length_append, short]
  dsimp only
  rw [← List.append_assoc]
  nth_rewrite 1 [behind]
  exact List.take_left

/-- The items of a range, where the buffer has it. -/
def Buffer.slice (buffer : Buffer α size) (start count : Nat) : Option (List α) :=
  if start + count ≤ size then some ((buffer.items.drop start).take count) else none

/-- A write that may be out of bounds. -/
def Buffer.overwrite (buffer : Buffer α size) (start : Nat) (items : List α) : Option (Buffer α size) :=
  if fits : start + items.length ≤ size then some (buffer.write start items fits) else none

theorem Buffer.slice_of_fits (buffer : Buffer α size) {start count : Nat} (fits : start + count ≤ size) :
    buffer.slice start count = some ((buffer.items.drop start).take count) := if_pos fits

theorem Buffer.overwrite_of_fits (buffer : Buffer α size) {start : Nat} {items : List α}
    (fits : start + items.length ≤ size) : buffer.overwrite start items = some (buffer.write start items fits) :=
  dif_pos fits

/-- An item after a write: the new one inside the range, and the old one outside. -/
theorem Buffer.getElem?_write (buffer : Buffer α size) {offset : Nat} {items : List α}
    (fits : offset + items.length ≤ size) (i : Nat) :
    (buffer.write offset items fits).items[i]? =
      if offset ≤ i ∧ i < offset + items.length then items[i - offset]? else buffer.items[i]? := by
  have full := buffer.full
  have short : (buffer.items.take offset).length = offset := by
    rw [List.length_take]
    omega
  unfold write
  dsimp only
  by_cases before : i < offset
  · rw [List.getElem?_append_left (by omega), List.getElem?_take_of_lt before, if_neg (by omega)]
  · rw [List.getElem?_append_right (by omega), short]
    by_cases inside : i < offset + items.length
    · rw [List.getElem?_append_left (by omega), if_pos (by omega)]
    · rw [List.getElem?_append_right (by omega), List.getElem?_drop, if_neg (by omega)]
      congr 1
      omega

/-- A write puts as many items of a kind in as it has, and takes out the ones that were there. -/
theorem Buffer.count_write [DecidableEq α] (buffer : Buffer α size) {offset : Nat} {items : List α}
    (fits : offset + items.length ≤ size) (item : α) :
    (buffer.write offset items fits).items.count item + ((buffer.items.drop offset).take items.length).count item =
      buffer.items.count item + items.count item := by
  have parts : buffer.items = buffer.items.take offset ++
      ((buffer.items.drop offset).take items.length ++ buffer.items.drop (offset + items.length)) := by
    rw [← List.drop_drop, List.take_append_drop, List.take_append_drop]
  unfold write
  nth_rewrite 4 [parts]
  simp only [List.count_append]
  omega

end Pbox.Lib.FixedBuffer
