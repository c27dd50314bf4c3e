import Mathlib.Data.List.Basic
import Pbox.Lib.Ascii
import Pbox.Lib.Filter
import Pbox.Lib.Numerals

/-! A terminal's reading of control sequences in their seven-bit form: an escape restarts a sequence, CAN
and SUB abort it, and other control characters are executed inside of it. -/

namespace Pbox.Lib.Ecma48
open Pbox.Lib.Ascii Pbox.Lib.Numerals Pbox.Lib.Filter

abbrev Bytes := List UInt8

def ESC : UInt8 := 0x1b
def CAN : UInt8 := 0x18
def SUB : UInt8 := 0x1a
def BEL : UInt8 := 0x07

/-- A control sequence that is executed: what stands before its final byte, and that byte. -/
structure Csi where
  body : Bytes
  final : UInt8
  deriving DecidableEq, Repr

inductive Mode where
  | ground
  | escape
  | intermediate
  | csi (body : Bytes)
  /-- Ended by its terminator, and by a bell where it is an operating system command. -/
  | string (bell : Bool)
  deriving DecidableEq, Repr

def opensString (byte : UInt8) : Bool :=
  byte == 0x5d || byte == 0x50 || byte == 0x58 || byte == 0x5e || byte == 0x5f

def readByte (mode : Mode) (byte : UInt8) : Mode × List Csi :=
  if byte = ESC then (.escape, [])
  else if byte = CAN ∨ byte = SUB then (.ground, [])
  else
    match mode with
    | .ground => (.ground, [])
    | .escape =>
      if byte = 0x5b then (.csi [], [])
      else if opensString byte then (.string (byte == 0x5d), [])
      else if 0x20 ≤ byte ∧ byte ≤ 0x2f then (.intermediate, [])
      else if 0x30 ≤ byte ∧ byte ≤ 0x7e then (.ground, [])
      else (.escape, [])
    | .intermediate => if 0x30 ≤ byte ∧ byte ≤ 0x7e then (.ground, []) else (.intermediate, [])
    | .csi body =>
      if 0x40 ≤ byte ∧ byte ≤ 0x7e then (.ground, [⟨body, byte⟩])
      else if 0x20 ≤ byte ∧ byte ≤ 0x3f then (.csi (body ++ [byte]), [])
      else (.csi body, [])
    | .string bell => if bell ∧ byte = BEL then (.ground, []) else (.string bell, [])

def isParameter (byte : UInt8) : Bool := 0x30 ≤ byte && byte ≤ 0x39 || byte == 0x3b

/-- The sequence sets the margins of the scrolling region. -/
def Csi.IsMargins (sequence : Csi) : Prop := sequence.final = 0x72 ∧ sequence.body.all isParameter = true

instance (sequence : Csi) : Decidable sequence.IsMargins := inferInstanceAs (Decidable (_ ∧ _))

/-- A parameter; one that is left out is zero. -/
def Csi.parameter (sequence : Csi) (index : Nat) : Nat :=
  match (sequence.body.splitOn 0x3b)[index]? with
  | none => 0
  | some field => (digits (field.map charOf)).getD 0

/-- Nothing but margins whose bottom is given and within so many rows. -/
def Csi.Within (rows : Nat) (sequence : Csi) : Prop :=
  sequence.IsMargins → 0 < sequence.parameter 1 ∧ sequence.parameter 1 ≤ rows

instance (rows : Nat) (sequence : Csi) : Decidable (sequence.Within rows) := inferInstanceAs (Decidable (_ → _))

/-- The sequences that are executed while a stream is read. -/
def executed (stream : Bytes) : List Csi := (feed readByte .ground stream).2

/-- What of the inside of a sequence belongs to it, when nothing inside of it ends it. -/
theorem feed_csi {inside : Bytes} (body : Bytes)
    (plain : ∀ byte ∈ inside, byte ≠ ESC ∧ byte ≠ CAN ∧ byte ≠ SUB ∧ ¬(0x40 ≤ byte ∧ byte ≤ 0x7e)) :
    feed readByte (.csi body) inside = (.csi (body ++ inside.filter fun byte => 0x20 ≤ byte && byte ≤ 0x3f), []) := by
  induction inside generalizing body with
  | nil => simp [feed]
  | cons byte rest ih =>
    obtain ⟨notEsc, notCan, notSub, notFinal⟩ := plain byte List.mem_cons_self
    have later (body : Bytes) := ih body fun other member => plain other (List.mem_cons_of_mem _ member)
    by_cases own : 0x20 ≤ byte ∧ byte ≤ 0x3f
    · have step : readByte (.csi body) byte = (.csi (body ++ [byte]), []) := by
        simp only [readByte, notEsc, notCan, notSub, notFinal, own, or_self, if_false, if_true, and_self]
      rw [feed, step, later]
      simp [own]
    · have step : readByte (.csi body) byte = (.csi body, []) := by
        simp only [readByte, notEsc, notCan, notSub, notFinal, own, or_self, if_false]
      rw [feed, step, later]
      simp only [List.nil_append]
      rw [List.filter_cons_of_neg]
      simpa using own

theorem feed_sequence {inside : Bytes} {final : UInt8}
    (plain : ∀ byte ∈ inside, byte ≠ ESC ∧ byte ≠ CAN ∧ byte ≠ SUB ∧ ¬(0x40 ≤ byte ∧ byte ≤ 0x7e))
    (ends : 0x40 ≤ final ∧ final ≤ 0x7e) :
    feed readByte .ground (ESC :: 0x5b :: (inside ++ [final])) =
      (.ground, [⟨inside.filter fun byte => 0x20 ≤ byte && byte ≤ 0x3f, final⟩]) := by
  have opens : feed readByte .ground [ESC, 0x5b] = (.csi [], []) := rfl
  have closes (body : Bytes) : readByte (.csi body) final = (.ground, [⟨body, final⟩]) := by
    have notEsc : final ≠ ESC := by rintro rfl; exact absurd ends (by decide)
    have notCan : final ≠ CAN := by rintro rfl; exact absurd ends (by decide)
    have notSub : final ≠ SUB := by rintro rfl; exact absurd ends (by decide)
    simp only [readByte, notEsc, notCan, notSub, ends, or_self, if_false, if_true, and_self]
  change feed readByte .ground ([ESC, 0x5b] ++ (inside ++ [final])) = _
  rw [feed_append, opens, feed_append, feed_csi [] plain]
  simp [feed, closes]

end Pbox.Lib.Ecma48
