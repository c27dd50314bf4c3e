import Mathlib.Data.List.Basic

/-! Operating system commands in a stream for a terminal: strings that run from an escape and a bracket to the first
bell, or to the first escape and backslash, behind it. -/

namespace Pbox.Lib.Osc

abbrev Bytes := List UInt8

def BEL : UInt8 := 7
def ESC : UInt8 := 27
def BRACKET : UInt8 := 93
def BACKSLASH : UInt8 := 92

/-- Whether a byte ends a string, where the byte before it may have been an escape. -/
def closes (escaped : Bool) (byte : UInt8) : Bool := byte == BEL || escaped && byte == BACKSLASH

/-- The string up to and with its end. -/
def content (escaped : Bool) : Bytes → Bytes
  | [] => []
  | byte :: rest => if closes escaped byte then [byte] else byte :: content (byte == ESC) rest

/-- What follows the string. -/
def behind (escaped : Bool) : Bytes → Bytes
  | [] => []
  | byte :: rest => if closes escaped byte then rest else behind (byte == ESC) rest

theorem content_behind (escaped : Bool) (input : Bytes) : content escaped input ++ behind escaped input = input := by
  induction input generalizing escaped with
  | nil => rfl
  | cons byte rest ih =>
    unfold content behind
    split
    · rfl
    · exact congrArg (byte :: ·) (ih _)

theorem behind_length (escaped : Bool) (input : Bytes) : (behind escaped input).length ≤ input.length := by
  have whole := congrArg List.length (content_behind escaped input)
  rw [List.length_append] at whole
  omega

/-- Whether a text has just come to an end of a string. -/
def Closed (text : Bytes) : Prop := [BEL] <:+ text ∨ [ESC, BACKSLASH] <:+ text

theorem suffix_last {front before : Bytes} {last byte : UInt8} :
    front ++ [last] <:+ before ++ [byte] ↔ last = byte ∧ front <:+ before := by
  rw [List.suffix_concat_iff]
  constructor
  · intro ends
    rcases ends with none | ⟨other, same, ends⟩
    · exact absurd (List.append_eq_nil_iff.mp none).2 (List.cons_ne_nil _ _)
    · have both := List.append_inj' same rfl
      exact ⟨(List.cons.inj both.2).1, both.1 ▸ ends⟩
  · exact fun ends => .inr ⟨front, by rw [ends.1], ends.2⟩

theorem escape_iff (before : Bytes) (byte : UInt8) : (byte == ESC) = true ↔ [ESC] <:+ before ++ [byte] := by
  rw [beq_iff_eq]
  have last := @suffix_last [] before ESC byte
  exact ⟨fun same => last.mpr ⟨same.symm, List.nil_suffix⟩, fun ends => (last.mp ends).1.symm⟩

theorem closes_iff {before : Bytes} {escaped : Bool} (last : escaped = true ↔ [ESC] <:+ before) (byte : UInt8) :
    closes escaped byte = true ↔ Closed (before ++ [byte]) := by
  have bell := @suffix_last [] before BEL byte
  have backslash := @suffix_last [ESC] before BACKSLASH byte
  unfold closes Closed
  rw [Bool.or_eq_true, Bool.and_eq_true, beq_iff_eq, beq_iff_eq, last]
  constructor
  · intro closed
    rcases closed with same | ⟨escape, same⟩
    · exact .inl (bell.mpr ⟨same.symm, List.nil_suffix⟩)
    · exact .inr (backslash.mpr ⟨same.symm, escape⟩)
  · intro closed
    rcases closed with ends | ends
    · exact .inl (bell.mp ends).1.symm
    · exact .inr ⟨(backslash.mp ends).2, (backslash.mp ends).1.symm⟩

/-- A string does not end before its end. -/
theorem content_first {before : Bytes} {escaped : Bool} (last : escaped = true ↔ [ESC] <:+ before)
    (still : ¬Closed before) {input front back : Bytes} (cut : content escaped input = front ++ back)
    (more : back ≠ []) :
    ¬Closed (before ++ front) := by
  induction input generalizing before escaped front with
  | nil => exact absurd (List.append_eq_nil_iff.mp cut.symm).2 more
  | cons byte rest ih =>
    cases front with
    | nil => rwa [List.append_nil]
    | cons first front =>
      unfold content at cut
      split at cut
      next closed =>
        obtain ⟨_, rest⟩ := List.cons.inj cut
        exact absurd (List.append_eq_nil_iff.mp rest.symm).2 more
      next goes_on =>
        obtain ⟨same, rest⟩ := List.cons.inj cut
        subst same
        rw [List.append_cons]
        exact ih (escape_iff before byte) (fun closed => goes_on ((closes_iff last byte).mpr closed)) rest

/-- A string has an end, unless the stream ends within it. -/
theorem content_closed {before : Bytes} {escaped : Bool} (last : escaped = true ↔ [ESC] <:+ before) (input : Bytes) :
    Closed (before ++ content escaped input) ∨ behind escaped input = [] := by
  induction input generalizing before escaped with
  | nil => exact .inr rfl
  | cons byte rest ih =>
    unfold content behind
    split
    next closed => exact .inl ((closes_iff last byte).mp closed)
    next goes_on =>
      rw [List.append_cons]
      exact ih (escape_iff before byte)

/-- A piece of a stream: a byte outside of the strings, or a string with what is in it. -/
inductive Piece where
  | other (byte : UInt8)
  | osc (content : Bytes)
  deriving DecidableEq

def opens (byte : UInt8) (rest : Bytes) : Bool := byte == ESC && rest.head? == some BRACKET

def pieces : Bytes → List Piece
  | [] => []
  | byte :: rest =>
    if opens byte rest then .osc (content false rest.tail) :: pieces (behind false rest.tail)
    else .other byte :: pieces rest
termination_by input => input.length
decreasing_by
  · have shorter := behind_length false rest.tail
    rw [List.length_tail] at shorter
    rw [List.length_cons]
    omega
  · exact Nat.lt_succ_self _

def Piece.bytes : Piece → Bytes
  | .other byte => [byte]
  | .osc content => ESC :: BRACKET :: content

theorem pieces_other {byte : UInt8} {rest : Bytes} (other : opens byte rest = false) :
    pieces (byte :: rest) = .other byte :: pieces rest := by
  rw [pieces, other]
  rfl

theorem pieces_osc (rest : Bytes) :
    pieces (ESC :: BRACKET :: rest) = .osc (content false rest) :: pieces (behind false rest) := by
  rw [pieces]
  rfl

/-- What a string holds runs to the first end behind its opening, or to the end of the stream. -/
structure Bounded (content rest : Bytes) : Prop where
  first : ∀ front back, content = front ++ back → back ≠ [] → ¬Closed front
  closed : Closed content ∨ rest = []

theorem content_bounded (input : Bytes) : Bounded (content false input) (behind false input) where
  first front back cut more := by
    have none : (false = true) ↔ [ESC] <:+ ([] : Bytes) := by decide
    have nothing : ¬Closed [] := fun closed => closed.elim (fun ends => by cases List.suffix_nil.mp ends)
      (fun ends => by cases List.suffix_nil.mp ends)
    exact content_first none nothing cut more
  closed := @content_closed [] false (by decide) input

/-- How a stream is made of pieces. -/
inductive Stream : Bytes → List Piece → Prop
  | nil : Stream [] []
  | other {byte : UInt8} {rest : Bytes} {later : List Piece} : ¬[ESC, BRACKET] <+: byte :: rest → Stream rest later →
      Stream (byte :: rest) (.other byte :: later)
  | osc {content rest : Bytes} {later : List Piece} : Bounded content rest → Stream rest later →
      Stream (ESC :: BRACKET :: (content ++ rest)) (.osc content :: later)

theorem opens_iff (byte : UInt8) (rest : Bytes) : opens byte rest = true ↔ [ESC, BRACKET] <+: byte :: rest := by
  unfold opens
  cases rest with
  | nil =>
    constructor
    · intro opened
      cases (Bool.and_eq_true_iff.mp opened).2
    · intro front
      cases (List.cons_prefix_cons.mp front).2.length_le
  | cons next more =>
    rw [Bool.and_eq_true, beq_iff_eq, List.cons_prefix_cons, List.cons_prefix_cons]
    constructor
    · exact fun opened => ⟨opened.1.symm, (Option.some.inj (eq_of_beq opened.2)).symm, List.nil_prefix⟩
    · exact fun opened => ⟨opened.1.symm, by rw [opened.2.1]; exact beq_self_eq_true _⟩

theorem pieces_stream (input : Bytes) : Stream input (pieces input) := by
  fun_induction pieces input with
  | case1 => exact .nil
  | case2 byte rest opened ih =>
    obtain ⟨more, same⟩ := (opens_iff byte rest).mp opened
    cases same
    have whole := Stream.osc (content_bounded more) ih
    rwa [content_behind] at whole
  | case3 byte rest other ih => exact .other (fun front => other ((opens_iff byte rest).mpr front)) ih

theorem Stream.bytes {input : Bytes} {all : List Piece} (stream : Stream input all) :
    all.flatMap Piece.bytes = input := by
  induction stream with
  | nil => rfl
  | other _ _ ih => exact congrArg (_ :: ·) ih
  | @osc content rest later _ _ ih =>
    rw [List.flatMap_cons, ih]
    rfl

end Pbox.Lib.Osc
