import Pbox.Lib.Ecma48
import Pbox.Lib.Utf8

/-! `ViewportFilter`: what a remote program sends, with the margins it sets kept within the rows above
the status line. The filter has a parser of its own; the terminal behind it has another. -/

namespace Pbox.Cli.Viewport
open Pbox.Lib.Strings Pbox.Lib.Numerals Pbox.Lib.Filter Pbox.Lib.Ecma48 Pbox.Lib.Utf8 Pbox.Lib.Ascii

inductive FilterState where
  | ground
  | escape
  | csi
  | string
  | stringEscape
  | intermediate
  deriving DecidableEq, Repr

structure ViewportFilter where
  state : FilterState := .ground
  pending : Bytes := []
  osc : Bool := false
  originMode : Bool := false
  savedOrigin : Bool := false
  top : Nat := 0
  utf8Remaining : Nat := 0
  deriving DecidableEq

def ViewportFilter.canPaint (filter : ViewportFilter) : Bool :=
  filter.state == .ground && filter.utf8Remaining == 0

/-- The bytes of a character that are still to come. -/
def utf8After (remaining : Nat) (byte : UInt8) : Nat :=
  if 0xc2 ≤ byte ∧ byte ≤ 0xdf then 1
  else if 0xe0 ≤ byte ∧ byte ≤ 0xef then 2
  else if 0xf0 ≤ byte ∧ byte ≤ 0xf4 then 3
  else if 0x80 ≤ byte ∧ byte ≤ 0xbf then remaining - 1
  else 0

def isIntermediate (byte : UInt8) : Bool := 0x20 ≤ byte && byte ≤ 0x2f

def isFinal (byte : UInt8) : Bool := 0x40 ≤ byte && byte ≤ 0x7e

/-- A value of a margin, as `u16`; none where it is missing or zero. -/
def margin (field : Option Text) : Option Nat :=
  (field.bind (parseUnsigned 65535)).filter fun value => 0 < value

/-- The margins that a body asks for, moved into the rows; none where nothing is left of them. -/
def clamped (rows : Nat) (body : Bytes) : Option (Nat × Nat) :=
  let values := (fromUtf8Lossy body).splitOn ';'
  let top := (margin values[0]?).getD 1
  let bottom := min ((margin values[1]?).getD rows) rows
  if top < bottom then some (top, bottom) else none

def marginsText (top bottom : Nat) : Text := '\x1b' :: '[' :: showNat top ++ ';' :: showNat bottom ++ ['r']

/-- The body is that of a private mode, and one of its modes is among these. -/
def anyMode (modes : List Bytes) : Bytes → Bool
  | 0x3f :: body => (body.splitOn 0x3b).any fun mode => modes.contains mode
  | _ => false

/-- One pass of the loop of `push`: the bytes that go out, and whether the margins are reset behind them. -/
def pushByte (rows : Nat) (filter : ViewportFilter) (byte : UInt8) : ViewportFilter × Bytes × Bool :=
  match filter.state with
  | .ground =>
    if byte = ESC then ({ filter with pending := filter.pending ++ [byte], state := .escape }, [], false)
    else ({ filter with utf8Remaining := utf8After filter.utf8Remaining byte }, [byte], false)
  | .escape =>
    if byte = 0x5b then ({ filter with pending := filter.pending ++ [byte], state := .csi }, [], false)
    else
      let savedOrigin := if byte = 0x37 then filter.originMode else if byte = 0x63 then false else filter.savedOrigin
      let originMode := if byte = 0x38 then filter.savedOrigin else if byte = 0x63 then false else filter.originMode
      let bytes := filter.pending ++ [byte]
      let filter := { filter with pending := [], originMode, savedOrigin }
      if opensString byte then ({ filter with osc := byte == 0x5d, state := .string }, bytes, false)
      else if isIntermediate byte then ({ filter with state := .intermediate }, bytes, false)
      else ({ filter with state := .ground }, bytes, byte == 0x63)
  | .csi =>
    if isFinal byte then
      let body := filter.pending.drop 2
      let setting := byte == 0x68 || byte == 0x6c
      let originMode := if setting && anyMode [[0x36]] body then byte == 0x68 else filter.originMode
      let switches := setting && anyMode [[0x34, 0x37], [0x31, 0x30, 0x34, 0x37], [0x31, 0x30, 0x34, 0x39]] body
      let filter' := { filter with pending := [], originMode, state := .ground }
      if byte = 0x72 ∧ body.all isParameter = true then
        match clamped rows body with
        | some (top, bottom) => ({ filter' with top }, utf8 (marginsText top bottom), switches)
        | none => (filter', [], switches)
      else (filter', filter.pending ++ [byte], switches)
    else if 256 ≤ filter.pending.length + 1 then
      ({ filter with pending := [], state := .ground }, filter.pending ++ [byte], false)
    else ({ filter with pending := filter.pending ++ [byte] }, [], false)
  | .string =>
    let state :=
      if byte = ESC then .stringEscape
      else if filter.osc ∧ byte = BEL ∨ byte = CAN ∨ byte = SUB then .ground
      else .string
    ({ filter with state }, [byte], false)
  | .stringEscape =>
    let state :=
      if byte = 0x5c ∨ filter.osc ∧ byte = BEL then .ground
      else if byte = ESC then .stringEscape
      else .string
    ({ filter with state }, [byte], false)
  | .intermediate =>
    ({ filter with state := if isIntermediate byte then .intermediate else .ground }, [byte], false)

/-- The rest of the loop: the pieces that go out, each with whether the margins are reset behind it. -/
def pushFrom (rows : Nat) : Bytes → ViewportFilter → Bytes → ViewportFilter × List (Bytes × Bool)
  | [], filter, output => (filter, if output = [] then [] else [(output, false)])
  | byte :: rest, filter, output =>
    let (filter, bytes, reset) := pushByte rows filter byte
    if reset then
      let (filter, pieces) := pushFrom rows rest filter []
      (filter, (output ++ bytes, true) :: pieces)
    else pushFrom rows rest filter (output ++ bytes)

def push (rows : Nat) (filter : ViewportFilter) (bytes : Bytes) : ViewportFilter × List (Bytes × Bool) :=
  pushFrom rows bytes filter []

/-- The bytes of the pieces of all calls. -/
def pushAll (rows : Nat) (filter : ViewportFilter) : List Bytes → ViewportFilter × Bytes
  | [] => (filter, [])
  | chunk :: rest =>
    let (filter, pieces) := push rows filter chunk
    let (filter, bytes) := pushAll rows filter rest
    (filter, pieces.flatMap Prod.fst ++ bytes)

/-- The loop without its cuts into pieces. -/
def passByte (rows : Nat) (filter : ViewportFilter) (byte : UInt8) : ViewportFilter × Bytes :=
  ((pushByte rows filter byte).1, (pushByte rows filter byte).2.1)

section Splitting
variable {rows : Nat}

theorem pushFrom_bytes (input : Bytes) (filter : ViewportFilter) (output : Bytes) :
    (pushFrom rows input filter output).1 = (feed (passByte rows) filter input).1 ∧
      (pushFrom rows input filter output).2.flatMap Prod.fst = output ++ (feed (passByte rows) filter input).2 := by
  induction input generalizing filter output with
  | nil =>
    refine ⟨rfl, ?_⟩
    unfold pushFrom
    split
    next empty => rw [empty]; rfl
    next => rfl
  | cons byte rest ih =>
    unfold pushFrom
    dsimp only
    split
    · obtain ⟨state, bytes⟩ := ih (pushByte rows filter byte).1 []
      refine ⟨state, ?_⟩
      rw [List.flatMap_cons, bytes]
      exact List.append_assoc _ _ _
    · obtain ⟨state, bytes⟩ := ih (pushByte rows filter byte).1 (output ++ (pushByte rows filter byte).2.1)
      refine ⟨state, bytes.trans ?_⟩
      exact List.append_assoc _ _ _

/-- How the stream is cut into calls makes no difference. -/
theorem pushAll_eq (filter : ViewportFilter) (chunks : List Bytes) :
    pushAll rows filter chunks = feed (passByte rows) filter chunks.flatten := by
  induction chunks generalizing filter with
  | nil => rfl
  | cons chunk rest ih =>
    obtain ⟨state, bytes⟩ := @pushFrom_bytes rows chunk filter []
    unfold pushAll push
    dsimp only
    rw [state, ih, bytes, List.flatten_cons, feed_append]
    rfl

end Splitting

/-! What the filter changes: margins, and nothing else. -/

section Rewriting
variable {rows : Nat} {filter : ViewportFilter} {byte : UInt8}

/-- A margin sequence. -/
def marginsOf (body : Bytes) : Bytes := ESC :: 0x5b :: (body ++ [0x72])

/-- What the sequence is replaced by. -/
def replacement (rows : Nat) (body : Bytes) : Bytes :=
  match clamped rows body with
  | some (top, bottom) => utf8 (marginsText top bottom)
  | none => []

/-- A stream and what is left of it when margin sequences in it are replaced. -/
inductive Rewrites (rows : Nat) : Bytes → Bytes → Prop where
  | nil : Rewrites rows [] []
  | keep (byte : UInt8) {input output : Bytes} (later : Rewrites rows input output) :
      Rewrites rows (byte :: input) (byte :: output)
  | margins (body : Bytes) (parameters : body.all isParameter = true) {input output : Bytes}
      (later : Rewrites rows input output) :
      Rewrites rows (marginsOf body ++ input) (replacement rows body ++ output)

theorem Rewrites.kept (input : Bytes) : Rewrites rows input input := by
  induction input with
  | nil => exact .nil
  | cons byte rest ih => exact .keep byte ih

theorem Rewrites.append {input output input' output' : Bytes} (first : Rewrites rows input output)
    (second : Rewrites rows input' output') : Rewrites rows (input ++ input') (output ++ output') := by
  induction first with
  | nil => exact second
  | keep byte later ih => exact .keep byte ih
  | margins body parameters later ih =>
    rw [List.append_assoc, List.append_assoc]
    exact .margins body parameters ih

/-- Margins that go out lie within the rows. -/
theorem clamped_within {body : Bytes} {top bottom : Nat} (some_ : clamped rows body = some (top, bottom)) :
    0 < top ∧ top < bottom ∧ bottom ≤ rows := by
  unfold clamped at some_
  dsimp only at some_
  split at some_
  next ordered =>
    cases some_
    refine ⟨?_, ordered, Nat.min_le_right _ _⟩
    unfold margin
    cases found : (Option.filter (fun value => decide (0 < value))
      (((fromUtf8Lossy body).splitOn ';')[0]?.bind (parseUnsigned 65535))) with
    | none => exact Nat.one_pos
    | some value =>
      have positive := (Option.filter_eq_some_iff.mp found).2
      exact of_decide_eq_true positive
  next => cases some_

/-- What the filter holds back in each of its states. -/
def ViewportFilter.Shaped (filter : ViewportFilter) : Prop :=
  match filter.state with
  | .escape => filter.pending = [ESC]
  | .csi => ∃ body, filter.pending = ESC :: 0x5b :: body
  | _ => filter.pending = []

theorem shaped_empty (empty : filter.pending = []) (notEscape : filter.state ≠ .escape)
    (notCsi : filter.state ≠ .csi) : filter.Shaped := by
  unfold ViewportFilter.Shaped
  split
  next state => exact absurd state notEscape
  next state => exact absurd state notCsi
  next => exact empty

/-- A byte lets out what was held back, or is held back with it, or ends a margin sequence. -/
theorem passByte_rewrites (shaped : filter.Shaped) :
    (passByte rows filter byte).1.Shaped ∧
      ∃ passed, filter.pending ++ [byte] = passed ++ (passByte rows filter byte).1.pending ∧
        Rewrites rows passed (passByte rows filter byte).2 := by
  have kept (bytes : Bytes) (same : filter.pending ++ [byte] = bytes) :
      ∃ passed, filter.pending ++ [byte] = passed ++ [] ∧ Rewrites rows passed bytes :=
    ⟨bytes, by rw [same, List.append_nil], .kept bytes⟩
  have held : ∃ passed, filter.pending ++ [byte] = passed ++ (filter.pending ++ [byte]) ∧ Rewrites rows passed [] :=
    ⟨[], rfl, .nil⟩
  unfold ViewportFilter.Shaped at shaped
  unfold passByte pushByte
  split at shaped
  next state =>
    rw [state]
    dsimp only
    split
    next bracket =>
      refine ⟨?_, held⟩
      unfold ViewportFilter.Shaped
      exact ⟨[], by rw [shaped, bracket]; rfl⟩
    next =>
      split
      · exact ⟨rfl, kept _ rfl⟩
      · split
        · exact ⟨rfl, kept _ rfl⟩
        · exact ⟨rfl, kept _ rfl⟩
  next state =>
    obtain ⟨body, shape⟩ := shaped
    rw [state]
    dsimp only
    split
    next final =>
      split
      next margins =>
        have inside : filter.pending.drop 2 = body := by rw [shape]; rfl
        have whole : filter.pending ++ [byte] = marginsOf body := by rw [shape, margins.1]; rfl
        have parameters := margins.2
        rw [inside] at parameters ⊢
        have replaced : ∃ passed, filter.pending ++ [byte] = passed ++ [] ∧
            Rewrites rows passed (replacement rows body) :=
          ⟨marginsOf body, by rw [whole, List.append_nil], by
            have alone : Rewrites rows (marginsOf body ++ []) (replacement rows body ++ []) :=
              .margins body parameters .nil
            rwa [List.append_nil, List.append_nil] at alone⟩
        unfold replacement at replaced
        split
        next top bottom within =>
          rw [within] at replaced
          exact ⟨rfl, replaced⟩
        next none =>
          rw [none] at replaced
          exact ⟨rfl, replaced⟩
      next => exact ⟨rfl, kept _ rfl⟩
    next =>
      split
      · exact ⟨rfl, kept _ rfl⟩
      · refine ⟨?_, held⟩
        unfold ViewportFilter.Shaped
        exact ⟨body ++ [byte], by rw [shape]; rfl⟩
  next notEscape notCsi =>
    have alone : filter.pending ++ [byte] = [byte] ++ filter.pending := by rw [shaped]; rfl
    cases state : filter.state with
    | escape => exact absurd state notEscape
    | csi => exact absurd state notCsi
    | ground =>
      dsimp only
      split
      next escape =>
        refine ⟨?_, held⟩
        unfold ViewportFilter.Shaped
        dsimp only
        rw [shaped, escape]
        rfl
      next => exact ⟨shaped_empty shaped (by simp) (by simp), [byte], alone, .kept _⟩
    | string =>
      refine ⟨shaped_empty shaped ?_ ?_, [byte], alone, .kept _⟩
      · dsimp only
        split <;> [skip; split] <;> simp
      · dsimp only
        split <;> [skip; split] <;> simp
    | stringEscape =>
      refine ⟨shaped_empty shaped ?_ ?_, [byte], alone, .kept _⟩
      · dsimp only
        split <;> [skip; split] <;> simp
      · dsimp only
        split <;> [skip; split] <;> simp
    | intermediate =>
      refine ⟨shaped_empty shaped ?_ ?_, [byte], alone, .kept _⟩
      · dsimp only
        split <;> simp
      · dsimp only
        split <;> simp

theorem feed_rewrites (shaped : filter.Shaped) (input : Bytes) :
    ∃ passed, filter.pending ++ input = passed ++ (feed (passByte rows) filter input).1.pending ∧
      Rewrites rows passed (feed (passByte rows) filter input).2 := by
  induction input generalizing filter with
  | nil => exact ⟨[], by rw [List.append_nil]; rfl, .nil⟩
  | cons byte rest ih =>
    obtain ⟨next, first, consumed, rewritten⟩ := @passByte_rewrites rows filter byte shaped
    obtain ⟨later, remaining, others⟩ := ih next
    refine ⟨first ++ later, ?_, rewritten.append others⟩
    calc filter.pending ++ byte :: rest
        = (filter.pending ++ [byte]) ++ rest := by rw [List.append_assoc]; rfl
      _ = first ++ ((passByte rows filter byte).1.pending ++ rest) := by rw [consumed, List.append_assoc]
      _ = first ++ later ++ _ := by rw [remaining, List.append_assoc]; rfl

end Rewriting

/-! The filter and the terminal behind it. -/

section Terminal
variable {rows : Nat} {filter : ViewportFilter} {mode : Mode} {byte : UInt8}

/-- Printing characters of ASCII, and what aborts a sequence. -/
def Regular (byte : UInt8) : Prop := 0x20 ≤ byte ∧ byte ≤ 0x7e ∨ byte = CAN ∨ byte = SUB

/-- Nothing that the terminal does not keep inside a sequence. -/
def Inside (byte : UInt8) : Prop := byte ≠ ESC ∧ byte ≠ CAN ∧ byte ≠ SUB

/-- A byte of a body with which the sequence is none that sets margins. -/
def isOther (byte : UInt8) : Bool := 0x20 ≤ byte && byte ≤ 0x3f && !isParameter byte

/-- The filter takes the byte as the terminal does, when it comes in this state of the filter. -/
def ViewportFilter.Agrees (filter : ViewportFilter) (byte : UInt8) : Prop :=
  match filter.state with
  | .ground | .string => True
  | .escape | .intermediate => Regular byte
  | .csi =>
    Inside byte ∧ (isFinal byte = false → filter.pending.length + 1 < 256) ∧
      (byte = 0x72 → (filter.pending.drop 2).all isParameter = true ∨ (filter.pending.drop 2).any isOther = true)
  | .stringEscape => byte = 0x5c ∨ byte = ESC

/-- Where the terminal is when it has read what came out of the filter. -/
def Sync (filter : ViewportFilter) (mode : Mode) : Prop :=
  match filter.state with
  | .ground => mode = .ground ∧ filter.pending = []
  | .escape => mode = .ground ∧ filter.pending = [ESC]
  | .csi => mode = .ground ∧ ∃ body, filter.pending = ESC :: 0x5b :: body ∧
      ∀ byte ∈ body, byte ≠ ESC ∧ byte ≠ CAN ∧ byte ≠ SUB ∧ ¬(0x40 ≤ byte ∧ byte ≤ 0x7e)
  | .string => mode = .string filter.osc ∧ filter.pending = []
  | .stringEscape => mode = .escape ∧ filter.pending = []
  | .intermediate => mode = .intermediate ∧ filter.pending = []



/-- The terminal reads an escape and its byte as the filter does. -/
theorem read_escape (regular : Regular byte) (bracket : byte ≠ 0x5b) :
    readByte .escape byte = (if opensString byte then .string (byte == 0x5d)
      else if isIntermediate byte then .intermediate else .ground, []) := by
  rcases regular with ⟨low, high⟩ | rfl | rfl
  · have notEsc : byte ≠ ESC := by rintro rfl; exact absurd low (by decide)
    have notCan : byte ≠ CAN := by rintro rfl; exact absurd low (by decide)
    have notSub : byte ≠ SUB := by rintro rfl; exact absurd low (by decide)
    simp only [readByte, notEsc, notCan, notSub, bracket, or_self, if_false]
    split
    · rfl
    · by_cases early : byte ≤ 0x2f
      · simp [isIntermediate, low, early]
      · have late : 0x30 ≤ byte := by grind
        simp [isIntermediate, early, late, high]
  · rfl
  · rfl

theorem read_intermediate (regular : Regular byte) :
    readByte .intermediate byte = (if isIntermediate byte then .intermediate else .ground, []) := by
  rcases regular with ⟨low, high⟩ | rfl | rfl
  · have notEsc : byte ≠ ESC := by rintro rfl; exact absurd low (by decide)
    have notCan : byte ≠ CAN := by rintro rfl; exact absurd low (by decide)
    have notSub : byte ≠ SUB := by rintro rfl; exact absurd low (by decide)
    simp only [readByte, notEsc, notCan, notSub, or_self, if_false]
    by_cases early : byte ≤ 0x2f
    · have later : ¬0x30 ≤ byte := by grind
      simp [isIntermediate, low, early, later]
    · have late : 0x30 ≤ byte := by grind
      simp [isIntermediate, early, late, high]
  · rfl
  · rfl

/-- The bytes of a number. -/
def numeral (n : Nat) : Bytes := (showNat n).map byteOf

theorem numeral_bounds {n : Nat} (member : byte ∈ numeral n) : 0x30 ≤ byte ∧ byte ≤ 0x39 := by
  obtain ⟨c, among, rfl⟩ := List.mem_map.mp member
  have bounds := digit_bounds (showNat_isDigit among)
  have value : (byteOf c).toNat = c.toNat := byteOf_toNat (by omega)
  rw [UInt8.le_iff_toNat_le, UInt8.le_iff_toNat_le, value]
  exact bounds

theorem digits_numeral (n : Nat) : digits ((numeral n).map charOf) = some n := by
  have same : (numeral n).map charOf = showNat n := by
    unfold numeral
    rw [List.map_map]
    refine (List.map_congr_left ?_).trans (List.map_id _)
    intro c member
    have bounds := digit_bounds (showNat_isDigit member)
    exact charOf_byteOf (by omega)
  rw [same, digits_showNat]

theorem utf8_showNat (n : Nat) : utf8 (showNat n) = numeral n := by
  apply utf8_ascii
  intro c member
  have bounds := digit_bounds (showNat_isDigit member)
  omega

theorem marginsText_bytes (top bottom : Nat) :
    utf8 (marginsText top bottom) = ESC :: 0x5b :: ((numeral top ++ 0x3b :: numeral bottom) ++ [0x72]) := by
  rw [← utf8_showNat, ← utf8_showNat]
  show utf8 (['\x1b', '['] ++ (showNat top ++ ([';'] ++ showNat bottom)) ++ ['r']) = _
  rw [utf8_append, utf8_append, utf8_append, utf8_append]
  rfl

/-- What the filter writes for margins sets them, within the rows. -/
theorem feed_margins {top bottom : Nat} (positive : 0 < bottom) (within : bottom ≤ rows) :
    ∃ sequence, feed readByte .ground (utf8 (marginsText top bottom)) = (.ground, [sequence]) ∧
      sequence.Within rows := by
  have bounds : ∀ byte ∈ numeral top ++ 0x3b :: numeral bottom, 0x30 ≤ byte ∧ byte ≤ 0x3b := by
    intro byte member
    have wider (own : 0x30 ≤ byte ∧ byte ≤ 0x39) : 0x30 ≤ byte ∧ byte ≤ 0x3b :=
      ⟨own.1, UInt8.le_trans own.2 (by decide)⟩
    rcases List.mem_append.mp member with member | member
    · exact wider (numeral_bounds member)
    · rcases List.mem_cons.mp member with rfl | member
      · decide
      · exact wider (numeral_bounds member)
  have absent (n : Nat) : 0x3b ∉ numeral n := fun member => absurd (numeral_bounds member).2 (by decide)
  have kept : (numeral top ++ 0x3b :: numeral bottom).filter (fun byte => 0x20 ≤ byte && byte ≤ 0x3f) =
      numeral top ++ 0x3b :: numeral bottom := by
    apply List.filter_eq_self.mpr
    intro byte member
    obtain ⟨low, high⟩ := bounds byte member
    rw [Bool.and_eq_true, decide_eq_true_eq, decide_eq_true_eq]
    exact ⟨UInt8.le_trans (by decide) low, UInt8.le_trans high (by decide)⟩
  have plain : ∀ byte ∈ numeral top ++ 0x3b :: numeral bottom,
      byte ≠ ESC ∧ byte ≠ CAN ∧ byte ≠ SUB ∧ ¬(0x40 ≤ byte ∧ byte ≤ 0x7e) := by
    intro byte member
    obtain ⟨low, high⟩ := bounds byte member
    refine ⟨?_, ?_, ?_, fun final => absurd (UInt8.le_trans final.1 high) (by decide)⟩
    · rintro rfl
      exact absurd low (by decide)
    · rintro rfl
      exact absurd low (by decide)
    · rintro rfl
      exact absurd low (by decide)
  have second : Csi.parameter ⟨numeral top ++ 0x3b :: numeral bottom, 0x72⟩ 1 = bottom := by
    unfold Csi.parameter
    dsimp only
    rw [List.splitOn_append_cons_self, List.splitOn_eq_singleton (absent top), List.splitOn_eq_singleton (absent bottom)]
    show (digits ((numeral bottom).map charOf)).getD 0 = bottom
    rw [digits_numeral]
    rfl
  refine ⟨⟨numeral top ++ 0x3b :: numeral bottom, 0x72⟩, ?_, ?_⟩
  · rw [marginsText_bytes, feed_sequence plain (by decide), kept]
  · intro _
    rw [second]
    exact ⟨positive, within⟩

/-- A body with a byte that no margins have leaves the terminal one with it. -/
theorem within_other {body : Bytes} (other : body.any isOther = true) :
    Csi.Within rows ⟨body.filter fun byte => 0x20 ≤ byte && byte ≤ 0x3f, 0x72⟩ := by
  rintro ⟨_, parameters⟩
  obtain ⟨byte, member, own⟩ := List.any_eq_true.mp other
  unfold isOther at own
  rw [Bool.and_eq_true] at own
  have kept := List.all_eq_true.mp parameters byte (List.mem_filter.mpr ⟨member, own.1⟩)
  rw [kept] at own
  exact absurd own.2 (by decide)

/-- One byte that both take alike keeps them together, and sets no margins outside of the rows. -/
theorem sync_step (sync : Sync filter mode) (agrees : filter.Agrees byte) :
    Sync (passByte rows filter byte).1 (feed readByte mode (passByte rows filter byte).2).1 ∧
      ∀ sequence ∈ (feed readByte mode (passByte rows filter byte).2).2, sequence.Within rows := by
  unfold Sync at sync
  unfold ViewportFilter.Agrees at agrees
  unfold passByte pushByte
  cases state : filter.state with
  | ground =>
    rw [state] at sync
    obtain ⟨rfl, empty⟩ := sync
    dsimp only
    split
    next escape =>
      refine ⟨⟨rfl, ?_⟩, by simp [feed]⟩
      rw [empty, escape]
      rfl
    next other =>
      have plain : readByte .ground byte = (.ground, []) := by
        unfold readByte
        rw [if_neg other]
        split <;> rfl
      simp only [feed, plain, List.append_nil, List.not_mem_nil, false_implies, implies_true, and_true]
      exact ⟨rfl, empty⟩
  | escape =>
    rw [state] at sync agrees
    obtain ⟨rfl, held⟩ := sync
    dsimp only at agrees ⊢
    split
    next bracket =>
      refine ⟨⟨rfl, [], ?_, by simp⟩, by simp [feed]⟩
      rw [held, bracket]
      rfl
    next bracket =>
      have opens : readByte .ground ESC = (.escape, []) := rfl
      have whole : feed readByte .ground (filter.pending ++ [byte]) =
          (if opensString byte then .string (byte == 0x5d) else if isIntermediate byte then .intermediate else .ground,
            []) := by
        rw [held]
        simp only [List.cons_append, List.nil_append, feed, opens, read_escape agrees bracket, List.append_nil]
      split
      next string =>
        rw [whole, if_pos string]
        exact ⟨⟨rfl, rfl⟩, by simp⟩
      next string =>
        split
        next inner =>
          rw [whole, if_neg string, if_pos inner]
          exact ⟨⟨rfl, rfl⟩, by simp⟩
        next inner =>
          rw [whole, if_neg string, if_neg inner]
          exact ⟨⟨rfl, rfl⟩, by simp⟩
  | csi =>
    rw [state] at sync agrees
    obtain ⟨rfl, body, shape, plain⟩ := sync
    obtain ⟨inside, short, margins⟩ := agrees
    have front : filter.pending.drop 2 = body := by rw [shape]; rfl
    dsimp only
    split
    next final =>
      split
      next =>
        split
        next top bottom some_ =>
          obtain ⟨_, ordered, within⟩ := clamped_within some_
          obtain ⟨sequence, whole, contained⟩ := @feed_margins rows top bottom (by omega) within
          rw [whole]
          refine ⟨⟨rfl, rfl⟩, ?_⟩
          intro other member
          rw [List.mem_singleton.mp member]
          exact contained
        next => exact ⟨⟨rfl, rfl⟩, by simp [feed]⟩
      next other =>
        have ends : 0x40 ≤ byte ∧ byte ≤ 0x7e := by simpa [isFinal] using final
        have whole : filter.pending ++ [byte] = ESC :: 0x5b :: (body ++ [byte]) := by rw [shape]; rfl
        rw [whole, feed_sequence plain ends]
        refine ⟨⟨rfl, rfl⟩, ?_⟩
        intro sequence member
        rw [List.mem_singleton.mp member]
        by_cases sets : byte = 0x72
        · rw [front] at margins other
          rcases margins sets with parameters | odd
          · exact absurd ⟨sets, parameters⟩ other
          · rw [sets]
            exact within_other odd
        · exact fun is => absurd is.1 sets
    next final =>
      have unfinished := eq_false_of_ne_true final
      rw [if_neg (Nat.not_le_of_lt (short unfinished))]
      refine ⟨⟨rfl, body ++ [byte], by rw [shape]; rfl, ?_⟩, by simp [feed]⟩
      intro other member
      rcases List.mem_append.mp member with member | member
      · exact plain other member
      · rw [List.mem_singleton.mp member]
        refine ⟨inside.1, inside.2.1, inside.2.2, ?_⟩
        intro ends
        exact final (by simpa [isFinal] using ends)
  | string =>
    rw [state] at sync
    obtain ⟨rfl, empty⟩ := sync
    dsimp only
    by_cases escape : byte = ESC
    · rw [if_pos escape, escape]
      exact ⟨⟨rfl, empty⟩, by simp [feed, readByte]⟩
    · by_cases aborts : byte = CAN ∨ byte = SUB
      · rw [if_neg escape, if_pos (Or.inr aborts)]
        have reads : readByte (.string filter.osc) byte = (.ground, []) := by
          simp only [readByte, escape, aborts, if_false, if_true]
        simp only [feed, reads]
        exact ⟨⟨rfl, empty⟩, by simp⟩
      · by_cases bell : filter.osc = true ∧ byte = BEL
        · rw [if_neg escape, if_pos (Or.inl bell)]
          have reads : readByte (.string filter.osc) byte = (.ground, []) := by
            unfold readByte
            rw [if_neg escape, if_neg aborts]
            exact if_pos bell
          simp only [feed, reads]
          exact ⟨⟨rfl, empty⟩, by simp⟩
        · rw [if_neg escape, if_neg (not_or.mpr ⟨bell, aborts⟩)]
          have reads : readByte (.string filter.osc) byte = (.string filter.osc, []) := by
            simp only [readByte, escape, aborts, bell, if_false]
          simp only [feed, reads]
          exact ⟨⟨rfl, empty⟩, by simp⟩
  | stringEscape =>
    rw [state] at sync agrees
    obtain ⟨rfl, empty⟩ := sync
    dsimp only at agrees ⊢
    rcases agrees with rfl | rfl
    · have reads : readByte .escape 0x5c = (.ground, []) := rfl
      simp only [feed, reads]
      exact ⟨⟨rfl, empty⟩, by simp⟩
    · have reads : readByte .escape ESC = (.escape, []) := rfl
      have remains : ¬(ESC = 0x5c ∨ filter.osc = true ∧ ESC = BEL) := by
        rintro (wrong | ⟨_, wrong⟩) <;> exact absurd wrong (by decide)
      rw [if_neg remains, if_pos rfl]
      simp only [feed, reads]
      exact ⟨⟨rfl, empty⟩, by simp⟩
  | intermediate =>
    rw [state] at sync agrees
    obtain ⟨rfl, empty⟩ := sync
    dsimp only at agrees ⊢
    simp only [feed, read_intermediate agrees]
    split
    · exact ⟨⟨rfl, empty⟩, by simp⟩
    · exact ⟨⟨rfl, empty⟩, by simp⟩

/-- At each byte of the stream the filter takes it as the terminal does. -/
def Agreeing (rows : Nat) (filter : ViewportFilter) : Bytes → Prop
  | [] => True
  | byte :: rest => filter.Agrees byte ∧ Agreeing rows (passByte rows filter byte).1 rest

theorem feed_sync (sync : Sync filter mode) {input : Bytes} (agreeing : Agreeing rows filter input) :
    Sync (feed (passByte rows) filter input).1 (feed readByte mode (feed (passByte rows) filter input).2).1 ∧
      ∀ sequence ∈ (feed readByte mode (feed (passByte rows) filter input).2).2, sequence.Within rows := by
  induction input generalizing filter mode with
  | nil => exact ⟨sync, by simp [feed]⟩
  | cons byte rest ih =>
    obtain ⟨next, first⟩ := @sync_step rows filter mode byte sync agreeing.1
    obtain ⟨last, later⟩ := ih next agreeing.2
    rw [feed, feed_append]
    refine ⟨last, ?_⟩
    intro sequence member
    rcases List.mem_append.mp member with member | member
    · exact first sequence member
    · exact later sequence member

/-- For every stream and every way it is cut: the calls let out the stream with its margin sequences
replaced, up to what is held back, and if all its bytes are taken by the filter as the terminal takes them,
the terminal behind it sets no margins outside of the rows. -/
theorem viewport_margins (rows : Nat) (chunks : List Bytes) (agreeing : Agreeing rows {} chunks.flatten) :
    (∃ passed held, chunks.flatten = passed ++ held ∧ held = (pushAll rows {} chunks).1.pending ∧
      Rewrites rows passed (pushAll rows {} chunks).2) ∧
    (∀ others : List Bytes, others.flatten = chunks.flatten → pushAll rows {} others = pushAll rows {} chunks) ∧
    ∀ sequence ∈ executed (pushAll rows {} chunks).2, sequence.Within rows := by
  rw [pushAll_eq]
  refine ⟨?_, ?_, ?_⟩
  · obtain ⟨passed, consumed, rewritten⟩ := @feed_rewrites rows {} rfl chunks.flatten
    exact ⟨passed, _, consumed, rfl, rewritten⟩
  · intro others same
    rw [pushAll_eq, same]
  · have start : Sync {} .ground := ⟨rfl, rfl⟩
    exact (feed_sync start agreeing).2

/-- A character, and a sequence that gives the margins back. -/
theorem plain_reset_contained :
    pushAll 5 {} [[0x61, ESC], [0x5b, 0x72]] = ({ top := 1 }, 0x61 :: utf8 (marginsText 1 5)) ∧
      ∀ sequence ∈ executed (pushAll 5 {} [[0x61, ESC], [0x5b, 0x72]]).2, sequence.Within 5 := by
  refine ⟨rfl, (viewport_margins 5 [[0x61, ESC], [0x5b, 0x72]] ?_).2.2⟩
  refine ⟨trivial, trivial, Or.inl (by decide), ⟨⟨by decide, by decide, by decide⟩, ?_, ?_⟩, trivial⟩
  · intro unfinished
    exact absurd unfinished (by decide)
  · intro _
    exact Or.inl rfl

/-- A second escape, another one inside of a sequence, an abort of it and a line feed in it: each time the
terminal sets margins without a bottom. -/
theorem escape_twice_uncontained :
    (∃ sequence ∈ executed (pushAll 5 {} [[ESC, ESC, 0x5b, 0x72]]).2, ¬sequence.Within 5) ∧
      (∃ sequence ∈ executed (pushAll 5 {} [[ESC, 0x5b, 0x31, ESC, 0x5b, 0x72]]).2, ¬sequence.Within 5) ∧
      (∃ sequence ∈ executed (pushAll 5 {} [[ESC, 0x5b, 0x31, CAN, ESC, 0x5b, 0x72]]).2, ¬sequence.Within 5) ∧
      ∃ sequence ∈ executed (pushAll 5 {} [[ESC, 0x5b, 0x0a, 0x72]]).2, ¬sequence.Within 5 := by
  refine ⟨⟨⟨[], 0x72⟩, ?_, ?_⟩, ⟨⟨[], 0x72⟩, ?_, ?_⟩, ⟨⟨[], 0x72⟩, ?_, ?_⟩, ⟨[], 0x72⟩, ?_, ?_⟩ <;> decide

end Terminal

end Pbox.Cli.Viewport
