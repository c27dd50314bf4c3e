import Mathlib.Algebra.Group.Int.Defs
import Mathlib.Algebra.Group.Nat.Defs
import Pbox.Lib.Strings

/-! Numbers as text: the decimal numerals that Rust's `Display` writes and `from_str` reads, and
the hexadecimal text of a byte string. Reading is laxer than writing (a plus sign, leading
zeros, capital digits), so each pair is stated as a round trip. -/

namespace Pbox.Lib.Numerals
open Pbox.Lib.Strings

def showNat (n : Nat) : Text := Nat.toDigits 10 n

def showInt : Int → Text
  | .ofNat n => showNat n
  | .negSucc n => '-' :: showNat (n + 1)

def digits (value : Text) : Option Nat :=
  if value ≠ [] ∧ value.all Char.isDigit = true then some (Nat.ofDigitChars 10 value 0) else none

def afterPlus : Text → Text
  | '+' :: rest => rest
  | value => value

/-- `from_str` of an unsigned type with the given largest value. -/
def parseUnsigned (largest : Nat) (value : Text) : Option Nat :=
  (digits (afterPlus value)).filter (· ≤ largest)

/-- `from_str` of a signed type with the given bounds. -/
def parseSigned (least largest : Int) (value : Text) : Option Int :=
  let read : Option Int :=
    match value with
    | '-' :: rest => (digits rest).map fun n : Nat => -(n : Int)
    | _ => (digits (afterPlus value)).map fun n : Nat => (n : Int)
  read.filter fun n => least ≤ n ∧ n ≤ largest

def i64Min : Int := -2 ^ 63
def i64Max : Int := 2 ^ 63 - 1

theorem showNat_isDigit {n : Nat} {c : Char} (member : c ∈ showNat n) : c.isDigit = true :=
  Nat.isDigit_of_mem_toDigits (by decide) (by decide) member

theorem digits_showNat (n : Nat) : digits (showNat n) = some n := by
  have every : (showNat n).all Char.isDigit = true :=
    List.all_eq_true.mpr fun _ member => showNat_isDigit member
  unfold digits
  rw [if_pos ⟨Nat.toDigits_ne_nil, every⟩]
  apply congrArg some
  exact Nat.ofDigitChars_ten_toDigits

theorem digits_some {text : Text} {n : Nat} (read : digits text = some n) :
    text ≠ [] ∧ (∀ c ∈ text, c.isDigit = true) ∧ n = Nat.ofDigitChars 10 text 0 := by
  unfold digits at read
  split at read
  next well => exact ⟨well.1, List.all_eq_true.mp well.2, (Option.some.inj read).symm⟩
  next => cases read

theorem digits_eq {text : Text} (nonempty : text ≠ []) (every : ∀ c ∈ text, c.isDigit = true) :
    digits text = some (Nat.ofDigitChars 10 text 0) := if_pos ⟨nonempty, List.all_eq_true.mpr every⟩

theorem digit_bounds {c : Char} (digit : c.isDigit = true) : 48 ≤ c.toNat ∧ c.toNat ≤ 57 := by
  simp only [Char.isDigit, Bool.and_eq_true, decide_eq_true_eq] at digit
  exact digit

/-- A numeral of so many digits is below that power of ten. -/
theorem ofDigitChars_lt {text : Text} (every : ∀ c ∈ text, c.isDigit = true) :
    Nat.ofDigitChars 10 text 0 < 10 ^ text.length := by
  induction text with
  | nil => decide
  | cons c rest ih =>
    have later := ih fun d member => every d (List.mem_cons_of_mem c member)
    obtain ⟨low, high⟩ := digit_bounds (every c List.mem_cons_self)
    have value : c.toNat - '0'.toNat ≤ 9 := by
      have zero : '0'.toNat = 48 := rfl
      omega
    rw [Nat.ofDigitChars_cons, Nat.ofDigitChars_eq_ofDigitChars_zero, List.length_cons, Nat.pow_succ, Nat.mul_zero,
      Nat.zero_add]
    have scaled := Nat.mul_le_mul_left (10 ^ rest.length) value
    omega

/-- Every number below a power of ten has a numeral of so many digits, with zeros before it. -/
theorem exists_digits {width n : Nat} (small : n < 10 ^ width) : ∃ text : Text,
    text.length = width ∧ (∀ c ∈ text, c.isDigit = true) ∧ Nat.ofDigitChars 10 text 0 = n := by
  induction width generalizing n with
  | zero => exact ⟨[], rfl, List.forall_mem_nil _, (Nat.lt_one_iff.mp small).symm⟩
  | succ width ih =>
    have front : n / 10 < 10 ^ width := Nat.div_lt_of_lt_mul (by rwa [Nat.mul_comm, ← Nat.pow_succ])
    obtain ⟨text, length, every, value⟩ := ih front
    have digit : n % 10 < 10 := Nat.mod_lt n (by decide)
    refine ⟨text ++ [Nat.digitChar (n % 10)], by rw [List.length_append, length]; rfl, ?_, ?_⟩
    · intro c member
      rcases List.mem_append.mp member with before | last
      · exact every c before
      · have own : showNat (n % 10) = [Nat.digitChar (n % 10)] := Nat.toDigits_of_lt_base digit
        exact showNat_isDigit (own ▸ last)
    · rw [Nat.ofDigitChars_append, value, Nat.ofDigitChars_cons_digitChar_of_lt_ten digit, Nat.ofDigitChars_nil]
      omega

theorem exists_digitChar {c : Char} (digit : c.isDigit = true) : ∃ n < 10, c = Nat.digitChar n := by
  obtain ⟨low, high⟩ := digit_bounds digit
  have small : c.toNat - 48 < 10 := by omega
  refine ⟨c.toNat - 48, small, Char.toNat_inj.mp ?_⟩
  have value := Nat.toNat_digitChar_sub_48_of_lt_ten small
  have own : (Nat.digitChar (c.toNat - 48)).isDigit = true := by rw [Nat.isDigit_digitChar, decide_eq_true small]
  have bounds := digit_bounds own
  omega

/-- A numeral that does not begin with a zero is the one that is shown. -/
theorem showNat_ofDigitChars {c : Char} {rest : Text} (every : ∀ d ∈ c :: rest, d.isDigit = true) (positive : c ≠ '0') :
    showNat (Nat.ofDigitChars 10 (c :: rest) 0) = c :: rest := by
  induction rest using List.reverseRecOn with
  | nil =>
    obtain ⟨n, small, rfl⟩ := exists_digitChar (every c List.mem_cons_self)
    rw [Nat.ofDigitChars_cons_digitChar_of_lt_ten small, Nat.ofDigitChars_nil, Nat.mul_zero, Nat.zero_add]
    exact Nat.toDigits_of_lt_base small
  | append_singleton front d ih =>
    have before := ih fun e member => every e (List.mem_append_left [d] member)
    obtain ⟨n, small, rfl⟩ := exists_digitChar (every d (List.mem_append_right (c :: front) List.mem_cons_self))
    have leading : 0 < Nat.ofDigitChars 10 (c :: front) 0 := by
      rw [Nat.pos_iff_ne_zero]
      intro zero
      rw [zero] at before
      exact positive (List.cons.inj before).1.symm
    have split : showNat (10 * Nat.ofDigitChars 10 (c :: front) 0 + n) =
        showNat (Nat.ofDigitChars 10 (c :: front) 0) ++ Nat.toDigits 10 n :=
      (Nat.toDigits_append_toDigits (by decide) leading small).symm
    rw [← List.cons_append, Nat.ofDigitChars_append, Nat.ofDigitChars_cons_digitChar_of_lt_ten small, Nat.ofDigitChars_nil,
      split, before, Nat.toDigits_of_lt_base small]

theorem showNat_injective : Function.Injective showNat := by
  intro first second same
  have read := congrArg digits same
  rw [digits_showNat, digits_showNat] at read
  exact Option.some.inj read

/-- A numeral starts with a digit, so no sign is read off it. -/
theorem showNat_head (n : Nat) : ∃ c rest, showNat n = c :: rest ∧ c.isDigit = true := by
  obtain ⟨c, rest, shape⟩ := List.exists_cons_of_ne_nil (Nat.toDigits_ne_nil (n := n) (b := 10))
  exact ⟨c, rest, shape, showNat_isDigit (n := n) (by rw [showNat, shape]; exact List.mem_cons_self)⟩

theorem afterPlus_showNat (n : Nat) : afterPlus (showNat n) = showNat n := by
  obtain ⟨c, rest, shape, digit⟩ := showNat_head n
  rw [shape]
  unfold afterPlus
  split
  next same =>
    cases same
    exact absurd digit (by decide)
  next => rfl

theorem parseSigned_showInt {least largest n : Int} (above : least ≤ n) (below : n ≤ largest) :
    parseSigned least largest (showInt n) = some n := by
  have inside : decide (least ≤ n ∧ n ≤ largest) = true := decide_eq_true ⟨above, below⟩
  cases n with
  | ofNat n =>
    obtain ⟨c, rest, shape, digit⟩ := showNat_head n
    have unsigned : parseSigned least largest (showNat n) =
        ((digits (afterPlus (showNat n))).map fun n : Nat => (n : Int)).filter
          fun n => least ≤ n ∧ n ≤ largest := by
      rw [shape]
      unfold parseSigned
      split
      next same =>
        cases same
        exact absurd digit (by decide)
      next => rfl
    show parseSigned least largest (showNat n) = _
    rw [unsigned, afterPlus_showNat, digits_showNat]
    exact Option.filter_some_pos inside
  | negSucc n =>
    show ((digits (showNat (n + 1))).map fun n : Nat => -(n : Int)).filter _ = _
    rw [digits_showNat]
    exact Option.filter_some_pos inside

/-- The characters of a written integer. -/
theorem showInt_chars {n : Int} {c : Char} (member : c ∈ showInt n) : c.isDigit = true ∨ c = '-' := by
  cases n with
  | ofNat n => exact .inl (showNat_isDigit member)
  | negSucc n =>
    rcases List.mem_cons.mp member with sign | digit
    · exact .inr sign
    · exact .inl (showNat_isDigit digit)

theorem showInt_injective : Function.Injective showInt := by
  intro first second same
  have one := @parseSigned_showInt (min first second) (max first second) first (by omega) (by omega)
  have two := @parseSigned_showInt (min first second) (max first second) second (by omega) (by omega)
  rw [same] at one
  exact Option.some.inj (one.symm.trans two)

section Hex

def hexDigit (n : Nat) : Char := if n < 10 then Char.ofNat (48 + n) else Char.ofNat (87 + n)

def hexValue (c : Char) : Option Nat :=
  if '0' ≤ c ∧ c ≤ '9' then some (c.toNat - 48)
  else if 'a' ≤ c ∧ c ≤ 'f' then some (c.toNat - 87)
  else if 'A' ≤ c ∧ c ≤ 'F' then some (c.toNat - 55)
  else none

/-- `hex::encode`. -/
def hexEncode (bytes : List UInt8) : Text :=
  bytes.flatMap fun b => [hexDigit (b.toNat / 16), hexDigit (b.toNat % 16)]

/-- `hex::decode`, which takes capital digits too and refuses an odd length. -/
def hexDecode : Text → Option (List UInt8)
  | [] => some []
  | [_] => none
  | high :: low :: rest =>
    match hexValue high, hexValue low, hexDecode rest with
    | some h, some l, some bytes => some (UInt8.ofNat (16 * h + l) :: bytes)
    | _, _, _ => none

theorem hexValue_hexDigit : ∀ n : Fin 16, hexValue (hexDigit n) = some n.val := by
  decide

theorem hexDecode_hexEncode (bytes : List UInt8) : hexDecode (hexEncode bytes) = some bytes := by
  induction bytes with
  | nil => rfl
  | cons b rest ih =>
    have small := b.toNat_lt
    have high : hexValue (hexDigit (b.toNat / 16)) = some (b.toNat / 16) :=
      hexValue_hexDigit ⟨b.toNat / 16, by omega⟩
    have low : hexValue (hexDigit (b.toNat % 16)) = some (b.toNat % 16) :=
      hexValue_hexDigit ⟨b.toNat % 16, by omega⟩
    show hexDecode (_ :: _ :: hexEncode rest) = _
    simp only [hexDecode, high, low, ih]
    have whole : 16 * (b.toNat / 16) + b.toNat % 16 = b.toNat := by omega
    rw [whole, UInt8.ofNat_toNat]

/-- Every character of a text that decodes is a hexadecimal digit. -/
theorem hexDecode_chars {text : Text} {bytes : List UInt8} (read : hexDecode text = some bytes) :
    ∀ c ∈ text, (hexValue c).isSome = true := by
  fun_induction hexDecode text generalizing bytes with
  | case1 => exact fun _ member => absurd member List.not_mem_nil
  | case2 => cases read
  | case3 high low rest h l tail restIs lowIs highIs ih =>
    intro c member
    rcases List.mem_cons.mp member with same | member
    · rw [same, highIs]
      rfl
    · rcases List.mem_cons.mp member with same | member
      · rw [same, lowIs]
        rfl
      · exact ih restIs c member
  | case4 => cases read

end Hex

end Pbox.Lib.Numerals
