import Pbox.Lib.Strings

/-! Reading bytes as text, the way `str::from_utf8` does: all of them are the encoding of a text, or
there is no text. An ASCII byte is a character of its own wherever it stands. -/

namespace Pbox.Lib.Utf8
open Pbox.Lib.Strings

/-- The characters of the bytes, at most so many of them. -/
@[grind =] def readChars : Nat → List UInt8 → Option Text
  | _, [] => some []
  | 0, _ :: _ => none
  | fuel + 1, byte :: rest =>
    match (byte :: rest).toByteArray.utf8DecodeChar? 0 with
    | none => none
    | some c => (readChars fuel ((byte :: rest).drop c.utf8Size)).map (c :: ·)

/-- Every character has a byte, so there are no more characters than bytes. -/
def fromUtf8 (bytes : List UInt8) : Option Text := readChars bytes.length bytes

/-- The bytes at a front that starts no character which stand for one replacement: the first of them,
and those that could go on from it. -/
def brokenLength : List UInt8 → Nat
  | first :: second :: rest =>
    let continues (byte : UInt8) : Bool := 0x80 ≤ byte && byte ≤ 0xbf
    if first = 0xe0 && 0xa0 ≤ second && second ≤ 0xbf || 0xe1 ≤ first && first ≤ 0xec && continues second ||
        first = 0xed && 0x80 ≤ second && second ≤ 0x9f || 0xee ≤ first && first ≤ 0xef && continues second then 2
    else if first = 0xf0 && 0x90 ≤ second && second ≤ 0xbf || 0xf1 ≤ first && first ≤ 0xf3 && continues second ||
        first = 0xf4 && 0x80 ≤ second && second ≤ 0x8f then
      if (rest.head?.map continues).getD false then 3 else 2
    else 1
  | _ => 1

@[grind =] def readLossy : Nat → List UInt8 → Text
  | _, [] => []
  | 0, _ :: _ => []
  | fuel + 1, byte :: rest =>
    match (byte :: rest).toByteArray.utf8DecodeChar? 0 with
    | none => Char.ofNat 0xfffd :: readLossy fuel ((byte :: rest).drop (brokenLength (byte :: rest)))
    | some c => c :: readLossy fuel ((byte :: rest).drop c.utf8Size)

/-- `from_utf8_lossy`: what starts no character is replaced. -/
def fromUtf8Lossy (bytes : List UInt8) : Text := readLossy bytes.length bytes

theorem utf8_cons (c : Char) (text : Text) : utf8 (c :: text) = String.utf8EncodeChar c ++ utf8 text := rfl

/-- A byte that goes on with a character. -/
def Continues (byte : UInt8) : Prop := 0x80 ≤ byte ∧ byte ≤ 0xbf

/-- The first byte of a character says how many go on with it. -/
theorem encode_cases (c : Char) :
    (c.toNat < 128 ∧ String.utf8EncodeChar c = [c.toNat.toUInt8]) ∨
      (∃ lead a : UInt8, String.utf8EncodeChar c = [lead, a] ∧ (0xc2 ≤ lead ∧ lead ≤ 0xdf) ∧ Continues a) ∨
      (∃ lead a b : UInt8, String.utf8EncodeChar c = [lead, a, b] ∧ (0xe0 ≤ lead ∧ lead ≤ 0xef) ∧ Continues a ∧
        Continues b) ∨
      ∃ lead a b d : UInt8, String.utf8EncodeChar c = [lead, a, b, d] ∧ (0xf0 ≤ lead ∧ lead ≤ 0xf4) ∧ Continues a ∧
        Continues b ∧ Continues d := by
  have largest : c.toNat ≤ 0x10ffff := by
    have valid := c.valid
    unfold UInt32.isValidChar Nat.isValidChar at valid
    change c.val.toNat ≤ 0x10ffff
    omega
  have byte {n : Nat} (small : n < 256) : (UInt8.ofNat n).toNat = n := by
    rw [UInt8.toNat_ofNat']
    omega
  have continues (n : Nat) : Continues (UInt8.ofNat (n % 0x40 + 0x80)) := by
    unfold Continues
    rw [UInt8.le_iff_toNat_le, UInt8.le_iff_toNat_le, byte (by omega)]
    change 128 ≤ _ ∧ _ ≤ 191
    omega
  unfold String.utf8EncodeChar
  have same : c.val.toNat = c.toNat := rfl
  simp only [same]
  generalize c.toNat = n at largest
  split
  next one => exact .inl ⟨by omega, rfl⟩
  next =>
    split
    next two =>
      refine .inr (.inl ⟨_, _, rfl, ?_, continues n⟩)
      rw [UInt8.le_iff_toNat_le, UInt8.le_iff_toNat_le, byte (by omega)]
      change 194 ≤ _ ∧ _ ≤ 223
      omega
    next =>
      split
      next three =>
        refine .inr (.inr (.inl ⟨_, _, _, rfl, ?_, continues (n / 64), continues n⟩))
        rw [UInt8.le_iff_toNat_le, UInt8.le_iff_toNat_le, byte (by omega)]
        change 224 ≤ _ ∧ _ ≤ 239
        omega
      next =>
        refine .inr (.inr (.inr ⟨_, _, _, _, rfl, ?_, continues (n / 4096), continues (n / 64), continues n⟩))
        rw [UInt8.le_iff_toNat_le, UInt8.le_iff_toNat_le, byte (by omega)]
        change 240 ≤ _ ∧ _ ≤ 244
        omega

theorem decodeChar_eq_some_iff {c : Char} {bytes : List UInt8} :
    bytes.toByteArray.utf8DecodeChar? 0 = some c ↔ ∃ rest, bytes = String.utf8EncodeChar c ++ rest := by
  constructor
  · intro read
    obtain ⟨rest, whole⟩ := ByteArray.exists_of_utf8DecodeChar?_eq_some read
    refine ⟨rest.data.toList, ?_⟩
    simpa using congrArg (fun array : ByteArray => array.data.toList) whole
  · rintro ⟨rest, rfl⟩
    rw [List.toByteArray_append]
    exact ByteArray.utf8DecodeChar?_utf8EncodeChar_append

theorem drop_encodeChar (c : Char) (rest : List UInt8) : (String.utf8EncodeChar c ++ rest).drop c.utf8Size = rest := by
  rw [← String.length_utf8EncodeChar, List.drop_left]

theorem readChars_utf8 (text : Text) {fuel : Nat} (enough : (utf8 text).length ≤ fuel) :
    readChars fuel (utf8 text) = some text := by
  induction text generalizing fuel with
  | nil => cases fuel <;> rfl
  | cons c text ih =>
    have first : (utf8 (c :: text)).toByteArray.utf8DecodeChar? 0 = some c :=
      decodeChar_eq_some_iff.mpr ⟨utf8 text, utf8_cons c text⟩
    have length : (utf8 (c :: text)).length = c.utf8Size + (utf8 text).length := by
      rw [utf8_cons, List.length_append, String.length_utf8EncodeChar]
    have positive := c.utf8Size_pos
    obtain ⟨fuel, rfl⟩ : ∃ less, fuel = less + 1 := ⟨fuel - 1, by omega⟩
    cases shape : utf8 (c :: text) with
    | nil => rw [shape] at length; simp at length; omega
    | cons byte rest =>
      have later : (byte :: rest).drop c.utf8Size = utf8 text := by
        rw [← shape, utf8_cons, drop_encodeChar]
      rw [shape] at first
      simp only [readChars, first, later]
      rw [ih (by omega), Option.map_some]

theorem utf8_of_readChars {fuel : Nat} {bytes : List UInt8} {text : Text}
    (read : readChars fuel bytes = some text) : utf8 text = bytes := by
  induction fuel generalizing bytes text with
  | zero =>
    cases bytes with
    | nil => cases read; rfl
    | cons byte rest => cases read
  | succ fuel ih =>
    cases bytes with
    | nil => cases read; rfl
    | cons byte rest =>
      unfold readChars at read
      split at read
      next => cases read
      next c first =>
        obtain ⟨later, more, rfl⟩ := Option.map_eq_some_iff.mp read
        obtain ⟨behind, whole⟩ := decodeChar_eq_some_iff.mp first
        rw [whole, drop_encodeChar] at more
        rw [utf8_cons, ih more, whole]

/-- The text that bytes are read as is the one they encode. -/
theorem fromUtf8_eq_some_iff {bytes : List UInt8} {text : Text} : fromUtf8 bytes = some text ↔ utf8 text = bytes := by
  constructor
  · exact utf8_of_readChars
  · rintro rfl
    exact readChars_utf8 text (Nat.le_refl _)

theorem readLossy_of_readChars {fuel : Nat} {bytes : List UInt8} {text : Text}
    (read : readChars fuel bytes = some text) : readLossy fuel bytes = text := by
  induction fuel generalizing bytes text with
  | zero =>
    cases bytes with
    | nil => cases read; rfl
    | cons byte rest => cases read
  | succ fuel ih =>
    cases bytes with
    | nil => cases read; rfl
    | cons byte rest =>
      unfold readChars at read
      split at read
      next => cases read
      next c first =>
        obtain ⟨later, more, rfl⟩ := Option.map_eq_some_iff.mp read
        simp only [readLossy, first, ih more]

/-- Nothing of an encoded text is replaced. -/
theorem fromUtf8Lossy_utf8 (text : Text) : fromUtf8Lossy (utf8 text) = text :=
  readLossy_of_readChars (readChars_utf8 text (Nat.le_refl _))

/-- Where nothing is replaced, the text is what the bytes encode. -/
theorem utf8_readLossy {fuel : Nat} {bytes : List UInt8} (enough : bytes.length ≤ fuel)
    (kept : Char.ofNat 0xfffd ∉ readLossy fuel bytes) : utf8 (readLossy fuel bytes) = bytes := by
  induction fuel generalizing bytes with
  | zero =>
    rw [List.length_eq_zero_iff.mp (Nat.le_zero.mp enough)]
    rfl
  | succ fuel ih =>
    cases bytes with
    | nil => rfl
    | cons byte rest =>
      cases first : (byte :: rest).toByteArray.utf8DecodeChar? 0 with
      | none =>
        simp only [readLossy, first] at kept
        exact absurd List.mem_cons_self kept
      | some c =>
        simp only [readLossy, first] at kept ⊢
        obtain ⟨behind, whole⟩ := decodeChar_eq_some_iff.mp first
        have length := congrArg List.length whole
        rw [List.length_append, String.length_utf8EncodeChar] at length
        have positive := c.utf8Size_pos
        rw [whole, drop_encodeChar] at kept
        rw [utf8_cons, whole, drop_encodeChar, ih (by omega) fun member => kept (List.mem_cons_of_mem _ member)]

theorem utf8_fromUtf8Lossy {bytes : List UInt8} (kept : Char.ofNat 0xfffd ∉ fromUtf8Lossy bytes) :
    utf8 (fromUtf8Lossy bytes) = bytes := utf8_readLossy (Nat.le_refl _) kept

/-- A character of one byte that is read was a byte. -/
theorem mem_of_mem_readLossy {fuel : Nat} {bytes : List UInt8} {c : Char} {byte : UInt8}
    (single : String.utf8EncodeChar c = [byte]) (other : c ≠ Char.ofNat 0xfffd) (member : c ∈ readLossy fuel bytes) :
    byte ∈ bytes := by
  induction fuel generalizing bytes with
  | zero => cases bytes <;> cases member
  | succ fuel ih =>
    cases bytes with
    | nil => cases member
    | cons first rest =>
      unfold readLossy at member
      split at member
      next =>
        rcases List.mem_cons.mp member with same | member
        · exact absurd same other
        · exact List.mem_of_mem_drop (ih member)
      next d decoded =>
        rcases List.mem_cons.mp member with rfl | member
        · obtain ⟨behind, whole⟩ := decodeChar_eq_some_iff.mp decoded
          rw [whole, single]
          exact List.mem_cons_self
        · exact List.mem_of_mem_drop (ih member)

theorem fromUtf8Lossy_ne_nil {bytes : List UInt8} (some_ : bytes ≠ []) : fromUtf8Lossy bytes ≠ [] := by
  cases bytes with
  | nil => exact absurd rfl some_
  | cons byte rest =>
    cases first : (byte :: rest).toByteArray.utf8DecodeChar? 0 with
    | none => simp [fromUtf8Lossy, readLossy, first]
    | some c => simp [fromUtf8Lossy, readLossy, first]

/-- What stands behind an encoded text in an encoding is encoded too. -/
theorem encoded_of_front {front text : Text} {bytes : List UInt8} (whole : utf8 text = utf8 front ++ bytes) :
    ∃ later, utf8 later = bytes := by
  induction front generalizing text with
  | nil => exact ⟨text, whole⟩
  | cons c front ih =>
    rw [utf8_cons, List.append_assoc] at whole
    cases text with
    | nil => exact absurd (List.append_eq_nil_iff.mp whole.symm).1 String.utf8EncodeChar_ne_nil
    | cons d text =>
      rw [utf8_cons] at whole
      have same : some d = some c :=
        (decodeChar_eq_some_iff.mpr ⟨_, rfl⟩).symm.trans (decodeChar_eq_some_iff.mpr ⟨_, whole⟩)
      cases same
      exact ih (List.append_cancel_left whole)

/-- A byte that starts a character starts one wherever it stands. -/
theorem encoded_of_back {back text : Text} {bytes : List UInt8} (whole : utf8 text = bytes ++ utf8 back) :
    ∃ earlier, utf8 earlier = bytes := by
  cases back with
  | nil => exact ⟨text, whole.trans (List.append_nil _)⟩
  | cons d back =>
    induction text generalizing bytes with
    | nil =>
      obtain ⟨rfl, _⟩ := List.append_eq_nil_iff.mp whole.symm
      exact ⟨[], rfl⟩
    | cons c text ih =>
      rw [utf8_cons] at whole
      rcases List.append_eq_append_iff.mp whole with ⟨later, here, _⟩ | ⟨middle, inside, rest⟩
      · subst here
        rw [List.append_assoc] at whole
        obtain ⟨earlier, same⟩ := ih (List.append_cancel_left whole)
        exact ⟨c :: earlier, by rw [utf8_cons, same]⟩
      · cases bytes with
        | nil => exact ⟨[], rfl⟩
        | cons b bytes =>
          cases middle with
          | nil =>
            rw [List.append_nil] at inside
            exact ⟨[c], by rw [← inside]; simp [utf8]⟩
          | cons first middle =>
            -- the first byte of `d` would stand inside the encoding of `c`
            have starts : first.IsUTF8FirstByte := by
              have byte := @UInt8.isUTF8FirstByte_getElem_zero_utf8EncodeChar d
              cases shape : String.utf8EncodeChar d with
              | nil => exact absurd shape String.utf8EncodeChar_ne_nil
              | cons e later =>
                simp only [shape, List.getElem_cons_zero] at byte
                rw [utf8_cons, shape] at rest
                obtain ⟨rfl, _⟩ := List.cons.inj rest
                exact byte
            have position : (b :: bytes).length < (String.utf8EncodeChar c).length := by
              rw [inside, List.length_append]
              exact Nat.lt_add_of_pos_right (Nat.succ_pos _)
            have at' : (String.utf8EncodeChar c)[(b :: bytes).length] = first := by
              simp [inside]
            exact absurd (UInt8.isUTF8FirstByte_getElem_utf8EncodeChar.mp (at' ▸ starts)) (Nat.succ_ne_zero _)

/-- Bytes between two texts can be read exactly when they can be read alone. -/
theorem fromUtf8_between (front back : Text) (bytes : List UInt8) :
    fromUtf8 (utf8 front ++ bytes ++ utf8 back) = (fromUtf8 bytes).map fun text => front ++ text ++ back := by
  cases read : fromUtf8 bytes with
  | some text =>
    refine fromUtf8_eq_some_iff.mpr ?_
    rw [utf8_append, utf8_append, fromUtf8_eq_some_iff.mp read]
  | none =>
    refine Option.eq_none_iff_forall_not_mem.mpr fun text whole => ?_
    obtain ⟨shorter, ends⟩ := encoded_of_back (fromUtf8_eq_some_iff.mp whole)
    obtain ⟨middle, encoded⟩ := encoded_of_front ends
    rw [fromUtf8_eq_some_iff.mpr encoded] at read
    cases read

end Pbox.Lib.Utf8
