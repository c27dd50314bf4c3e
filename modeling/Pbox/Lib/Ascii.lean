import Pbox.Lib.Strings

/-! ASCII texts, whose bytes are their characters. Code that scans the bytes of a text for ASCII classes accepts
such texts only, and may then be read character by character. -/

namespace Pbox.Lib.Ascii
open Pbox.Lib.Strings

def byteOf (c : Char) : UInt8 := c.toNat.toUInt8

def charOf (b : UInt8) : Char := Char.ofNat b.toNat

def IsAscii (text : Text) : Prop := ∀ c ∈ text, c.toNat < 128

theorem byteOf_toNat {c : Char} (ascii : c.toNat < 128) : (byteOf c).toNat = c.toNat := by
  rw [byteOf, Nat.toUInt8, UInt8.toNat_ofNat']
  omega

theorem charOf_toNat {b : UInt8} (ascii : b.toNat < 128) : (charOf b).toNat = b.toNat := by
  have valid : b.toNat.isValidChar := .inl (by omega)
  rw [charOf, Char.ofNat, dif_pos valid]
  rfl

theorem charOf_byteOf {c : Char} (ascii : c.toNat < 128) : charOf (byteOf c) = c := by
  rw [charOf, byteOf_toNat ascii, Char.ofNat_toNat]

theorem byteOf_charOf {b : UInt8} (ascii : b.toNat < 128) : byteOf (charOf b) = b := by
  rw [byteOf, charOf_toNat ascii]
  exact UInt8.ofNat_toNat

/-- An ASCII character is known by its byte. -/
theorem byteOf_inj {c d : Char} (ascii : c.toNat < 128) (other : d.toNat < 128) : byteOf c = byteOf d ↔ c = d := by
  refine ⟨fun same => ?_, congrArg byteOf⟩
  rw [← charOf_byteOf ascii, ← charOf_byteOf other, same]

theorem byteOf_beq {c d : Char} (ascii : c.toNat < 128) (other : d.toNat < 128) : (byteOf c == byteOf d) = (c == d) := by
  rw [Bool.eq_iff_iff, beq_iff_eq, beq_iff_eq, byteOf_inj ascii other]

theorem encode_ascii {c : Char} (ascii : c.toNat < 128) : String.utf8EncodeChar c = [byteOf c] := by
  have size : c.utf8Size = 1 := by
    rw [Char.utf8Size_eq_one_iff]
    exact Nat.le_of_lt_succ ascii
  rw [String.utf8EncodeChar_eq_singleton size]
  rfl

theorem utf8_ascii {text : Text} (ascii : IsAscii text) : utf8 text = text.map byteOf := by
  induction text with
  | nil => rfl
  | cons c rest ih =>
    have later : utf8 rest = rest.map byteOf := ih fun d member => ascii d (List.mem_cons_of_mem c member)
    rw [List.map_cons, ← later]
    exact congrArg (· ++ utf8 rest) (encode_ascii (ascii c List.mem_cons_self))

/-- Bytes below 128 are the encoding of one text only. -/
theorem utf8_of_bytes {bytes : List UInt8} (ascii : ∀ b ∈ bytes, b.toNat < 128) :
    IsAscii (bytes.map charOf) ∧ utf8 (bytes.map charOf) = bytes := by
  have inside : IsAscii (bytes.map charOf) := by
    intro c member
    obtain ⟨b, there, rfl⟩ := List.mem_map.mp member
    rw [charOf_toNat (ascii b there)]
    exact ascii b there
  refine ⟨inside, ?_⟩
  rw [utf8_ascii inside, List.map_map]
  exact (List.map_congr_left fun b there => byteOf_charOf (ascii b there)).trans (List.map_id bytes)

/-- A text all of whose bytes are below 128 is their text. -/
theorem eq_of_utf8 {text : Text} (ascii : ∀ b ∈ utf8 text, b.toNat < 128) :
    IsAscii text ∧ text = (utf8 text).map charOf := by
  obtain ⟨inside, encoded⟩ := utf8_of_bytes ascii
  have same : (utf8 text).map charOf = text := utf8_injective encoded
  exact ⟨same ▸ inside, same.symm⟩

/-- A check of the bytes that takes ASCII only is one of the characters. -/
theorem all_bytes {text : Text} {p : UInt8 → Bool} {q : Char → Prop} (small : ∀ b, p b = true → b.toNat < 128)
    (ascii : ∀ c, q c → c.toNat < 128) (same : ∀ c, c.toNat < 128 → (p (byteOf c) = true ↔ q c)) :
    (utf8 text).all p = true ↔ ∀ c ∈ text, q c := by
  constructor
  · intro every c member
    have plain := (eq_of_utf8 fun b member => small b (List.all_eq_true.mp every b member)).1
    rw [utf8_ascii plain, List.all_map] at every
    exact (same c (plain c member)).mp (List.all_eq_true.mp every c member)
  · intro every
    have plain : IsAscii text := fun c member => ascii c (every c member)
    rw [utf8_ascii plain, List.all_map, List.all_eq_true]
    exact fun c member => (same c (plain c member)).mpr (every c member)

/-- The lower case of a capital letter is the letter 32 places behind it; any other character is its own. -/
theorem toLower_cases (c : Char) :
    (¬(65 ≤ c.toNat ∧ c.toNat ≤ 90) ∧ c.toLower = c) ∨
      (65 ≤ c.toNat ∧ c.toNat ≤ 90) ∧ c.toLower.toNat = c.toNat + 32 := by
  have capital : (c.val ≥ 'A'.val ∧ c.val ≤ 'Z'.val) ↔ 65 ≤ c.toNat ∧ c.toNat ≤ 90 := by
    rw [ge_iff_le, UInt32.le_iff_toNat_le, UInt32.le_iff_toNat_le]
    exact Iff.rfl
  unfold Char.toLower
  split
  next inside =>
    have bounds := capital.mp inside
    refine .inr ⟨bounds, ?_⟩
    show (c.val + ('a'.val - 'A'.val)).toNat = c.toNat + 32
    rw [UInt32.toNat_add]
    exact Nat.mod_eq_of_lt (show c.toNat + 32 < 2 ^ 32 by omega)
  next outside => exact .inl ⟨capital.not.mp outside, rfl⟩

theorem toLower_plain {c : Char} (plain : ¬(65 ≤ c.toNat ∧ c.toNat ≤ 90)) : c.toLower = c := by
  rcases toLower_cases c with ⟨_, same⟩ | ⟨capital, _⟩
  · exact same
  · exact absurd capital plain

theorem toLower_toLower (c : Char) : c.toLower.toLower = c.toLower := by
  apply toLower_plain
  rcases toLower_cases c with ⟨plain, same⟩ | ⟨capital, shifted⟩
  · rwa [same]
  · omega

theorem toLower_eq_iff {c mark : Char} (letter : ¬(97 ≤ mark.toNat ∧ mark.toNat ≤ 122)) (own : mark.toLower = mark) :
    c.toLower = mark ↔ c = mark := by
  constructor
  · intro same
    subst same
    rcases toLower_cases c with ⟨_, same⟩ | ⟨bounds, shifted⟩
    · exact same.symm
    · omega
  · intro same
    subst same
    exact own

end Pbox.Lib.Ascii
