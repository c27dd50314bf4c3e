import Pbox.Lib.Strings
import Mathlib.Data.Bool.AllAny

/-! Public box identifiers. A `PboxId` carries the check of `PboxId::parse` as a field, so an
identifier that the parser refuses cannot be built. -/

namespace Pbox.Core.Id
open Pbox.Lib.Strings

def PREFIX : Text := "pbx_".toList
def LENGTH : Nat := 8
def alphabetChars : Text := "0123456789abcdefghjkmnpqrstvwxyz".toList

/-- The cast `character as u8`, which keeps the low eight bits of the code point. -/
def asByte (character : Char) : UInt8 := character.val.toUInt8

def ALPHABET : List UInt8 := alphabetChars.map asByte

inductive PboxIdError where
  | invalidPrefix
  | invalidLength
  | invalidCharacter (character : Char)
  deriving DecidableEq, Repr

structure Accepted (value : Text) : Prop where
  starts : PREFIX.isPrefixOf value = true
  length : (value.drop PREFIX.length).length = LENGTH
  alphabet : ∀ character ∈ value.drop PREFIX.length, ALPHABET.contains (asByte character) = true

structure PboxId where
  value : Text
  accepted : Accepted value

instance : DecidableEq PboxId := fun first second =>
  decidable_of_iff (first.value = second.value) (by cases first; cases second; simp)

def PboxId.parse (value : Text) : Except PboxIdError PboxId :=
  if starts : PREFIX.isPrefixOf value = true then
    if length : (value.drop PREFIX.length).length = LENGTH then
      match search : (value.drop PREFIX.length).find? (fun c => !ALPHABET.contains (asByte c)) with
      | some character => .error (.invalidCharacter character)
      | none => .ok ⟨value, starts, length, by simpa [List.find?_eq_none] using search⟩
    else .error .invalidLength
  else .error .invalidPrefix

/-- The parser accepts exactly what the field of its result states, and keeps the text. -/
theorem parse_ok_iff (value : Text) (id : PboxId) :
    PboxId.parse value = .ok id ↔ id.value = value := by
  constructor
  · intro parsed
    unfold PboxId.parse at parsed
    split at parsed
    · split at parsed
      · split at parsed
        · cases parsed
        · cases parsed
          rfl
      · cases parsed
    · cases parsed
  · intro same
    subst same
    obtain ⟨value, starts, length, alphabet⟩ := id
    unfold PboxId.parse
    rw [dif_pos starts, dif_pos length]
    split
    next character search =>
      have bad := List.find?_some search
      have good := alphabet character (List.mem_of_find?_eq_some search)
      rw [good] at bad
      cases bad
    next search => rfl

theorem parse_isOk_iff (value : Text) :
    (PboxId.parse value).isOk = true ↔ Accepted value := by
  constructor
  · intro succeeds
    cases parsed : PboxId.parse value with
    | error e => simp [parsed, Except.isOk, Except.toBool] at succeeds
    | ok id => exact (parse_ok_iff value id).mp parsed ▸ id.accepted
  · intro accepted
    rw [(parse_ok_iff value ⟨value, accepted⟩).mpr rfl]
    rfl

/-- `PboxId::generate`, given the eight indices that the random generator draws. -/
def PboxId.generateText (indices : Fin LENGTH → Fin alphabetChars.length) : Text :=
  PREFIX ++ (List.ofFn indices).map fun index => alphabetChars.get index

/-- The documented shape: the prefix and eight characters of the alphabet. -/
def Grammar (value : Text) : Prop :=
  ∃ suffix, value = PREFIX ++ suffix ∧ suffix.length = LENGTH ∧ ∀ c ∈ suffix, c ∈ alphabetChars

/-- Eight characters that the cast sends into the alphabet, not all of them Latin-1. -/
def LowByteAlias (value : Text) : Prop :=
  ∃ suffix, value = PREFIX ++ suffix ∧ suffix.length = LENGTH ∧
    (∀ c ∈ suffix, asByte c ∈ ALPHABET) ∧ ∃ c ∈ suffix, 256 ≤ c.toNat

theorem accepted_iff (value : Text) :
    Accepted value ↔ ∃ suffix, value = PREFIX ++ suffix ∧ suffix.length = LENGTH ∧
      ∀ c ∈ suffix, asByte c ∈ ALPHABET := by
  constructor
  · rintro ⟨starts, length, alphabet⟩
    obtain ⟨suffix, equal⟩ := List.isPrefixOf_iff_prefix.mp starts
    subst equal
    simp only [List.drop_left, List.contains_iff_mem] at length alphabet
    exact ⟨suffix, rfl, length, alphabet⟩
  · rintro ⟨suffix, rfl, length, alphabet⟩
    exact ⟨List.isPrefixOf_iff_prefix.mpr (List.prefix_append _ _), by rwa [List.drop_left],
      by simpa only [List.drop_left, List.contains_iff_mem] using alphabet⟩

theorem alphabet_small : ∀ c ∈ alphabetChars, c.toNat < 128 :=
  List.all_iff_forall_prop.mp (by decide)

theorem asByte_toNat (c : Char) : (asByte c).toNat = c.toNat % 256 := by
  exact UInt32.toNat_toUInt8 c.val

/-- Below 256 the cast loses nothing, so it stays in the alphabet only on the alphabet. -/
theorem asByte_mem_iff {c : Char} (small : c.toNat < 256) :
    asByte c ∈ ALPHABET ↔ c ∈ alphabetChars := by
  constructor
  · intro member
    obtain ⟨other, listed, same⟩ := List.mem_map.mp member
    have values := congrArg UInt8.toNat same
    rw [asByte_toNat, asByte_toNat, Nat.mod_eq_of_lt small,
      Nat.mod_eq_of_lt (by have := alphabet_small other listed; omega)] at values
    have equal : other = c := Char.ext (UInt32.toNat_inj.mp values)
    exact equal ▸ listed
  · exact List.mem_map_of_mem

theorem Grammar.accepted {value : Text} (shape : Grammar value) : Accepted value := by
  obtain ⟨suffix, equal, length, alphabet⟩ := shape
  exact (accepted_iff value).mpr ⟨suffix, equal, length, fun c member =>
    List.mem_map_of_mem (alphabet c member)⟩

/-- What the parser accepts is the documented shape or an alias of it under the cast. -/
theorem accepted_cases (value : Text) : Accepted value ↔ Grammar value ∨ LowByteAlias value := by
  constructor
  · intro accepted
    obtain ⟨suffix, equal, length, bytes⟩ := (accepted_iff value).mp accepted
    by_cases wide : ∃ c ∈ suffix, 256 ≤ c.toNat
    · exact Or.inr ⟨suffix, equal, length, bytes, wide⟩
    · refine Or.inl ⟨suffix, equal, length, fun c member => ?_⟩
      have small : c.toNat < 256 := by
        by_contra large
        exact wide ⟨c, member, by omega⟩
      exact (asByte_mem_iff small).mp (bytes c member)
  · rintro (shape | ⟨suffix, equal, length, bytes, _⟩)
    · exact shape.accepted
    · exact (accepted_iff value).mpr ⟨suffix, equal, length, bytes⟩

/-- Aliases are never of the documented shape. -/
theorem LowByteAlias.not_grammar {value : Text} (aliased : LowByteAlias value) : ¬Grammar value := by
  obtain ⟨suffix, equal, _, _, c, member, wide⟩ := aliased
  rintro ⟨other, same, _, alphabet⟩
  have suffixes : suffix = other := List.append_cancel_left (equal.symm.trans same)
  have small := alphabet_small c (alphabet c (suffixes ▸ member))
  omega

theorem generateText_grammar (indices : Fin LENGTH → Fin alphabetChars.length) :
    Grammar (PboxId.generateText indices) := by
  refine ⟨_, rfl, by simp, fun c member => ?_⟩
  obtain ⟨index, _, equal⟩ := List.mem_map.mp member
  exact equal ▸ List.get_mem alphabetChars index

/-- `PboxId::generate` builds an identifier that the parser returns unchanged. -/
def PboxId.generate (indices : Fin LENGTH → Fin alphabetChars.length) : PboxId :=
  ⟨PboxId.generateText indices, (generateText_grammar indices).accepted⟩

end Pbox.Core.Id
