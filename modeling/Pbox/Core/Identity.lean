import Pbox.Core.Id

/-! The other checks of a box identifier: the relay's `valid_box_id` and `valid_route` and the
certificate code's `server_subject` work on the UTF-8 bytes, the parser on characters. They
agree on every text except those whose characters the parser's cast to a byte aliases. -/

namespace Pbox.Core.Identity
open Pbox.Lib.Strings Pbox.Core.Id

def isAsciiLowercase (b : UInt8) : Bool := 'a'.toNat ≤ b.toNat && b.toNat ≤ 'z'.toNat
def isAsciiDigit (b : UInt8) : Bool := '0'.toNat ≤ b.toNat && b.toNat ≤ '9'.toNat

/-- `pbox_relay::valid_box_id`. -/
def validBoxId (value : Text) : Bool :=
  "pbx_".toList.isPrefixOf value && (utf8 value).length == 12 &&
    ((utf8 value).drop 4).all fun b => isAsciiLowercase b || isAsciiDigit b

/-- `pbox_relay::valid_route`: a bootstrap route joins two identifiers with a tilde. -/
def validRoute (value : Text) : Bool :=
  match splitOnce '~' value with
  | some (parent, child) => validBoxId parent && validBoxId child
  | none => validBoxId value

inductive CryptoError where
  | invalidBoxId (boxId : Text)
  deriving DecidableEq, Repr

def isIdByte (b : UInt8) : Bool := isAsciiLowercase b || isAsciiDigit b

/-- `pbox_crypto::server_subject`. -/
def serverSubject (boxId : Text) : Except CryptoError Text :=
  if !"pbx_".toList.isPrefixOf boxId || (utf8 boxId).length != 12 ||
      !((utf8 boxId).drop 4).all isIdByte then
    .error (.invalidBoxId boxId)
  else .ok ("pbox.cwd.dev/box/".toList ++ boxId)

theorem serverSubject_isOk (boxId : Text) : (serverSubject boxId).isOk = validBoxId boxId := by
  have bytes : ((utf8 boxId).drop 4).all isIdByte =
      ((utf8 boxId).drop 4).all fun b => isAsciiLowercase b || isAsciiDigit b := rfl
  unfold serverSubject validBoxId
  rw [← bytes]
  cases "pbx_".toList.isPrefixOf boxId <;> cases ((utf8 boxId).drop 4).all isIdByte <;>
    cases sized : (utf8 boxId).length == 12 <;> simp_all [Except.isOk, Except.toBool]

theorem alphabet_bytes : ∀ c ∈ alphabetChars,
    String.utf8EncodeChar c = [asByte c] ∧
      (isAsciiLowercase (asByte c) || isAsciiDigit (asByte c)) = true ∧ c ≠ '~' :=
  List.all_iff_forall_prop.mp (by decide)

/-- Text over the alphabet takes one byte for each character. -/
theorem utf8_alphabet {suffix : Text} (alphabet : ∀ c ∈ suffix, c ∈ alphabetChars) :
    utf8 suffix = suffix.map asByte := by
  induction suffix with
  | nil => rfl
  | cons c rest ih =>
    have first := (alphabet_bytes c (alphabet c (by simp))).1
    have later := ih (fun d member => alphabet d (List.mem_cons_of_mem _ member))
    simp only [utf8, List.flatMap_cons, List.map_cons] at later ⊢
    rw [first, later]
    rfl

theorem Grammar.validBoxId {value : Text} (shape : Grammar value) : validBoxId value = true := by
  obtain ⟨suffix, equal, length, alphabet⟩ := shape
  subst equal
  have encoded : utf8 (PREFIX ++ suffix) = utf8 PREFIX ++ suffix.map asByte := by
    rw [utf8_append, utf8_alphabet alphabet]
  have four : (utf8 PREFIX).length = 4 := by decide
  have starts : "pbx_".toList.isPrefixOf (PREFIX ++ suffix) = true :=
    List.isPrefixOf_iff_prefix.mpr (List.prefix_append _ _)
  have tail : (utf8 PREFIX ++ suffix.map asByte).drop 4 = suffix.map asByte := by
    rw [← four, List.drop_left]
  have classes : ((suffix.map asByte).all fun b => isAsciiLowercase b || isAsciiDigit b) = true := by
    rw [List.all_map, List.all_eq_true]
    exact fun c member => (alphabet_bytes c (alphabet c member)).2.1
  have sized : (utf8 PREFIX ++ suffix.map asByte).length = 12 := by
    rw [List.length_append, List.length_map, four, length]
    rfl
  unfold Identity.validBoxId
  rw [encoded, tail, sized, starts, classes]
  rfl

theorem Grammar.validRoute {value : Text} (shape : Grammar value) : validRoute value = true := by
  have noTilde : '~' ∉ value := by
    obtain ⟨suffix, equal, _, alphabet⟩ := shape
    subst equal
    intro member
    rcases List.mem_append.mp member with front | back
    · revert front
      decide
    · exact (alphabet_bytes '~' (alphabet '~' back)).2.2 rfl
  rw [Identity.validRoute, splitOnce_none noTilde]
  exact Grammar.validBoxId shape

/-- The parser accepts the documented shape and nothing else, and what it accepts the relay
and the certificate code accept as well. -/
def Agreement (value : Text) : Prop :=
  ((PboxId.parse value).isOk = true ↔ Grammar value) ∧
    ((PboxId.parse value).isOk = true →
      validBoxId value = true ∧ validRoute value = true ∧ (serverSubject value).isOk = true)

/-- The three checks agree on a text exactly when the cast aliases none of its characters. -/
theorem agreement_iff_not_alias (value : Text) : Agreement value ↔ ¬LowByteAlias value := by
  unfold Agreement
  rw [parse_isOk_iff, accepted_cases]
  constructor
  · intro ⟨same, _⟩ aliased
    exact aliased.not_grammar (same.mp (Or.inr aliased))
  · intro clean
    refine ⟨⟨fun cases => cases.resolve_right clean, Or.inl⟩, fun cases => ?_⟩
    have shape := cases.resolve_right clean
    exact ⟨Grammar.validBoxId shape, Grammar.validRoute shape,
      (serverSubject_isOk value).trans (Grammar.validBoxId shape)⟩

/-- U+0130 is cast to the byte of the digit zero. -/
theorem dotted_capital_i_disagrees :
    (PboxId.parse "pbx_\u01302345678".toList).isOk = true ∧
      validBoxId "pbx_\u01302345678".toList = false ∧
      validRoute "pbx_\u01302345678".toList = false ∧
      (serverSubject "pbx_\u01302345678".toList).isOk = false ∧
      ¬Agreement "pbx_\u01302345678".toList := by
  have parses : (PboxId.parse "pbx_\u01302345678".toList).isOk = true := by decide
  have refused : validBoxId "pbx_\u01302345678".toList = false := by decide
  refine ⟨parses, refused, by decide, by decide, fun ⟨_, accepted⟩ => ?_⟩
  rw [(accepted parses).1] at refused
  cases refused

end Pbox.Core.Identity
