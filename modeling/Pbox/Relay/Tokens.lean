import Pbox.Core.Identity
import Pbox.Lib.Numerals

/-! The relay's bearer tokens: `scoped_token` derives one from a key, a role and a route,
`authorised` checks it, and `access` issues and checks the ones that expire. HMAC-SHA256 is a
parameter, a function of the bytes of its key and of its message. -/

namespace Pbox.Relay.Tokens
open Pbox.Lib.Strings Pbox.Lib.Numerals Pbox.Core.Identity

abbrev Bytes := List UInt8
abbrev Mac := Bytes → Bytes → Bytes

inductive Role where
  | agent
  | client
  | snapshot
  deriving DecidableEq

def Role.text : Role → Text
  | .agent => "agent".toList
  | .client => "client".toList
  | .snapshot => "snapshot".toList

def CLIENT_EXPIRING : Text := "client-expiring".toList

def SCOPE : Text := "pbox-relay-v1/".toList

/-- What a token authenticates. -/
def message (role boxId : Text) : Text := SCOPE ++ role ++ '/' :: boxId

section Mac
variable (mac : Mac)

def digest (key role boxId : Text) : Bytes := mac (utf8 key) (utf8 (message role boxId))

def scopedToken (master role boxId : Text) : Text := hexEncode (digest mac master role boxId)

/-- The key of `authorised`: a bootstrap route of an agent is checked under the snapshot's seed. -/
def verificationKey (master role boxId : Text) : Text :=
  if role = Role.agent.text then
    match splitOnce '~' boxId with
    | some (parent, _) => scopedToken mac master Role.snapshot.text parent
    | none => master
  else master

def authorised (master role boxId token : Text) : Bool :=
  match hexDecode token with
  | none => false
  | some bytes => digest mac (verificationKey mac master role boxId) role boxId == bytes

/-- The route of an expiring token, followed by its expiry. -/
def expiringRoute (id : Text) (expiry : Int) : Text := id ++ '/' :: showInt expiry

/-- The range of `time::OffsetDateTime`, the years from -9999 to 9999. -/
structure Timestamp where
  seconds : Int
  range : -377705116800 ≤ seconds ∧ seconds ≤ 253402300799

/-- The `relay_token` of `issue_credentials`. -/
def issuedToken (master id : Text) (issued : Timestamp) : Text :=
  let expiresAt := issued.seconds + 300
  "v2.".toList ++ showInt expiresAt ++ '.' :: scopedToken mac master CLIENT_EXPIRING (expiringRoute id expiresAt)

/-- `access::authorised`. -/
def authorisedExpiring (master id token : Text) (now : Int) : Bool :=
  match token.splitOn '.' with
  | [version, time, signature] =>
    if version = "v2".toList then
      match parseSigned i64Min i64Max time with
      | none => false
      | some expiry =>
        if expiry ≤ now ∨ min (now + 300) i64Max < expiry then false
        else authorised mac master CLIENT_EXPIRING (expiringRoute id expiry) signature
    else false
  | _ => false

def authorisedConnection (master role id token : Text) (now : Int) : Bool :=
  if role = Role.client.text ∧ "v2.".toList.isPrefixOf token = true then
    authorisedExpiring mac master id token now
  else authorised mac master role id token

end Mac

section Encoding
variable {mac : Mac} {master role boxId token : Text}

/-- A slash cannot stand in an identifier or a route, nor a sign or a digit at its head. -/
structure Plain (value : Text) : Prop where
  head : ∃ rest, value = 'p' :: rest
  clean : '/' ∉ value

/-- A character whose byte no identifier may hold. -/
theorem validBoxId_avoids {value : Text} {c : Char} {b : UInt8} (valid : validBoxId value = true)
    (single : String.utf8EncodeChar c = [b]) (early : b ∉ utf8 "pbx_".toList)
    (late : (isAsciiLowercase b || isAsciiDigit b) = false) : c ∉ value := by
  intro member
  unfold validBoxId at valid
  obtain ⟨front, classes⟩ := Bool.and_eq_true_iff.mp valid
  obtain ⟨starts, _⟩ := Bool.and_eq_true_iff.mp front
  obtain ⟨rest, rfl⟩ := List.isPrefixOf_iff_prefix.mp starts
  have encoded : b ∈ utf8 ("pbx_".toList ++ rest) := mem_utf8_of_mem single member
  have four : (utf8 "pbx_".toList).length = 4 := by decide
  rw [utf8_append] at encoded classes
  rw [← four, List.drop_left] at classes
  rcases List.mem_append.mp encoded with first | second
  · exact early first
  · have lower := List.all_eq_true.mp classes b second
    rw [late] at lower
    cases lower

theorem validBoxId_plain {value : Text} (valid : validBoxId value = true) : Plain value := by
  refine ⟨?_, validBoxId_avoids valid (c := '/') (b := 47) (by decide) (by decide) (by decide)⟩
  obtain ⟨front, _⟩ := Bool.and_eq_true_iff.mp valid
  obtain ⟨starts, _⟩ := Bool.and_eq_true_iff.mp front
  obtain ⟨rest, rfl⟩ := List.isPrefixOf_iff_prefix.mp starts
  exact ⟨_, rfl⟩

theorem tilde_not_mem {value : Text} (valid : validBoxId value = true) : '~' ∉ value :=
  validBoxId_avoids valid (c := '~') (b := 126) (by decide) (by decide) (by decide)

theorem validRoute_plain {value : Text} (valid : validRoute value = true) : Plain value := by
  unfold validRoute at valid
  split at valid
  next parent child split =>
    obtain ⟨one, two⟩ := Bool.and_eq_true_iff.mp valid
    obtain ⟨⟨rest, rfl⟩, first⟩ := validBoxId_plain one
    obtain ⟨_, second⟩ := validBoxId_plain two
    obtain ⟨whole, _⟩ := splitOnce_some split
    rw [whole]
    refine ⟨⟨_, rfl⟩, fun member => ?_⟩
    rcases List.mem_append.mp member with early | late
    · exact first early
    · rcases List.mem_cons.mp late with tilde | late
      · exact absurd tilde (by decide)
      · exact second late
  next => exact validBoxId_plain valid

/-- A valid route with a tilde in it has no second one. -/
theorem bootstrap_parts {parent child : Text} (valid : validRoute (parent ++ '~' :: child) = true) :
    splitOnce '~' (parent ++ '~' :: child) = some (parent, child) := by
  apply splitOnce_append
  unfold validRoute at valid
  split at valid
  next p c split =>
    obtain ⟨whole, absent⟩ := splitOnce_some split
    have last := tilde_not_mem (Bool.and_eq_true_iff.mp valid).2
    have tildes := congrArg (List.count '~') whole
    rw [List.count_append, List.count_append, List.count_cons_self, List.count_cons_self,
      List.count_eq_zero.mpr absent, List.count_eq_zero.mpr last] at tildes
    exact List.count_eq_zero.mp (by omega)
  next => exact absurd (by simp) (tilde_not_mem valid)

theorem slash_not_mem_showInt (n : Int) : '/' ∉ showInt n := by
  intro member
  rcases showInt_chars member with digit | sign
  · exact absurd digit (by decide)
  · exact absurd sign (by decide)

/-- No route reads as an expiry. -/
theorem Plain.ne_showInt {value : Text} (plain : Plain value) (n : Int) : value ≠ showInt n := by
  intro same
  obtain ⟨rest, shape⟩ := plain.head
  have first : 'p' ∈ showInt n := by
    rw [← same, shape]
    exact List.mem_cons_self
  rcases showInt_chars first with digit | sign
  · exact absurd digit (by decide)
  · exact absurd sign (by decide)

theorem message_inj {role' boxId' : Text} (clean : '/' ∉ boxId) (clean' : '/' ∉ boxId')
    (same : message role boxId = message role' boxId') : role = role' ∧ boxId = boxId' := by
  obtain ⟨front, back⟩ := append_separator_inj clean clean' same
  exact ⟨List.append_cancel_left front, back⟩

/-- An expiring token authenticates its route and expiry like a token of a longer role. -/
theorem message_expiring (id : Text) (expiry : Int) :
    message CLIENT_EXPIRING (expiringRoute id expiry) =
      message (CLIENT_EXPIRING ++ '/' :: id) (showInt expiry) := by
  simp only [message, expiringRoute, List.append_assoc, List.cons_append]

theorem message_expiring_inj {id id' : Text} {expiry expiry' : Int}
    (same : message CLIENT_EXPIRING (expiringRoute id expiry) =
      message CLIENT_EXPIRING (expiringRoute id' expiry')) : id = id' ∧ expiry = expiry' := by
  rw [message_expiring, message_expiring] at same
  obtain ⟨roles, times⟩ := message_inj (slash_not_mem_showInt _) (slash_not_mem_showInt _) same
  exact ⟨(List.cons.inj (List.append_cancel_left roles)).2, showInt_injective times⟩

/-- No token of a role authenticates what an expiring token does. -/
theorem message_ne_expiring {id : Text} {expiry : Int} (plain : Plain boxId) :
    message role boxId ≠ message CLIENT_EXPIRING (expiringRoute id expiry) := by
  intro same
  rw [message_expiring] at same
  obtain ⟨_, times⟩ := message_inj plain.clean (slash_not_mem_showInt _) same
  exact plain.ne_showInt expiry times

end Encoding

section Checks
variable {mac : Mac} {master role boxId token : Text}

theorem authorised_iff : authorised mac master role boxId token = true ↔
    hexDecode token = some (digest mac (verificationKey mac master role boxId) role boxId) := by
  unfold authorised
  split
  next none => simp [none]
  next bytes some =>
    rw [some, beq_iff_eq, Option.some.injEq]
    exact eq_comm

/-- What `access::authorised` accepts: three parts, the expiry inside its window, and the
signature of both. -/
theorem authorisedExpiring_iff {now : Int} : authorisedExpiring mac master boxId token now = true ↔
    ∃ time signature expiry, token.splitOn '.' = ["v2".toList, time, signature] ∧
      parseSigned i64Min i64Max time = some expiry ∧ now < expiry ∧ expiry ≤ min (now + 300) i64Max ∧
      hexDecode signature = some (digest mac master CLIENT_EXPIRING (expiringRoute boxId expiry)) := by
  have key (route : Text) : verificationKey mac master CLIENT_EXPIRING route = master :=
    if_neg (by decide)
  constructor
  · intro accepted
    unfold authorisedExpiring at accepted
    split at accepted
    next version time signature parts =>
      split at accepted
      next current =>
        split at accepted
        next => cases accepted
        next expiry read =>
          split at accepted
          next => cases accepted
          next inside =>
            have signed := authorised_iff.mp accepted
            rw [key] at signed
            exact ⟨time, signature, expiry, by rw [parts, current], read, by omega, by omega, signed⟩
      next => cases accepted
    next => cases accepted
  · rintro ⟨time, signature, expiry, parts, read, later, soon, signed⟩
    unfold authorisedExpiring
    simp only [parts, read, if_true]
    rw [if_neg (by omega)]
    exact authorised_iff.mpr (by rw [key]; exact signed)

/-- A token that decodes has no dot in it. -/
theorem dot_not_mem {bytes : Bytes} (read : hexDecode token = some bytes) : '.' ∉ token := by
  intro member
  exact absurd (hexDecode_chars read '.' member) (by decide)

theorem not_expiring {bytes : Bytes} (read : hexDecode token = some bytes) :
    "v2.".toList.isPrefixOf token = false := by
  cases starts : "v2.".toList.isPrefixOf token with
  | false => rfl
  | true =>
    obtain ⟨rest, whole⟩ := List.isPrefixOf_iff_prefix.mp starts
    exact absurd (by rw [← whole]; simp) (dot_not_mem read)

/-- The two verifiers of a connection do not overlap. -/
theorem authorisedConnection_iff {now : Int} :
    authorisedConnection mac master role boxId token now = true ↔
      (role = Role.client.text ∧ "v2.".toList.isPrefixOf token = true ∧
        authorisedExpiring mac master boxId token now = true) ∨
      authorised mac master role boxId token = true := by
  unfold authorisedConnection
  split
  next expiring =>
    constructor
    · exact fun accepted => .inl ⟨expiring.1, expiring.2, accepted⟩
    · rintro (⟨_, _, accepted⟩ | accepted)
      · exact accepted
      · have plain := not_expiring (authorised_iff.mp accepted)
        rw [expiring.2] at plain
        cases plain
  next other =>
    constructor
    · exact .inr
    · rintro (⟨client, starts, _⟩ | accepted)
      · exact absurd ⟨client, starts⟩ other
      · exact accepted

end Checks

end Pbox.Relay.Tokens
