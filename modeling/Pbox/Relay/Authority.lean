import Pbox.Relay.Tokens
import Mathlib.Data.Set.Insert

/-! What a party can do with the tokens it holds. It may present any text whose signature it
knows, and it learns a signature by being given it or by computing it under a key it knows: a key
of its own, or the text of a token. -/

namespace Pbox.Relay.Authority
open Pbox.Lib.Strings Pbox.Lib.Numerals Pbox.Core.Identity Pbox.Relay.Tokens

inductive Capability where
  | bound (role : Role) (id : Text)
  | expiring (id : Text) (issued : Timestamp)

def Capability.route : Capability → Text
  | .bound _ id | .expiring id _ => id

def Capability.message : Capability → Text
  | .bound role id => Tokens.message role.text id
  | .expiring id issued => Tokens.message CLIENT_EXPIRING (expiringRoute id (issued.seconds + 300))

/-- The accesses a capability is meant for. -/
def Capability.Covers (cap : Capability) (role r : Text) (now : Int) : Prop :=
  match cap with
  | .bound role' id =>
    (role = role'.text ∧ r = id) ∨
      (role' = .snapshot ∧ role = Role.agent.text ∧ ∃ child, r = id ++ '~' :: child)
  | .expiring id issued =>
    role = Role.client.text ∧ r = id ∧ issued.seconds ≤ now ∧ now < issued.seconds + 300

/-- The part of a token after its last dot. -/
def signature (token : Text) : Text := (token.splitOn '.').getLastD []

def Carries (token : Text) (bytes : Bytes) : Prop := hexDecode (signature token) = some bytes

section Party
variable (mac : Mac) (outside : Bytes → Prop) (master : Text)

def Capability.token : Capability → Text
  | .bound role id => scopedToken mac master role.text id
  | .expiring id issued => issuedToken mac master id issued

def Capability.digest (cap : Capability) : Bytes := mac (utf8 master) (utf8 cap.message)

/-- The signatures a party gets to know. -/
inductive Knows (held : Set Capability) : Bytes → Prop
  | held {cap : Capability} (member : cap ∈ held) : Knows held (cap.digest mac master)
  | outside {key message : Bytes} (own : outside key) : Knows held (mac key message)
  | derived {token : Text} {bytes message : Bytes} (known : Knows held bytes)
      (carries : Carries token bytes) : Knows held (mac (utf8 token) message)

/-- A text can be presented unless it carries a signature that the party does not know. -/
def Presents (held : Set Capability) (token : Text) : Prop :=
  ∀ key message, Carries token (mac key message) → Knows mac outside master held (mac key message)

/-- HMAC as an injective function that cannot be inverted, and a relay key that is secret: it is
neither known outside nor the text of a token. -/
structure Ideal : Prop where
  injective : ∀ key message key' message', mac key message = mac key' message' →
    key = key' ∧ message = message'
  uninverted : ∀ token key message, outside (utf8 token) → Carries token (mac key message) → outside key
  secret : ¬outside (utf8 master)
  fresh : ∀ key message, ¬Carries master (mac key message)

/-- Whatever the held tokens open is covered by one of them, and each token opens what it was
derived for. -/
structure Separated : Prop where
  confined : ∀ (held : Set Capability) (role r token : Text) (now : Int),
    (∀ cap ∈ held, validRoute cap.route = true) → validRoute r = true →
    Presents mac outside master held token →
    authorisedConnection mac master role r token now = true → ∃ cap ∈ held, cap.Covers role r now
  bound : ∀ (role : Role) (id : Text) (now : Int), validRoute id = true →
    (role = .agent → '~' ∉ id) →
    authorisedConnection mac master role.text id (Capability.token mac master (.bound role id)) now = true
  bootstrap : ∀ (parent child : Text) (now : Int), validRoute (parent ++ '~' :: child) = true →
    authorisedConnection mac master Role.agent.text (parent ++ '~' :: child)
      (scopedToken mac (Capability.token mac master (.bound .snapshot parent)) Role.agent.text
        (parent ++ '~' :: child)) now = true
  expiring : ∀ (id : Text) (issued : Timestamp) (now : Int), validRoute id = true →
    issued.seconds ≤ now → now < issued.seconds + 300 →
    authorisedConnection mac master Role.client.text id
      (Capability.token mac master (.expiring id issued)) now = true

end Party

section Signatures
variable {mac : Mac} {outside : Bytes → Prop} {master : Text} {held : Set Capability}

theorem signature_plain {token : Text} (absent : '.' ∉ token) : signature token = token := by
  unfold signature
  rw [List.splitOn_eq_singleton absent]
  rfl

theorem carries_of_decode {token : Text} {bytes : Bytes} (read : hexDecode token = some bytes) :
    Carries token bytes := by
  unfold Carries
  rw [signature_plain (dot_not_mem read)]
  exact read

theorem scopedToken_carries (key role id : Text) {bytes : Bytes} :
    Carries (scopedToken mac key role id) bytes ↔ bytes = digest mac key role id := by
  have read : hexDecode (scopedToken mac key role id) = some (digest mac key role id) :=
    hexDecode_hexEncode _
  unfold Carries
  rw [signature_plain (dot_not_mem read), read, Option.some.injEq]
  exact eq_comm

/-- An expiring token falls into its three parts. -/
theorem issuedToken_parts (id : Text) (issued : Timestamp) :
    (issuedToken mac master id issued).splitOn '.' =
      ["v2".toList, showInt (issued.seconds + 300),
        scopedToken mac master CLIENT_EXPIRING (expiringRoute id (issued.seconds + 300))] := by
  have time : '.' ∉ showInt (issued.seconds + 300) := by
    intro member
    rcases showInt_chars member with digit | sign
    · exact absurd digit (by decide)
    · exact absurd sign (by decide)
  have last : '.' ∉ scopedToken mac master CLIENT_EXPIRING (expiringRoute id (issued.seconds + 300)) :=
    dot_not_mem (hexDecode_hexEncode _)
  have whole : issuedToken mac master id issued = "v2".toList ++ '.' :: (showInt (issued.seconds + 300) ++
      '.' :: scopedToken mac master CLIENT_EXPIRING (expiringRoute id (issued.seconds + 300))) := by
    unfold issuedToken
    rw [List.append_assoc]
    rfl
  rw [whole, List.splitOn_append_cons_self_of_not_mem (by decide),
    List.splitOn_append_cons_self_of_not_mem time, List.splitOn_eq_singleton last]

/-- A capability's token carries its signature. -/
theorem token_carries (cap : Capability) : Carries (cap.token mac master) (cap.digest mac master) := by
  cases cap with
  | bound role id => exact (scopedToken_carries master role.text id).mpr rfl
  | expiring id issued =>
    show hexDecode (signature (issuedToken mac master id issued)) = _
    unfold signature
    rw [issuedToken_parts]
    exact hexDecode_hexEncode _

/-- A snapshot's token serves as the key of the agent tokens below it. -/
theorem presents_delegated {id : Text} (member : .bound .snapshot id ∈ held) (role r : Text) :
    Presents mac outside master held
      (scopedToken mac (Capability.token mac master (.bound .snapshot id)) role r) := by
  intro key message carries
  rw [(scopedToken_carries _ _ _).mp carries]
  exact .derived (.held member) (token_carries (.bound .snapshot id))

end Signatures

section Confinement
variable {mac : Mac} {outside : Bytes → Prop} {master : Text} {held : Set Capability}

theorem Knows.isMac {bytes : Bytes} (known : Knows mac outside master held bytes) :
    ∃ key message, bytes = mac key message := by
  cases known with
  | held => exact ⟨_, _, rfl⟩
  | outside => exact ⟨_, _, rfl⟩
  | derived => exact ⟨_, _, rfl⟩

/-- Under the relay key a party knows only what it was given. -/
theorem knows_master (ideal : Ideal mac outside master) {message : Text}
    (known : Knows mac outside master held (mac (utf8 master) (utf8 message))) :
    ∃ cap ∈ held, cap.message = message := by
  generalize whole : mac (utf8 master) (utf8 message) = bytes at known
  cases known with
  | @held cap member =>
    have same := (ideal.injective _ _ _ _ whole).2
    exact ⟨cap, member, (utf8_injective same).symm⟩
  | outside own =>
    rw [← (ideal.injective _ _ _ _ whole).1] at own
    exact absurd own ideal.secret
  | derived known carries =>
    have key := utf8_injective (ideal.injective _ _ _ _ whole).1
    obtain ⟨_, _, rfl⟩ := known.isMac
    rw [← key] at carries
    exact absurd carries (ideal.fresh _ _)

/-- Under a snapshot's seed it knows something only if it holds the seed. -/
theorem knows_seed (ideal : Ideal mac outside master) {parent message : Text}
    (known : Knows mac outside master held
      (mac (utf8 (scopedToken mac master Role.snapshot.text parent)) (utf8 message))) :
    ∃ cap ∈ held, cap.message = Tokens.message Role.snapshot.text parent := by
  have seed : Carries (scopedToken mac master Role.snapshot.text parent)
      (digest mac master Role.snapshot.text parent) :=
    (scopedToken_carries master Role.snapshot.text parent).mpr rfl
  generalize whole : mac (utf8 (scopedToken mac master Role.snapshot.text parent)) (utf8 message) =
    bytes at known
  cases known with
  | held =>
    have key := utf8_injective (ideal.injective _ _ _ _ whole).1
    rw [key] at seed
    exact absurd seed (ideal.fresh _ _)
  | outside own =>
    rw [← (ideal.injective _ _ _ _ whole).1] at own
    exact absurd (ideal.uninverted _ _ _ own seed) ideal.secret
  | derived known carries =>
    have key := utf8_injective (ideal.injective _ _ _ _ whole).1
    rw [← key] at carries
    rw [(scopedToken_carries _ _ _).mp carries] at known
    exact knows_master ideal known

end Confinement

section Coverage
variable {cap : Capability} {role r : Text} {now : Int}

theorem role_text_injective {first second : Role} (same : first.text = second.text) : first = second := by
  revert same
  cases first <;> cases second <;> decide

theorem covers_plain (valid : Plain cap.route) (plain : Plain r)
    (same : cap.message = message role r) : cap.Covers role r now := by
  cases cap with
  | bound role' id =>
    obtain ⟨roles, routes⟩ := message_inj valid.clean plain.clean same
    exact .inl ⟨roles.symm, routes.symm⟩
  | expiring id issued => exact absurd same.symm (message_ne_expiring plain)

theorem covers_bootstrap {parent child : Text} (valid : Plain cap.route) (plain : Plain parent)
    (same : cap.message = message Role.snapshot.text parent) :
    cap.Covers Role.agent.text (parent ++ '~' :: child) now := by
  cases cap with
  | bound role' id =>
    obtain ⟨roles, routes⟩ := message_inj valid.clean plain.clean same
    exact .inr ⟨role_text_injective roles, rfl, child, by rw [← routes]; rfl⟩
  | expiring id issued => exact absurd same.symm (message_ne_expiring plain)

theorem covers_expiring {expiry : Int} (valid : Plain cap.route) (later : now < expiry)
    (soon : expiry ≤ now + 300)
    (same : cap.message = message CLIENT_EXPIRING (expiringRoute r expiry)) :
    cap.Covers Role.client.text r now := by
  cases cap with
  | bound role' id => exact absurd same (message_ne_expiring valid)
  | expiring id issued =>
    obtain ⟨rfl, rfl⟩ := message_expiring_inj same
    exact ⟨rfl, rfl, by omega, later⟩

end Coverage

section Verification
variable {mac : Mac} {outside : Bytes → Prop} {master : Text}

theorem key_master {role boxId : Text} (other : role = Role.agent.text → '~' ∉ boxId) :
    verificationKey mac master role boxId = master := by
  unfold verificationKey
  split
  next agent => rw [splitOnce_none (other agent)]
  next => rfl

/-- The accesses whose signature is checked under the relay key, and those of bootstrap agents. -/
theorem key_cases (role boxId : Text) :
    verificationKey mac master role boxId = master ∨
      ∃ parent child, role = Role.agent.text ∧ boxId = parent ++ '~' :: child ∧
        splitOnce '~' boxId = some (parent, child) ∧
        verificationKey mac master role boxId = scopedToken mac master Role.snapshot.text parent := by
  by_cases agent : role = Role.agent.text
  · cases split : splitOnce '~' boxId with
    | none => exact .inl (by simp [verificationKey, agent, split])
    | some parts =>
      refine .inr ⟨parts.1, parts.2, agent, (splitOnce_some split).1, rfl, ?_⟩
      simp [verificationKey, agent, split]
  · exact .inl (if_neg agent)

theorem confined (ideal : Ideal mac outside master) (held : Set Capability) (role r token : Text)
    (now : Int) (valid : ∀ cap ∈ held, validRoute cap.route = true) (route : validRoute r = true)
    (presents : Presents mac outside master held token)
    (accepted : authorisedConnection mac master role r token now = true) :
    ∃ cap ∈ held, cap.Covers role r now := by
  have plain := validRoute_plain route
  rcases authorisedConnection_iff.mp accepted with ⟨client, _, expiring⟩ | direct
  · obtain ⟨time, sign, expiry, parts, _, later, soon, signed⟩ := authorisedExpiring_iff.mp expiring
    have carries : Carries token (digest mac master CLIENT_EXPIRING (expiringRoute r expiry)) := by
      unfold Carries signature
      rw [parts]
      exact signed
    obtain ⟨cap, member, same⟩ := knows_master ideal (presents _ _ carries)
    refine ⟨cap, member, ?_⟩
    rw [client]
    exact covers_expiring (validRoute_plain (valid cap member)) later (by omega) same
  · have signed := authorised_iff.mp direct
    have known := presents _ _ (carries_of_decode signed)
    rcases key_cases role r with key | ⟨parent, child, agent, whole, split, key⟩
    · rw [key] at known
      obtain ⟨cap, member, same⟩ := knows_master ideal known
      exact ⟨cap, member, covers_plain (validRoute_plain (valid cap member)) plain same⟩
    · rw [key] at known
      obtain ⟨cap, member, same⟩ := knows_seed ideal known
      have box : validBoxId parent = true := by
        unfold validRoute at route
        rw [split] at route
        exact (Bool.and_eq_true_iff.mp route).1
      refine ⟨cap, member, ?_⟩
      rw [agent, whole]
      exact covers_bootstrap (validRoute_plain (valid cap member)) (validBoxId_plain box) same

/-- A token derived under the verifier's key is accepted. -/
theorem accepts_own {key role boxId : Text} (now : Int) (same : verificationKey mac master role boxId = key) :
    authorisedConnection mac master role boxId (scopedToken mac key role boxId) now = true := by
  refine authorisedConnection_iff.mpr (.inr (authorised_iff.mpr ?_))
  rw [same]
  exact hexDecode_hexEncode _

theorem accepts_issued (id : Text) (issued : Timestamp) {now : Int} (begun : issued.seconds ≤ now)
    (current : now < issued.seconds + 300) :
    authorisedConnection mac master Role.client.text id (issuedToken mac master id issued) now = true := by
  obtain ⟨low, high⟩ := issued.range
  refine authorisedConnection_iff.mpr (.inl ⟨rfl, ?_, ?_⟩)
  · unfold issuedToken
    rw [List.append_assoc]
    exact List.isPrefixOf_iff_prefix.mpr (List.prefix_append _ _)
  · have read : parseSigned i64Min i64Max (showInt (issued.seconds + 300)) = some (issued.seconds + 300) :=
      parseSigned_showInt (by unfold i64Min; omega) (by unfold i64Max; omega)
    refine authorisedExpiring_iff.mpr ⟨_, _, _, issuedToken_parts id issued, read, current, ?_, ?_⟩
    · unfold i64Max
      omega
    · exact hexDecode_hexEncode _

/-- The tokens of an ideal MAC separate every role, route and time they are derived for. -/
theorem tokens_separated (mac : Mac) (outside : Bytes → Prop) (master : Text)
    (ideal : Ideal mac outside master) : Separated mac outside master where
  confined := confined ideal
  bound role id now _ other := by
    apply accepts_own now
    exact key_master fun agent => other (role_text_injective agent)
  bootstrap parent child now valid := by
    apply accepts_own now
    simp [verificationKey, bootstrap_parts valid, Capability.token]
  expiring id issued now _ begun current := accepts_issued id issued begun current

end Verification

section Sample

def sampleMaster : Text := "test-only-relay-master-key-32-characters".toList
def sampleParent : Text := "pbx_12345678".toList
def sampleChild : Text := "pbx_12345678~pbx_abcdefgh".toList

/-- HMAC-SHA256 of the snapshot's message under the sample key. -/
def sampleSeed : Bytes :=
  [0x6f, 0x43, 0x63, 0x3f, 0xe1, 0x8c, 0x27, 0xbc, 0x0d, 0x1a, 0x51, 0xaa, 0x9d, 0xfb, 0xa9, 0xe7,
   0x1c, 0x97, 0x4c, 0x92, 0xef, 0x0b, 0xb3, 0x13, 0x08, 0x2a, 0xfe, 0x70, 0x5f, 0x8a, 0xe1, 0x22]

/-- HMAC-SHA256 of the bootstrap agent's message under the text of that seed. -/
def sampleDelegated : Bytes :=
  [0xe5, 0x51, 0xc0, 0xe5, 0xeb, 0xe9, 0x36, 0xfc, 0x53, 0x34, 0xe5, 0x0f, 0xb0, 0x1a, 0xb4, 0x15,
   0xde, 0x2a, 0x54, 0xae, 0x24, 0x7f, 0x9f, 0xb1, 0xbe, 0xd3, 0x50, 0xbe, 0x6c, 0x6e, 0x61, 0xd2]

/-- A pair of byte strings as one: the length of the first in zeros stands before both. -/
def paired (key message : Bytes) : Bytes := List.replicate key.length 0 ++ 1 :: (key ++ message)

def sampleMac (key message : Bytes) : Bytes :=
  if key = utf8 sampleMaster ∧ message = utf8 (Tokens.message Role.snapshot.text sampleParent) then sampleSeed
  else if key = utf8 (hexEncode sampleSeed) ∧ message = utf8 (Tokens.message Role.agent.text sampleChild) then
    sampleDelegated
  else paired key message

theorem paired_injective {key message key' message' : Bytes}
    (same : paired key message = paired key' message') : key = key' ∧ message = message' := by
  have zeros (k m : Bytes) : (paired k m).takeWhile (· == 0) = List.replicate k.length 0 := by
    unfold paired
    rw [List.takeWhile_append_of_pos (by simp)]
    simp
  have lengths : key.length = key'.length := by
    have counts := congrArg (fun bytes => (bytes.takeWhile (· == 0)).length) same
    simpa [zeros] using counts
  unfold paired at same
  rw [lengths] at same
  have rest := List.tail_eq_of_cons_eq (List.append_cancel_left same)
  exact List.append_inj rest lengths

theorem paired_head (key message : Bytes) : (paired key message).head? = some 0 ∨
    (paired key message).head? = some 1 := by
  cases key with
  | nil => exact .inr rfl
  | cons => exact .inl rfl

theorem sampleMac_injective (key message key' message' : Bytes)
    (same : sampleMac key message = sampleMac key' message') : key = key' ∧ message = message' := by
  have seed (k m : Bytes) : paired k m ≠ sampleSeed := by
    intro equal
    rcases paired_head k m with zero | one <;> simp_all [sampleSeed]
  have delegated (k m : Bytes) : paired k m ≠ sampleDelegated := by
    intro equal
    rcases paired_head k m with zero | one <;> simp_all [sampleDelegated]
  have different : sampleSeed ≠ sampleDelegated := by decide
  unfold sampleMac at same
  grind [paired_injective]

theorem sampleMac_ideal :
    Ideal sampleMac (fun key => key = utf8 "attacker".toList) sampleMaster where
  injective := sampleMac_injective
  uninverted token key message own carries := by
    rw [utf8_injective own] at carries
    have unreadable : hexDecode (signature "attacker".toList) = none := by decide
    rw [Carries, unreadable] at carries
    cases carries
  secret := by decide
  fresh key message carries := by
    have unreadable : hexDecode (signature sampleMaster) = none := by decide
    rw [Carries, unreadable] at carries
    cases carries

/-- A snapshot bootstraps an agent with the token it derives, and what it presents is covered. -/
theorem sample_tokens_separated :
    authorisedConnection sampleMac sampleMaster Role.agent.text sampleChild
        (hexEncode sampleDelegated) 1700000000 = true ∧
      ∃ cap ∈ ({.bound .snapshot sampleParent} : Set Capability),
        cap.Covers Role.agent.text sampleChild 1700000000 := by
  have separated := tokens_separated sampleMac _ sampleMaster sampleMac_ideal
  have token : scopedToken sampleMac (Capability.token sampleMac sampleMaster (.bound .snapshot sampleParent))
      Role.agent.text sampleChild = hexEncode sampleDelegated := by decide
  have accepted := separated.bootstrap sampleParent "pbx_abcdefgh".toList 1700000000 (by decide)
  have presents : Presents sampleMac (fun key => key = utf8 "attacker".toList) sampleMaster
      {.bound .snapshot sampleParent}
      (scopedToken sampleMac (Capability.token sampleMac sampleMaster (.bound .snapshot sampleParent))
        Role.agent.text sampleChild) :=
    presents_delegated (Set.mem_singleton _) _ _
  refine ⟨token ▸ accepted, ?_⟩
  refine separated.confined _ _ _ _ _ ?_ (by decide) presents accepted
  intro cap member
  rw [Set.mem_singleton_iff.mp member]
  decide

end Sample

end Pbox.Relay.Authority
