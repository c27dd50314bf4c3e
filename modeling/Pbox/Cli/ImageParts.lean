import Pbox.Cli.Images
import Pbox.Lib.Checks

/-! What the scanners of the parts of a reference accept, character by character: host and port, path, tag and
digest. -/

namespace Pbox.Cli.Images
open Pbox.Lib.Strings Pbox.Lib.Numerals Pbox.Lib.Ascii Pbox.Lib.Checks

section Bytes
variable {c : Char} {b : UInt8} {text : Text}

theorem byte_le {low b : UInt8} : decide (low ≤ b) = true ↔ low.toNat ≤ b.toNat := by
  rw [decide_eq_true_iff]
  exact Iff.rfl

theorem alphanumericByte_iff : alphanumericByte b = true ↔
    (48 ≤ b.toNat ∧ b.toNat ≤ 57) ∨ (65 ≤ b.toNat ∧ b.toNat ≤ 90) ∨ 97 ≤ b.toNat ∧ b.toNat ≤ 122 := by
  simp only [alphanumericByte, Bool.or_eq_true, Bool.and_eq_true, byte_le, or_assoc]
  exact Iff.rfl

theorem between_iff {low high : UInt32} : (decide (low ≤ c.val) && decide (c.val ≤ high)) = true ↔
    low.toNat ≤ c.toNat ∧ c.toNat ≤ high.toNat := by
  rw [Bool.and_eq_true, decide_eq_true_iff, decide_eq_true_iff]
  exact Iff.rfl

theorem isUpper_iff : c.isUpper = true ↔ 65 ≤ c.toNat ∧ c.toNat ≤ 90 := decide_eq_true_iff

theorem isLower_iff : c.isLower = true ↔ 97 ≤ c.toNat ∧ c.toNat ≤ 122 := between_iff

theorem isDigit_iff : c.isDigit = true ↔ 48 ≤ c.toNat ∧ c.toNat ≤ 57 := between_iff

theorem alphanum_iff : c.isAlphanum = true ↔
    (48 ≤ c.toNat ∧ c.toNat ≤ 57) ∨ (65 ≤ c.toNat ∧ c.toNat ≤ 90) ∨ 97 ≤ c.toNat ∧ c.toNat ≤ 122 := by
  have parts : c.isAlphanum = ((c.isUpper || c.isLower) || c.isDigit) := rfl
  rw [parts, Bool.or_eq_true, Bool.or_eq_true, isUpper_iff, isLower_iff, isDigit_iff]
  omega

theorem alphanumericByte_byteOf (ascii : c.toNat < 128) : alphanumericByte (byteOf c) = c.isAlphanum := by
  rw [Bool.eq_iff_iff, alphanumericByte_iff, alphanum_iff, byteOf_toNat ascii]

theorem alphanum_ascii (own : c.isAlphanum = true) : c.toNat < 128 := by
  have bounds := alphanum_iff.mp own
  omega

theorem alphanumericByte_small (own : alphanumericByte b = true) : b.toNat < 128 := by
  have bounds := alphanumericByte_iff.mp own
  omega

end Bytes

section Host
variable {text : Text} {c : Char}

/-- A part of a host: letters, digits and hyphens, of which the hyphens are inner ones. -/
structure Label (text : Text) : Prop where
  characters : ∀ c ∈ text, c.isAlphanum = true ∨ c = '-'
  first : ∃ c ∈ text.head?, c.isAlphanum = true
  last : ∃ c ∈ text.getLast?, c.isAlphanum = true

theorem any_byteOf {found : Option Char} (ascii : ∀ c ∈ found, c.toNat < 128) :
    (found.map byteOf).any alphanumericByte = true ↔ ∃ c ∈ found, c.isAlphanum = true := by
  cases found with
  | none => exact iff_of_false Bool.false_ne_true fun ⟨_, wrong, _⟩ => nomatch wrong
  | some d =>
    rw [Option.map_some, Option.any_some, alphanumericByte_byteOf (ascii d rfl)]
    exact ⟨fun own => ⟨d, rfl, own⟩, fun ⟨_, same, own⟩ => Option.some.inj same ▸ own⟩

theorem labelBytes_iff : ((utf8 text).all fun b => alphanumericByte b || b == 45) = true ↔
    ∀ c ∈ text, c.isAlphanum = true ∨ c = '-' := by
  apply all_bytes
  · intro b own
    rcases (Bool.or_eq_true _ _).mp own with own | hyphen
    · exact alphanumericByte_small own
    · rw [beq_iff_eq.mp hyphen]
      decide
  · rintro c (own | rfl)
    · exact alphanum_ascii own
    · decide
  · intro c ascii
    have hyphen : (byteOf c == 45) = (c == '-') := byteOf_beq ascii (show '-'.toNat < 128 by decide)
    rw [alphanumericByte_byteOf ascii, hyphen, Bool.or_eq_true, beq_iff_eq]

theorem hostLabel_iff : hostLabel text = true ↔ Label text := by
  have ascii (every : ∀ c ∈ text, c.isAlphanum = true ∨ c = '-') : IsAscii text := by
    intro c member
    rcases every c member with own | rfl
    · exact alphanum_ascii own
    · decide
  have ends (every : ∀ c ∈ text, c.isAlphanum = true ∨ c = '-') :
      ((utf8 text).head?.any alphanumericByte = true ↔ ∃ c ∈ text.head?, c.isAlphanum = true) ∧
        ((utf8 text).getLast?.any alphanumericByte = true ↔ ∃ c ∈ text.getLast?, c.isAlphanum = true) := by
    rw [utf8_ascii (ascii every), List.head?_map, List.getLast?_map]
    exact ⟨any_byteOf fun c member => ascii every c (List.mem_of_head? member),
      any_byteOf fun c member => ascii every c (List.mem_of_getLast? member)⟩
  rw [hostLabel, Bool.and_eq_true, Bool.and_eq_true, labelBytes_iff]
  constructor
  · intro given
    obtain ⟨⟨first, last⟩, every⟩ := given
    exact ⟨every, (ends every).1.mp first, (ends every).2.mp last⟩
  · intro given
    obtain ⟨every, first, last⟩ := given
    exact ⟨⟨(ends every).1.mpr first, (ends every).2.mpr last⟩, every⟩

/-- The host of a registry. -/
def Host (text : Text) : Prop := ∀ part ∈ text.splitOn '.', Label part

def Port (text : Text) : Prop := ∃ n, parseUnsigned u16Max text = some n ∧ 0 < n

inductive Registry : Text → Prop where
  | plain {host : Text} (labels : Host host) : Registry host
  | port {host port : Text} (labels : Host host) (number : Port port) : Registry (host ++ ':' :: port)

theorem Label.nonempty (label : Label text) : text ≠ [] := by
  obtain ⟨c, first, _⟩ := label.first
  intro same
  subst same
  cases first

theorem Host.nonempty (host : Host text) : text ≠ [] := by
  intro same
  subst same
  exact (host [] (List.mem_singleton_self [])).nonempty rfl

theorem Host.characters (host : Host text) (member : c ∈ text) : c.isAlphanum = true ∨ c = '-' ∨ c = '.' := by
  rcases @mem_splitOn '.' c text member with dot | ⟨part, listed, inside⟩
  · exact .inr (.inr dot)
  · exact ((host part listed).characters c inside).imp_right .inl

theorem Port.characters (port : Port text) (member : c ∈ text) : c.isDigit = true ∨ c = '+' := by
  obtain ⟨n, read, _⟩ := port
  obtain ⟨read, _⟩ := Option.filter_eq_some_iff.mp read
  have digit := (digits_some read).2.1
  unfold afterPlus at digit
  split at digit
  next rest =>
    rcases List.mem_cons.mp member with plus | later
    · exact .inr plus
    · exact .inl (digit c later)
  next => exact .inl (digit c member)

theorem Port.noColon (port : Port text) : ':' ∉ text := by
  intro member
  rcases port.characters member with wrong | wrong <;> revert wrong <;> decide

theorem Host.noColon (host : Host text) : ':' ∉ text := by
  intro member
  rcases host.characters member with wrong | wrong | wrong <;> revert wrong <;> decide

theorem hostLabels_iff : (text.isEmpty || (text.splitOn '.').any (!hostLabel ·)) = false ↔ Host text := by
  rw [Bool.or_eq_false_iff, List.any_eq_false]
  constructor
  · rintro ⟨_, every⟩ part listed
    exact hostLabel_iff.mp (by simpa using every part listed)
  · intro host
    refine ⟨List.isEmpty_eq_false_iff.mpr host.nonempty, fun part listed => ?_⟩
    rw [hostLabel_iff.mpr (host part listed)]
    decide

theorem portNumber_iff : ((parseUnsigned u16Max text).filter (0 < ·)).isNone = false ↔ Port text := by
  unfold Port
  cases parseUnsigned u16Max text with
  | none => exact iff_of_false (by decide) fun ⟨_, wrong, _⟩ => nomatch wrong
  | some n =>
    rw [Option.isNone_eq_false_iff, Option.isSome_filter, Option.any_some, decide_eq_true_iff]
    exact ⟨fun positive => ⟨n, rfl, positive⟩, fun ⟨_, same, positive⟩ => Option.some.inj same ▸ positive⟩

/-- Where the last colon is decides what a registry's host is. -/
theorem registry_iff : Registry text ↔
    match rsplitOnce ':' text with
    | none => Host text
    | some (host, port) => Host host ∧ Port port := by
  constructor
  · rintro (⟨labels⟩ | ⟨labels, number⟩)
    · rw [rsplitOnce_none labels.noColon]
      exact labels
    · rw [rsplitOnce_append number.noColon]
      exact ⟨labels, number⟩
  · intro parts
    cases split : rsplitOnce ':' text with
    | none =>
      rw [split] at parts
      exact .plain parts
    | some found =>
      obtain ⟨host, port⟩ := found
      rw [split] at parts
      rw [(rsplitOnce_some split).1]
      exact .port parts.1 parts.2

theorem validateNameComponent_iff {label : String} {value result : Text} :
    validateNameComponent value label = .ok result ↔ Registry value ∧ result = lower value := by
  rw [registry_iff]
  unfold validateNameComponent
  cases split : rsplitOnce ':' value with
  | none =>
    simp only [throw_iff, Bool.not_eq_true]
    rw [hostLabels_iff]
    exact and_congr_right fun _ => ⟨fun done => (Except.ok.inj done.2).symm, fun same => ⟨rfl, congrArg _ same.symm⟩⟩
  | some parts =>
    obtain ⟨host, port⟩ := parts
    simp only [throw_iff, Bool.not_eq_true]
    rw [hostLabels_iff, Option.any_some, portNumber_iff, and_assoc]
    refine and_congr_right fun _ => and_congr_right fun _ => ?_
    exact ⟨fun done => (Except.ok.inj done).symm, fun same => congrArg _ same.symm⟩

theorem lower_mem {mark : Char} (letter : ¬(97 ≤ mark.toNat ∧ mark.toNat ≤ 122)) (own : mark.toLower = mark) :
    mark ∈ lower text ↔ mark ∈ text := by
  constructor
  · intro member
    obtain ⟨d, there, same⟩ := List.mem_map.mp member
    rwa [← (toLower_eq_iff letter own).mp same]
  · exact fun member => own ▸ List.mem_map_of_mem member

theorem lower_lower : lower (lower text) = lower text := by
  unfold lower
  rw [List.map_map]
  exact List.map_congr_left fun c _ => toLower_toLower c

theorem alphanum_lower (own : c.isAlphanum = true) : c.toLower.isAlphanum = true := by
  rcases toLower_cases c with ⟨_, same⟩ | ⟨capital, shifted⟩
  · rwa [same]
  · rw [alphanum_iff]
    omega

theorem Label.lower (label : Label text) : Label (lower text) := by
  have ends {found : Option Char} (own : ∃ c ∈ found, c.isAlphanum = true) :
      ∃ c ∈ found.map Char.toLower, c.isAlphanum = true := by
    obtain ⟨c, there, own⟩ := own
    exact ⟨c.toLower, Option.mem_map_of_mem Char.toLower there, alphanum_lower own⟩
  refine ⟨fun d member => ?_, ?_, ?_⟩
  · obtain ⟨c, there, rfl⟩ := List.mem_map.mp member
    rcases label.characters c there with own | rfl
    · exact .inl (alphanum_lower own)
    · exact .inr rfl
  · unfold Images.lower
    rw [List.head?_map]
    exact ends label.first
  · unfold Images.lower
    rw [List.getLast?_map]
    exact ends label.last

theorem Host.lower (host : Host text) : Host (lower text) := by
  intro part listed
  unfold Images.lower at listed
  rw [splitOn_map fun c => toLower_eq_iff (by decide) rfl] at listed
  obtain ⟨original, there, rfl⟩ := List.mem_map.mp listed
  exact (host original there).lower

theorem Port.lower (port : Port text) : lower text = text := by
  unfold Images.lower
  conv => rhs; rw [← List.map_id text]
  apply List.map_congr_left
  intro c member
  apply toLower_plain
  rcases port.characters member with digit | rfl
  · have bounds := digit_bounds digit
    omega
  · decide

theorem Registry.lower (registry : Registry text) : Registry (lower text) := by
  cases registry with
  | plain labels => exact .plain labels.lower
  | @port host port labels number =>
    have own : Images.lower (host ++ ':' :: port) = Images.lower host ++ ':' :: port := by
      conv => rhs; rw [← number.lower]
      exact List.map_append
    rw [own]
    exact .port labels.lower number

theorem isRegistryHost_iff :
    isRegistryHost text = true ↔ text = "localhost".toList ∨ '.' ∈ text ∨ ':' ∈ text := by
  rw [isRegistryHost, Bool.or_eq_true, Bool.or_eq_true, beq_iff_eq, List.contains_iff_mem, List.contains_iff_mem, or_assoc]

theorem isRegistryHost_lower (host : isRegistryHost text = true) : isRegistryHost (lower text) = true := by
  rw [isRegistryHost_iff] at host ⊢
  rw [lower_mem (by decide) rfl, lower_mem (by decide) rfl]
  rcases host with rfl | inside
  · exact .inl rfl
  · exact .inr inside

end Host

section Repository
variable {text : Text} {c : Char}

/-- The characters of a path. -/
def PathCharacter (c : Char) : Prop := c.isAlphanum = true ∨ c = '.' ∨ c = '_' ∨ c = '-'

def pathByte (b : UInt8) : Bool := alphanumericByte b || b == 46 || b == 95 || b == 45

theorem afterSeparator_bytes {b : UInt8} {rest more : List UInt8} (found : afterSeparator b rest = some more) :
    pathByte b = true ∧ ∀ x ∈ rest, x ∈ more ∨ pathByte x = true := by
  unfold afterSeparator at found
  split_ifs at found with dot underscore double hyphen
  · cases found
    exact ⟨dot ▸ rfl, fun x member => .inl member⟩
  · cases found
    refine ⟨underscore ▸ rfl, fun x member => ?_⟩
    obtain ⟨later, shape⟩ := List.head?_eq_some_iff.mp double
    rw [shape] at member ⊢
    rcases List.mem_cons.mp member with rfl | later
    · exact .inr rfl
    · exact .inl later
  · cases found
    exact ⟨underscore ▸ rfl, fun x member => .inl member⟩
  · cases found
    refine ⟨hyphen ▸ rfl, fun x member => ?_⟩
    rw [← @List.takeWhile_append_dropWhile _ (· == 45) rest] at member
    rcases List.mem_append.mp member with run | later
    · have own : (x == 45) = true := List.all_eq_true.mp List.all_takeWhile x run
      rw [beq_iff_eq.mp own]
      exact .inr rfl
    · exact .inl later

theorem componentLoop_bytes {turns : Nat} {bytes : List UInt8} (valid : componentLoop turns bytes = true) :
    ∀ b ∈ bytes, pathByte b = true := by
  have letter {b : UInt8} (own : alphanumericByte b = true) : pathByte b = true := by
    rw [pathByte, own]
    rfl
  fun_induction componentLoop turns bytes with
  | case1 => exact List.forall_mem_nil _
  | case2 => cases valid
  | case3 turns b rest own ih => exact List.forall_mem_cons.mpr ⟨letter own, ih valid⟩
  | case4 => cases valid
  | case5 => cases valid
  | case6 turns b rest other c later found ih =>
    rw [Bool.and_eq_true] at valid
    obtain ⟨here, behind⟩ := afterSeparator_bytes found
    refine List.forall_mem_cons.mpr ⟨here, fun x member => ?_⟩
    rcases behind x member with again | own
    · rcases List.mem_cons.mp again with rfl | again
      · exact letter valid.1
      · exact ih valid.2 x again
    · exact own

theorem pathCharacter_ascii (own : PathCharacter c) : c.toNat < 128 := by
  rcases own with own | rfl | rfl | rfl
  · exact alphanum_ascii own
  · decide
  · decide
  · decide

theorem pathByte_iff : ((utf8 text).all pathByte = true) ↔ ∀ c ∈ text, PathCharacter c := by
  apply all_bytes
  · intro b own
    simp only [pathByte, Bool.or_eq_true, beq_iff_eq] at own
    rcases own with ((own | rfl) | rfl) | rfl
    · exact alphanumericByte_small own
    · decide
    · decide
    · decide
  · exact fun c => pathCharacter_ascii
  · intro c ascii
    have dot : (byteOf c == 46) = (c == '.') := byteOf_beq ascii (show '.'.toNat < 128 by decide)
    have underscore : (byteOf c == 95) = (c == '_') := byteOf_beq ascii (show '_'.toNat < 128 by decide)
    have hyphen : (byteOf c == 45) = (c == '-') := byteOf_beq ascii (show '-'.toNat < 128 by decide)
    rw [pathByte, alphanumericByte_byteOf ascii, dot, underscore, hyphen]
    simp only [Bool.or_eq_true, beq_iff_eq, or_assoc]
    exact Iff.rfl

theorem validRepositoryComponent_characters (valid : validRepositoryComponent text = true) :
    ∀ c ∈ text, PathCharacter c := by
  rw [← pathByte_iff, List.all_eq_true]
  unfold validRepositoryComponent at valid
  split at valid
  next => cases valid
  next b rest same =>
    rw [Bool.and_eq_true] at valid
    rw [same]
    refine List.forall_mem_cons.mpr ⟨?_, componentLoop_bytes valid.2⟩
    rw [pathByte, valid.1]
    rfl

theorem validateRepository_iff {result : Text} : validateRepository text = .ok result ↔
    (text ≠ [] ∧ ∀ part ∈ text.splitOn '/', validRepositoryComponent part = true) ∧ result = text := by
  unfold validateRepository
  split
  next bad =>
    refine iff_of_false (fun wrong => nomatch wrong) ?_
    intro given
    obtain ⟨⟨nonempty, every⟩, _⟩ := given
    rcases (Bool.or_eq_true _ _).mp bad with empty | wrong
    · exact nonempty (List.isEmpty_iff.mp empty)
    · obtain ⟨part, listed, wrong⟩ := List.any_eq_true.mp wrong
      rw [every part listed] at wrong
      cases wrong
  next good =>
    rw [Bool.not_eq_true, Bool.or_eq_false_iff, List.any_eq_false] at good
    have every : ∀ part ∈ text.splitOn '/', validRepositoryComponent part = true := fun part listed => by
      simpa using good.2 part listed
    exact ⟨fun same => ⟨⟨List.isEmpty_eq_false_iff.mp good.1, every⟩, (Except.ok.inj same).symm⟩, fun same =>
      congrArg _ same.2.symm⟩

theorem validateTag_iff {result : Text} : validateTag text = .ok result ↔
    (text ≠ [] ∧ text.length ≤ 128 ∧ (∀ c ∈ text, PathCharacter c) ∧
      ∀ c ∈ text.head?, c.isAlphanum = true ∨ c = '_') ∧ result = text := by
  have inner : text.any (fun c => !c.isAlphanum && c != '.' && c != '-' && c != '_') = false ↔
      ∀ c ∈ text, PathCharacter c := by
    rw [List.any_eq_false]
    refine forall₂_congr fun c _ => ?_
    simp only [Bool.and_eq_true, Bool.not_eq_true', bne_iff_ne, PathCharacter]
    grind
  have first : text.head?.any (fun c => !c.isAlphanum && c != '_') = false ↔
      ∀ c ∈ text.head?, c.isAlphanum = true ∨ c = '_' := by
    rw [Option.any_eq_false]
    refine forall₂_congr fun c _ => ?_
    simp only [Bool.and_eq_false_iff, Bool.not_eq_false', bne_eq_false_iff_eq]
  have length (every : ∀ c ∈ text, PathCharacter c) : (utf8 text).length = text.length := by
    rw [utf8_ascii fun c member => pathCharacter_ascii (every c member), List.length_map]
  unfold validateTag
  split
  next bad =>
    refine iff_of_false (fun wrong => nomatch wrong) ?_
    intro given
    obtain ⟨⟨nonempty, short, every, start⟩, _⟩ := given
    rw [inner.mpr every, first.mpr start, length every, List.isEmpty_eq_false_iff.mpr nonempty] at bad
    simp only [Bool.or_false, Bool.false_or, decide_eq_true_eq] at bad
    omega
  next good =>
    simp only [Bool.not_eq_true, Bool.or_eq_false_iff, inner, first, decide_eq_false_iff_not] at good
    obtain ⟨⟨⟨nonempty, short⟩, every⟩, start⟩ := good
    rw [length every] at short
    have parts := (⟨List.isEmpty_eq_false_iff.mp nonempty, by omega, every, start⟩ :
      text ≠ [] ∧ text.length ≤ 128 ∧ (∀ c ∈ text, PathCharacter c) ∧ ∀ c ∈ text.head?, c.isAlphanum = true ∨ c = '_')
    exact ⟨fun same => ⟨parts, (Except.ok.inj same).symm⟩, fun same => congrArg _ same.2.symm⟩

def HexDigit (c : Char) : Prop :=
  (48 ≤ c.toNat ∧ c.toNat ≤ 57) ∨ (65 ≤ c.toNat ∧ c.toNat ≤ 70) ∨ 97 ≤ c.toNat ∧ c.toNat ≤ 102

theorem hexdigitByte_iff {b : UInt8} : hexdigitByte b = true ↔
    (48 ≤ b.toNat ∧ b.toNat ≤ 57) ∨ (65 ≤ b.toNat ∧ b.toNat ≤ 70) ∨ 97 ≤ b.toNat ∧ b.toNat ≤ 102 := by
  simp only [hexdigitByte, Bool.or_eq_true, Bool.and_eq_true, byte_le, or_assoc]
  exact Iff.rfl

theorem hexDigit_ascii (own : HexDigit c) : c.toNat < 128 := by
  unfold HexDigit at own
  omega

theorem hexBytes_iff : (utf8 text).all hexdigitByte = true ↔ ∀ c ∈ text, HexDigit c := by
  apply all_bytes
  · intro b own
    have bounds := hexdigitByte_iff.mp own
    omega
  · exact fun c => hexDigit_ascii
  · intro c ascii
    rw [hexdigitByte_iff, byteOf_toNat ascii]
    exact Iff.rfl

theorem validateDigest_iff {result : Text} : validateDigest text = .ok result ↔
    (∃ hex, text = "sha256:".toList ++ hex ∧ hex.length = 64 ∧ ∀ c ∈ hex, HexDigit c) ∧ result = text := by
  have length {hex : Text} (every : ∀ c ∈ hex, HexDigit c) : (utf8 hex).length = hex.length := by
    rw [utf8_ascii fun c member => hexDigit_ascii (every c member), List.length_map]
  unfold validateDigest
  split
  next none =>
    refine iff_of_false (fun wrong => nomatch wrong) ?_
    intro given
    obtain ⟨⟨hex, rfl, _⟩, _⟩ := given
    rw [stripPrefix_append] at none
    cases none
  next hex found =>
    obtain rfl := stripPrefix_some found
    split
    next bad =>
      refine iff_of_false (fun wrong => nomatch wrong) ?_
      intro given
      obtain ⟨⟨other, same, long, every⟩, _⟩ := given
      obtain rfl := List.append_cancel_left same
      rw [hexBytes_iff.mpr every, length every, long] at bad
      exact absurd bad (by decide)
    next good =>
      simp only [Bool.or_eq_true, decide_eq_true_eq, not_or, Decidable.not_not, Bool.not_eq_true', Bool.not_eq_false,
        hexBytes_iff] at good
      obtain ⟨long, every⟩ := good
      rw [length every] at long
      exact ⟨fun same => ⟨⟨hex, rfl, long, every⟩, (Except.ok.inj same).symm⟩, fun same => congrArg _ same.2.symm⟩

end Repository

end Pbox.Cli.Images
