import Pbox.Cli.ImageParts

/-! A reference is read from its canonical form as it was read first. Every decision of `parse` that depends on the place
of a slash, a colon or an at sign is made again on the rewritten text, and comes out the same. -/

namespace Pbox.Cli.Images
open Pbox.Lib.Strings Pbox.Lib.Numerals Pbox.Lib.Ascii Pbox.Lib.Checks

/-- What `parse` has checked of the reference it returns. -/
structure Valid (reference : ImageReference) : Prop where
  registry : Registry reference.registry
  host : isRegistryHost reference.registry = true
  lowered : lower reference.registry = reference.registry
  repository : validateRepository reference.repository = .ok reference.repository
  repositoryLowered : lower reference.repository = reference.repository
  hub : reference.registry = "docker.io".toList → '/' ∈ reference.repository
  version : (∃ tag, reference.tag = some tag ∧ reference.digest = none ∧ validateTag tag = .ok tag) ∨
    ∃ digest, reference.tag = none ∧ reference.digest = some digest ∧ validateDigest digest = .ok digest

section Reading
variable {input value name registry repository : Text} {tag digest : Option Text} {reference : ImageReference}

theorem splitVersion_valid (split : splitVersion input value = .ok (name, tag, digest)) :
    (∃ text, tag = some text ∧ digest = none ∧ validateTag text = .ok text) ∨
      ∃ text, tag = none ∧ digest = some text ∧ validateDigest text = .ok text := by
  unfold splitVersion at split
  split at split
  next front text _ =>
    simp only [throw_iff] at split
    obtain ⟨checked, valid, same⟩ := bind_ok split.2.2
    cases same
    obtain ⟨parts, rfl⟩ := validateDigest_iff.mp valid
    exact .inr ⟨_, rfl, rfl, validateDigest_iff.mpr ⟨parts, rfl⟩⟩
  next =>
    simp only [] at split
    split at split
    next position _ =>
      obtain ⟨checked, valid, same⟩ := bind_ok split
      cases same
      obtain ⟨parts, rfl⟩ := validateTag_iff.mp valid
      exact .inl ⟨_, rfl, rfl, validateTag_iff.mpr ⟨parts, rfl⟩⟩
    next =>
      cases split
      exact .inl ⟨_, rfl, rfl, by decide⟩

theorem mem_of_parts (path : 1 < (name.splitOn '/').length) : '/' ∈ name := by
  by_contra absent
  rw [List.splitOn_eq_singleton absent] at path
  exact Nat.lt_irrefl 1 path

/-- The registry that is found is a host, and the one of Docker Hub comes with a namespace. -/
theorem locate_valid (located : locate name = (registry, repository)) :
    isRegistryHost registry = true ∧ (lower registry = "docker.io".toList → '/' ∈ repository) := by
  unfold locate at located
  simp only [] at located
  have named (text : Text) : '/' ∈ "library/".toList ++ text := List.mem_append_left text (by decide)
  split at located
  next host =>
    rw [Bool.and_eq_true] at host
    split at located
    next => 
      cases located
      exact ⟨host.2, fun _ => named _⟩
    next other =>
      cases located
      refine ⟨host.2, fun hub => ?_⟩
      rw [Bool.and_eq_true, not_and, beq_iff_eq] at other
      exact List.contains_iff_mem.mp (by simpa using other hub)
  next =>
    cases located
    refine ⟨by decide, fun _ => ?_⟩
    split
    next path => exact mem_of_parts path
    next => exact named name

theorem parse_valid (parsed : ImageReference.parse input = .ok reference) : Valid reference := by
  unfold ImageReference.parse at parsed
  simp only [throw_iff] at parsed
  obtain ⟨⟨name, tag, digest⟩, versionIs, parsed⟩ := bind_ok parsed.2
  obtain ⟨⟨first, path⟩, located⟩ : ∃ parts, locate name = parts := ⟨_, rfl⟩
  simp only [located] at parsed
  obtain ⟨registry, registryIs, parsed⟩ := bind_ok parsed
  obtain ⟨repository, repositoryIs, parsed⟩ := bind_ok parsed
  cases parsed
  obtain ⟨own, rfl⟩ := validateNameComponent_iff.mp registryIs
  obtain ⟨parts, rfl⟩ := validateRepository_iff.mp repositoryIs
  obtain ⟨host, hub⟩ := locate_valid located
  refine ⟨own.lower, isRegistryHost_lower host, lower_lower, repositoryIs, lower_lower, fun same => ?_, ?_⟩
  · exact (lower_mem (by decide) rfl).mpr (hub same)
  · exact splitVersion_valid versionIs

end Reading

section Again
variable {reference : ImageReference} {c : Char} {text input : Text}

theorem Registry.characters (registry : Registry text) (member : c ∈ text) :
    c.isAlphanum = true ∨ c ∈ ['-', '.', ':', '+'] := by
  have inHost {host : Text} (labels : Host host) (inside : c ∈ host) : c.isAlphanum = true ∨ c ∈ ['-', '.', ':', '+'] := by
    rcases labels.characters inside with own | rfl | rfl
    · exact .inl own
    · exact .inr (by decide)
    · exact .inr (by decide)
  cases registry with
  | plain labels => exact inHost labels member
  | port labels number =>
    rcases List.mem_append.mp member with front | back
    · exact inHost labels front
    · rcases List.mem_cons.mp back with rfl | inPort
      · exact .inr (by decide)
      · rcases number.characters inPort with digit | rfl
        · exact .inl (by rw [Char.isAlphanum, digit, Bool.or_true])
        · exact .inr (by decide)

theorem Valid.noSlash (valid : Valid reference) : '/' ∉ reference.registry := by
  intro member
  rcases valid.registry.characters member with wrong | wrong <;> revert wrong <;> decide

/-- The characters of a path are those of its parts, and slashes. -/
theorem Valid.path_characters (valid : Valid reference) (member : c ∈ reference.repository) :
    PathCharacter c ∨ c = '/' := by
  rcases @mem_splitOn '/' c _ member with slash | ⟨part, listed, inside⟩
  · exact .inr slash
  · have parts := (validateRepository_iff.mp valid.repository).1.2
    exact .inl (validRepositoryComponent_characters (parts part listed) c inside)

theorem Valid.noColon (valid : Valid reference) : ':' ∉ reference.repository := by
  intro member
  rcases valid.path_characters member with wrong | wrong
  · unfold PathCharacter at wrong
    revert wrong
    decide
  · revert wrong
    decide

/-- The two halves of a canonical reference: the full name, and what stands for the version behind it. -/
theorem canonical_cases (valid : Valid reference) :
    (∃ tag, reference.tag = some tag ∧ reference.digest = none ∧ validateTag tag = .ok tag ∧
      reference.canonical = reference.fullRepository ++ ':' :: tag) ∨
    ∃ digest, reference.tag = none ∧ reference.digest = some digest ∧ validateDigest digest = .ok digest ∧
      reference.canonical = reference.fullRepository ++ '@' :: digest := by
  rcases valid.version with ⟨tag, tagIs, digestIs, ok⟩ | ⟨digest, tagIs, digestIs, ok⟩
  · exact .inl ⟨tag, tagIs, digestIs, ok, by rw [ImageReference.canonical, tagIs, digestIs]⟩
  · exact .inr ⟨digest, tagIs, digestIs, ok, by rw [ImageReference.canonical, tagIs, digestIs]⟩

theorem full_characters (valid : Valid reference) (member : c ∈ reference.fullRepository) :
    c.isAlphanum = true ∨ c ∈ ".-_:+/".toList := by
  rcases List.mem_append.mp member with front | back
  · have among : ∀ d ∈ ['-', '.', ':', '+'], ".-_:+/".toList.contains d = true := List.all_eq_true.mp (by decide)
    exact (valid.registry.characters front).imp_right fun listed => List.contains_iff_mem.mp (among c listed)
  · rcases List.mem_cons.mp back with rfl | inPath
    · exact .inr (by decide)
    · rcases valid.path_characters inPath with (own | rfl | rfl | rfl) | rfl
      · exact .inl own
      · exact .inr (by decide)
      · exact .inr (by decide)
      · exact .inr (by decide)
      · exact .inr (by decide)

theorem noAt_full (valid : Valid reference) : '@' ∉ reference.fullRepository := by
  intro member
  rcases full_characters valid member with wrong | wrong <;> revert wrong <;> decide

theorem tag_characters (ok : validateTag text = .ok text) (member : c ∈ text) : PathCharacter c :=
  (validateTag_iff.mp ok).1.2.2.1 c member

theorem hexDigit_alphanum (own : HexDigit c) : c.isAlphanum = true := by
  unfold HexDigit at own
  rw [alphanum_iff]
  omega

theorem digest_characters (ok : validateDigest text = .ok text) (member : c ∈ text) : c.isAlphanum = true ∨ c = ':' := by
  obtain ⟨⟨hex, rfl, _, every⟩, _⟩ := validateDigest_iff.mp ok
  rcases List.mem_append.mp member with front | back
  · have among : ∀ d ∈ "sha256:".toList, (d.isAlphanum || d == ':') = true := List.all_eq_true.mp (by decide)
    have own := among c front
    rwa [Bool.or_eq_true, beq_iff_eq] at own
  · exact .inl (hexDigit_alphanum (every c back))

theorem canonical_characters (valid : Valid reference) (member : c ∈ reference.canonical) :
    c.isAlphanum = true ∨ c ∈ ".-_:+/@".toList := by
  have inFull (inside : c ∈ reference.fullRepository) : c.isAlphanum = true ∨ c ∈ ".-_:+/@".toList :=
    (full_characters valid inside).imp_right fun listed => List.mem_append_left ['@'] listed
  rcases canonical_cases valid with ⟨tag, _, _, ok, shape⟩ | ⟨digest, _, _, ok, shape⟩ <;> rw [shape] at member
  · rcases List.mem_append.mp member with inside | version
    · exact inFull inside
    · rcases List.mem_cons.mp version with rfl | inTag
      · exact .inr (by decide)
      · rcases tag_characters ok inTag with own | rfl | rfl | rfl
        · exact .inl own
        · exact .inr (by decide)
        · exact .inr (by decide)
        · exact .inr (by decide)
  · rcases List.mem_append.mp member with inside | version
    · exact inFull inside
    · rcases List.mem_cons.mp version with rfl | inDigest
      · exact .inr (by decide)
      · rcases digest_characters ok inDigest with own | rfl
        · exact .inl own
        · exact .inr (by decide)

/-- What a canonical reference is made of is neither trimmed nor refused. -/
theorem solid_character (own : c.isAlphanum = true ∨ c ∈ ".-_:+/@".toList) :
    isWhitespace c = false ∧ isAsciiControl c = false := by
  rcases own with own | listed
  · have bounds := alphanum_iff.mp own
    simp only [isWhitespace, isAsciiControl, Bool.or_eq_false_iff, Bool.and_eq_false_iff, decide_eq_false_iff_not,
      beq_eq_false_iff_ne]
    omega
  · have among : ∀ d ∈ ".-_:+/@".toList, (!isWhitespace d && !isAsciiControl d) = true :=
      List.all_eq_true.mp (by decide)
    have own := among c listed
    rwa [Bool.and_eq_true, Bool.not_eq_true', Bool.not_eq_true'] at own

theorem locate_full (valid : Valid reference) :
    locate reference.fullRepository = (reference.registry, reference.repository) := by
  have parts : reference.fullRepository.splitOn '/' = reference.registry :: reference.repository.splitOn '/' :=
    List.splitOn_append_cons_self_of_not_mem valid.noSlash reference.repository
  have several : 1 < (reference.registry :: reference.repository.splitOn '/').length := by
    rw [List.length_cons]
    exact Nat.succ_lt_succ (List.length_pos_iff.mpr (List.splitOn_ne_nil '/' _))
  unfold locate
  simp only [parts, several, decide_true, Bool.true_and, List.head?_cons, Option.getD_some, valid.host, if_true,
    List.drop_succ_cons, List.drop_zero, List.intercalate_splitOn]
  rw [if_neg]
  rw [Bool.and_eq_true, beq_iff_eq, valid.lowered, Bool.not_eq_true', List.contains_eq_mem, decide_eq_false_iff_not]
  exact fun both => both.2 (valid.hub both.1)

/-- The last slash of a full name is behind every colon. -/
theorem slash_full (valid : Valid reference) : ∃ slash, rfind '/' reference.fullRepository = some slash ∧
    ∀ colon, rfind ':' reference.fullRepository = some colon → colon < slash := by
  obtain ⟨slash, found, later⟩ := rfind_from '/' reference.registry reference.repository
  refine ⟨slash, found, fun colon colonIs => ?_⟩
  have absent : ':' ∉ '/' :: reference.repository := by
    rw [List.mem_cons, not_or]
    exact ⟨by decide, valid.noColon⟩
  rw [ImageReference.fullRepository, rfind_append absent] at colonIs
  exact Nat.lt_of_lt_of_le (rfind_bound colonIs) later

theorem splitVersion_tag (valid : Valid reference) {tag : Text} (ok : validateTag tag = .ok tag) :
    splitVersion input (reference.fullRepository ++ ':' :: tag) = .ok (reference.fullRepository, some tag, none) := by
  have plain {d : Char} (member : d ∈ ':' :: tag) : PathCharacter d ∨ d = ':' :=
    (List.mem_cons.mp member).symm.imp_left (tag_characters ok)
  have noAt : '@' ∉ reference.fullRepository ++ ':' :: tag := by
    rw [List.mem_append, not_or]
    refine ⟨noAt_full valid, fun member => ?_⟩
    have wrong := plain member
    unfold PathCharacter at wrong
    revert wrong
    decide
  have noSlash : '/' ∉ ':' :: tag := by
    intro member
    have wrong := plain member
    unfold PathCharacter at wrong
    revert wrong
    decide
  have noColon : ':' ∉ tag := by
    intro member
    have wrong := tag_characters ok member
    unfold PathCharacter at wrong
    revert wrong
    decide
  obtain ⟨slash, slashIs, _⟩ := slash_full valid
  have before := rfind_bound slashIs
  unfold splitVersion
  rw [splitOnce_none noAt]
  simp only [rfind_append noSlash, slashIs, rfind_append_cons noColon, Option.getD_some]
  have kept : (some reference.fullRepository.length).filter (slash < ·) = some reference.fullRepository.length := by
    rw [Option.filter_some, if_pos (decide_eq_true before)]
  have behind : (reference.fullRepository ++ [':']).length = reference.fullRepository.length + 1 := List.length_append
  rw [kept]
  simp only [List.take_left]
  rw [List.append_cons, List.drop_left' behind, ok]
  rfl

theorem splitVersion_digest (valid : Valid reference) {digest : Text} (ok : validateDigest digest = .ok digest) :
    splitVersion input (reference.fullRepository ++ '@' :: digest) = .ok (reference.fullRepository, none, some digest) := by
  obtain ⟨slash, slashIs, above⟩ := slash_full valid
  unfold splitVersion
  rw [splitOnce_append (noAt_full valid)]
  have nonempty : digest.isEmpty = false := by
    obtain ⟨⟨hex, rfl, _⟩, _⟩ := validateDigest_iff.mp ok
    rfl
  have noAt : '@' ∉ digest := by
    intro member
    have wrong := digest_characters ok member
    revert wrong
    decide
  have single : (reference.fullRepository ++ '@' :: digest).count '@' = 1 := by
    rw [List.count_append, List.count_cons_self, List.count_eq_zero.mpr (noAt_full valid), List.count_eq_zero.mpr noAt]
  have noTag : (rfind ':' reference.fullRepository).any (slash < ·) = false := by
    rw [Option.any_eq_false]
    intro colon colonIs
    rw [decide_eq_false_iff_not]
    exact Nat.lt_asymm (above colon colonIs)
  simp only [nonempty, single, slashIs, Option.getD_some, noTag, ok]
  rfl

theorem splitVersion_canonical (valid : Valid reference) : splitVersion input reference.canonical =
    .ok (reference.fullRepository, reference.tag, reference.digest) := by
  rcases canonical_cases valid with ⟨tag, tagIs, digestIs, ok, shape⟩ | ⟨digest, tagIs, digestIs, ok, shape⟩
  · rw [shape, tagIs, digestIs, splitVersion_tag valid ok]
  · rw [shape, tagIs, digestIs, splitVersion_digest valid ok]

/-- No registry is the scheme that `parse` takes off. -/
theorem noScheme (valid : Valid reference) (rest : Text) :
    stripPrefix "docker://".toList (reference.registry ++ '/' :: rest) = none := by
  cases stripped : stripPrefix "docker://".toList (reference.registry ++ '/' :: rest) with
  | none => rfl
  | some later =>
    have same := congrArg (splitOnce '/') (stripPrefix_some stripped)
    rw [splitOnce_append valid.noSlash] at same
    have scheme : splitOnce '/' ("docker://".toList ++ later) = some ("docker:".toList, '/' :: later) := rfl
    rw [scheme] at same
    obtain ⟨docker, _⟩ := Prod.mk.inj (Option.some.inj same)
    have parts := registry_iff.mp (docker ▸ valid.registry)
    obtain ⟨n, read, _⟩ : Port [] := parts.2
    cases read

theorem parse_of_valid (valid : Valid reference) : ImageReference.parse reference.canonical = .ok reference := by
  have trimmed : trim reference.canonical = reference.canonical :=
    trim_solid fun c member => (solid_character (canonical_characters valid member)).1
  obtain ⟨version, shape⟩ : ∃ version, reference.canonical = reference.registry ++ '/' :: version := by
    rcases canonical_cases valid with ⟨tag, _, _, _, shape⟩ | ⟨digest, _, _, _, shape⟩
    · exact ⟨reference.repository ++ ':' :: tag, shape.trans (List.append_assoc _ _ _)⟩
    · exact ⟨reference.repository ++ '@' :: digest, shape.trans (List.append_assoc _ _ _)⟩
  have bare : (stripPrefix "docker://".toList reference.canonical).getD reference.canonical = reference.canonical := by
    conv => lhs; rw [shape, noScheme valid version, Option.getD_none, ← shape]
  have plain : ¬(reference.canonical.isEmpty || reference.canonical.any isAsciiControl) = true := by
    rw [Bool.not_eq_true, Bool.or_eq_false_iff, List.any_eq_false, List.isEmpty_eq_false_iff]
    refine ⟨by rw [shape]; exact List.append_ne_nil_of_right_ne_nil _ (List.cons_ne_nil _ _), fun c member => ?_⟩
    rw [(solid_character (canonical_characters valid member)).2]
    exact Bool.false_ne_true
  unfold ImageReference.parse
  simp only [trimmed, bare, throw_iff, splitVersion_canonical valid]
  refine ⟨plain, ?_⟩
  have registry : validateNameComponent reference.registry "registry" = .ok reference.registry :=
    validateNameComponent_iff.mpr ⟨valid.registry, valid.lowered.symm⟩
  show (validateNameComponent (locate reference.fullRepository).1 "registry" >>= fun registry =>
    validateRepository (lower (locate reference.fullRepository).2) >>= fun repository =>
      (.ok ⟨registry, repository, reference.tag, reference.digest⟩ : Except Text ImageReference)) = .ok reference
  rw [locate_full valid, registry, valid.repositoryLowered, valid.repository]
  rfl

end Again

end Pbox.Cli.Images
