import Pbox.Cli.ImageCanonical
import Pbox.Lib.Grammar

/-! The grammar of image references, and that a canonical reference is a word of it. The scanner of a path component
walks over bytes with an index; it accepts the words of the grammar with letters of both cases, and its caller hands it
small letters. -/

namespace Pbox.Cli.Images
open Pbox.Lib.Strings Pbox.Lib.Numerals Pbox.Lib.Ascii Pbox.Lib.Grammar
open scoped Computability

section Words

def digit (c : Char) : Prop := c.isDigit = true
def letterOrDigit (c : Char) : Prop := c.isAlphanum = true
def smallOrDigit (c : Char) : Prop := c.isLower = true ∨ c.isDigit = true

/-- The separators within a path component. -/
def separator : Language Char := word ['.'] + word ['_'] + word ['_', '_'] + many1 (letter (· = '-'))

def component (alphabet : Char → Prop) : Language Char := separated separator (many1 (letter alphabet))

def hostLabelWord : Language Char :=
  letter letterOrDigit + letter letterOrDigit * (letter fun c => c.isAlphanum = true ∨ c = '-')∗ * letter letterOrDigit

def registryWord : Language Char := separated (word ['.']) hostLabelWord * (1 + word [':'] * many1 (letter digit))

def pathWord : Language Char := separated (word ['/']) (component smallOrDigit)

def tagWord : Language Char :=
  letter (fun c => c.isAlphanum = true ∨ c = '_') * (1 + letter PathCharacter) ^ 127

def digestWord : Language Char := word "sha256:".toList * letter HexDigit ^ 64

/-- The grammar of references: registry, path and tag or digest. -/
def referenceWord : Language Char :=
  registryWord * word ['/'] * pathWord * (word [':'] * tagWord + word ['@'] * digestWord)

end Words

section Component
variable {c : Char} {rest text : Text} {turns : Nat}

theorem drop_hyphens (ascii : IsAscii rest) :
    (rest.map byteOf).dropWhile (· == 45) = (rest.dropWhile (· == '-')).map byteOf := by
  induction rest with
  | nil => rfl
  | cons c rest ih =>
    have same : (byteOf c == 45) = (c == '-') := byteOf_beq (ascii c List.mem_cons_self) (show '-'.toNat < 128 by decide)
    have later := ih fun d member => ascii d (List.mem_cons_of_mem c member)
    rw [List.map_cons, List.dropWhile_cons, List.dropWhile_cons, same, later]
    split <;> rfl

/-- A turn of the scanner over a separator takes a word of the grammar. -/
theorem afterSeparator_some {more : List UInt8} (ascii : IsAscii (c :: rest))
    (found : afterSeparator (byteOf c) (rest.map byteOf) = some more) :
    ∃ mark left, c :: rest = mark ++ left ∧ mark ∈ separator ∧ more = left.map byteOf := by
  have own := ascii c List.mem_cons_self
  unfold afterSeparator at found
  split_ifs at found with dot underscore double hyphen
  · obtain rfl := (byteOf_inj own (show '.'.toNat < 128 by decide)).mp dot
    cases found
    exact ⟨['.'], rest, rfl, .inl (.inl (.inl rfl)), rfl⟩
  · obtain rfl := (byteOf_inj own (show '_'.toNat < 128 by decide)).mp underscore
    cases found
    obtain ⟨d, later, rfl⟩ : ∃ d later, rest = d :: later := by
      cases rest with
      | nil => cases double
      | cons d later => exact ⟨d, later, rfl⟩
    have second := ascii d (List.mem_cons_of_mem _ List.mem_cons_self)
    obtain rfl := (byteOf_inj second (show '_'.toNat < 128 by decide)).mp (Option.some.inj double)
    exact ⟨['_', '_'], later, rfl, .inl (.inr rfl), rfl⟩
  · obtain rfl := (byteOf_inj own (show '_'.toNat < 128 by decide)).mp underscore
    cases found
    exact ⟨['_'], rest, rfl, .inl (.inl (.inr rfl)), rfl⟩
  · obtain rfl := (byteOf_inj own (show '-'.toNat < 128 by decide)).mp hyphen
    cases found
    refine ⟨'-' :: rest.takeWhile (· == '-'), rest.dropWhile (· == '-'), ?_, .inr ?_, ?_⟩
    · rw [List.cons_append, List.takeWhile_append_dropWhile]
    · refine mem_many1_letter.mpr ⟨List.cons_ne_nil _ _, List.forall_mem_cons.mpr ⟨rfl, fun d member => ?_⟩⟩
      exact beq_iff_eq.mp (List.all_eq_true.mp List.all_takeWhile d member)
    · exact drop_hyphens fun d member => ascii d (List.mem_cons_of_mem _ member)

theorem afterSeparator_of {mark : Text} {d : Char} (marked : mark ∈ separator) (own : letterOrDigit d) :
    ∃ c front, mark = c :: front ∧ c.isAlphanum = false ∧ c.toNat < 128 ∧
      afterSeparator (byteOf c) ((front ++ d :: rest).map byteOf) = some ((d :: rest).map byteOf) := by
  have differs {b : Char} (other : b.isAlphanum = false) (ascii : b.toNat < 128) : byteOf d ≠ byteOf b := by
    intro same
    obtain rfl := (byteOf_inj (alphanum_ascii own) ascii).mp same
    exact absurd own (by rw [letterOrDigit, other]; exact Bool.false_ne_true)
  rcases marked with ((rfl | rfl) | rfl) | run
  · exact ⟨'.', [], rfl, by decide, by decide, rfl⟩
  · refine ⟨'_', [], rfl, by decide, by decide, ?_⟩
    have plain : ¬((d :: rest).map byteOf).head? = some 95 := fun same =>
      @differs '_' (by decide) (by decide) (Option.some.inj same)
    exact congrArg some (if_neg plain)
  · exact ⟨'_', ['_'], rfl, by decide, by decide, rfl⟩
  · obtain ⟨nonempty, every⟩ := mem_many1_letter.mp run
    obtain ⟨c, front, rfl⟩ := List.exists_cons_of_ne_nil nonempty
    obtain ⟨rfl, later⟩ := List.forall_mem_cons.mp every
    refine ⟨'-', front, rfl, by decide, by decide, ?_⟩
    have hyphens : ∀ b ∈ front.map byteOf, (b == 45) = true := by
      intro b member
      obtain ⟨e, there, rfl⟩ := List.mem_map.mp member
      rw [later e there]
      rfl
    have stops : ¬(byteOf d == 45) = true := fun same => @differs '-' (by decide) (by decide) (beq_iff_eq.mp same)
    show some (((front ++ d :: rest).map byteOf).dropWhile (· == 45)) = _
    rw [List.map_append, List.dropWhile_append_of_pos hyphens]
    exact congrArg some (List.dropWhile_cons_of_neg stops)

theorem loop_sound (ascii : IsAscii text) (valid : componentLoop turns (text.map byteOf) = true) :
    text ∈ (letter letterOrDigit + separator * letter letterOrDigit)∗ := by
  induction turns generalizing text with
  | zero =>
    cases text with
    | nil => exact Language.nil_mem_kstar _
    | cons => cases valid
  | succ turns ih =>
    cases text with
    | nil => exact Language.nil_mem_kstar _
    | cons c rest =>
      have ascii_rest : IsAscii rest := fun d member => ascii d (List.mem_cons_of_mem c member)
      rw [List.map_cons, componentLoop] at valid
      split at valid
      next own =>
        rw [alphanumericByte_byteOf (ascii c List.mem_cons_self)] at own
        exact append_kstar (.inl (letter_mem own)) (ih ascii_rest valid)
      next =>
        split at valid
        next => cases valid
        next => cases valid
        next b more found =>
          obtain ⟨mark, left, whole, marked, same⟩ := afterSeparator_some ascii found
          obtain ⟨d, left, rfl, rfl, rfl⟩ := List.map_eq_cons_iff.mp same.symm
          have ascii_left : IsAscii (d :: left) := fun e member => ascii e (whole ▸ List.mem_append_right mark member)
          rw [Bool.and_eq_true, alphanumericByte_byteOf (ascii_left d List.mem_cons_self)] at valid
          have later := ih (fun e member => ascii_left e (List.mem_cons_of_mem d member)) valid.2
          rw [whole, List.append_cons]
          exact append_kstar (.inr (Language.append_mem_mul marked (letter_mem valid.1))) later

theorem loop_complete (ascii : IsAscii text) (enough : text.length ≤ turns)
    (inside : text ∈ (letter letterOrDigit + separator * letter letterOrDigit)∗) :
    componentLoop turns (text.map byteOf) = true := by
  induction turns generalizing text with
  | zero =>
    rw [List.length_eq_zero_iff.mp (Nat.le_zero.mp enough)]
    rfl
  | succ turns ih =>
    cases text with
    | nil => rfl
    | cons c rest =>
      have short : rest.length ≤ turns := Nat.le_of_succ_le_succ enough
      obtain ⟨u, v, piece, later, rfl⟩ := kstar_cons inside
      rw [List.map_cons, componentLoop]
      rcases piece with ⟨d, own, single⟩ | marked
      · obtain ⟨rfl, rfl⟩ := List.cons.inj single
        rw [alphanumericByte_byteOf (alphanum_ascii own), if_pos (show c.isAlphanum = true from own)]
        exact ih (fun e member => ascii e (List.mem_cons_of_mem _ member)) short later
      · obtain ⟨mark, markIn, _, ⟨d, own, rfl⟩, whole⟩ := Language.mem_mul.mp marked
        obtain ⟨first, front, rfl, other, small, found⟩ := @afterSeparator_of v mark d markIn own
        obtain ⟨rfl, shape⟩ := List.cons.inj whole
        have shape : front ++ [d] = u := shape
        subst shape
        have behind : (front ++ [d]) ++ v = front ++ d :: v := List.append_assoc front [d] v
        have ascii_v : IsAscii v := fun e member => ascii e (List.mem_cons_of_mem _ (List.mem_append_right _ member))
        have shorter : v.length ≤ turns := by
          rw [List.length_append] at short
          omega
        have own : d.isAlphanum = true := own
        rw [alphanumericByte_byteOf small, other, if_neg Bool.false_ne_true, behind, found]
        show (alphanumericByte (byteOf d) && componentLoop turns (v.map byteOf)) = true
        rw [alphanumericByte_byteOf (alphanum_ascii own), own, ih ascii_v shorter later]
        rfl

theorem separator_over {p : Char → Prop} (dot : p '.') (underscore : p '_') (hyphen : p '-') : Over p separator := by
  have single {c : Char} (own : p c) : Over p (word [c]) := over_word fun d member => List.mem_singleton.mp member ▸ own
  have double : Over p (word ['_', '_']) :=
    over_word (List.forall_mem_cons.mpr ⟨underscore, List.forall_mem_cons.mpr ⟨underscore, List.forall_mem_nil p⟩⟩)
  have hyphens : Over p (many1 (letter (· = '-'))) := over_many1 (over_letter fun c same => same ▸ hyphen)
  exact over_add (over_add (over_add (single dot) (single underscore)) double) hyphens

theorem component_ascii : Over (fun c => c.toNat < 128) (component letterOrDigit) :=
  over_separated (separator_over (by decide) (by decide) (by decide)) (over_many1 (over_letter fun _ => alphanum_ascii))

theorem validRepositoryComponent_iff : validRepositoryComponent text = true ↔ text ∈ component letterOrDigit := by
  rw [component, separated_many1]
  constructor
  · intro valid
    have ascii : IsAscii text := fun c member =>
      pathCharacter_ascii (validRepositoryComponent_characters valid c member)
    rw [validRepositoryComponent, utf8_ascii ascii] at valid
    cases text with
    | nil => cases valid
    | cons c rest =>
      rw [List.map_cons] at valid
      simp only [Bool.and_eq_true, alphanumericByte_byteOf (ascii c List.mem_cons_self)] at valid
      have later := loop_sound (fun d member => ascii d (List.mem_cons_of_mem c member)) valid.2
      have own : letterOrDigit c := valid.1
      exact Language.append_mem_mul (letter_mem own) later
  · intro inside
    have ascii : IsAscii text := by
      rw [← separated_many1] at inside
      exact component_ascii text inside
    obtain ⟨_, ⟨c, own, rfl⟩, rest, later, rfl⟩ := Language.mem_mul.mp inside
    have ascii_rest : IsAscii rest := fun d member => ascii d (List.mem_cons_of_mem c member)
    have complete := loop_complete ascii_rest (Nat.le_refl rest.length) later
    have own : c.isAlphanum = true := own
    rw [validRepositoryComponent, utf8_ascii ascii]
    show (alphanumericByte (byteOf c) && componentLoop (rest.map byteOf).length (rest.map byteOf)) = true
    rw [alphanumericByte_byteOf (alphanum_ascii own), own, List.length_map, complete]
    rfl

end Component

section Canonical
variable {text : Text} {reference : ImageReference}

theorem label_word (label : Label text) : text ∈ hostLabelWord := by
  obtain ⟨c, firstIs, first⟩ := label.first
  obtain ⟨rest, rfl⟩ := List.head?_eq_some_iff.mp firstIs
  rcases List.eq_nil_or_concat rest with rfl | ⟨middle, d, rfl⟩
  · exact .inl (letter_mem first)
  · obtain ⟨e, lastIs, last⟩ := label.last
    rw [List.concat_eq_append, ← List.cons_append, List.getLast?_concat] at lastIs
    obtain rfl := Option.some.inj lastIs
    have inner : middle ∈ (letter fun c => c.isAlphanum = true ∨ c = '-')∗ := by
      refine mem_kstar_letter.mpr fun f member => label.characters f ?_
      exact List.mem_cons_of_mem c (List.concat_eq_append ▸ List.mem_append_left [d] member)
    have first : letterOrDigit c := first
    have last : letterOrDigit d := last
    have whole := Language.append_mem_mul (Language.append_mem_mul (letter_mem first) inner) (letter_mem last)
    rw [List.concat_eq_append]
    exact .inr whole

theorem differs_of_class {c mark : Char} {p : Char → Bool} (other : p mark = false) (own : p c = true) : c ≠ mark := by
  intro same
  subst same
  rw [other] at own
  cases own

theorem label_avoids {mark : Char} (other : mark.isAlphanum = false) (hyphen : '-' ≠ mark) :
    Over (· ≠ mark) hostLabelWord := by
  have ends : Over (· ≠ mark) (letter letterOrDigit) := over_letter fun c => differs_of_class other
  refine over_add ends (over_mul (over_mul ends (over_kstar (over_letter ?_))) ends)
  rintro c (alphanum | rfl)
  · exact differs_of_class other alphanum
  · exact hyphen

theorem host_word (host : Host text) : text ∈ separated (word ['.']) hostLabelWord :=
  (mem_separated_splitOn fun w inside member => label_avoids (by decide) (by decide) w inside '.' member rfl).mpr
    fun part listed => label_word (host part listed)

theorem registry_word (registry : Registry text) (unsigned : '+' ∉ text) : text ∈ registryWord := by
  cases registry with
  | plain labels =>
    have whole := Language.append_mem_mul (host_word labels)
      (show [] ∈ 1 + word [':'] * many1 (letter digit) from .inl rfl)
    rwa [List.append_nil] at whole
  | @port host port labels number =>
    have digits : port ∈ many1 (letter digit) := by
      obtain ⟨n, read, _⟩ := number
      obtain ⟨read, _⟩ := Option.filter_eq_some_iff.mp read
      have same : afterPlus port = port := by
        unfold afterPlus
        split
        next rest => exact absurd (List.mem_append_right host (by simp)) unsigned
        next => rfl
      rw [same] at read
      obtain ⟨nonempty, every, _⟩ := digits_some read
      exact mem_many1_letter.mpr ⟨nonempty, every⟩
    exact Language.append_mem_mul (host_word labels) (.inr (Language.append_mem_mul (mem_word.mpr rfl) digits))

theorem lower_fixed (lowered : lower text = text) : ∀ c ∈ text, c.toLower = c := by
  have same : text.map Char.toLower = text.map id := by rwa [List.map_id]
  exact List.map_inj_left.mp same

theorem component_avoids {mark : Char} (other : mark.isLower = false ∧ mark.isDigit = false)
    (apart : '.' ≠ mark ∧ '_' ≠ mark ∧ '-' ≠ mark) : Over (· ≠ mark) (component smallOrDigit) := by
  refine over_separated (separator_over apart.1 apart.2.1 apart.2.2) (over_many1 (over_letter ?_))
  rintro c (small | digit)
  · exact differs_of_class other.1 small
  · exact differs_of_class other.2 digit

theorem small_of_lower {c : Char} (own : letterOrDigit c) (fixed : c.toLower = c) : smallOrDigit c := by
  have bounds := alphanum_iff.mp own
  rcases toLower_cases c with ⟨plain, _⟩ | ⟨_, shifted⟩
  · unfold smallOrDigit
    rw [isLower_iff, isDigit_iff]
    omega
  · rw [fixed] at shifted
    omega

theorem path_word (valid : Valid reference) : reference.repository ∈ pathWord := by
  have parts := (validateRepository_iff.mp valid.repository).1.2
  have noSlash : ∀ w ∈ component smallOrDigit, '/' ∉ w := fun w inside member =>
    component_avoids (by decide) (by decide) w inside '/' member rfl
  refine (mem_separated_splitOn noSlash).mpr fun part listed => ?_
  refine separated_narrow (fun c member own => ?_) (validRepositoryComponent_iff.mp (parts part listed))
  exact small_of_lower own (lower_fixed valid.repositoryLowered c (splitOn_subset listed member))

theorem tag_word (ok : validateTag text = .ok text) : text ∈ tagWord := by
  obtain ⟨nonempty, short, every, first⟩ := (validateTag_iff.mp ok).1
  obtain ⟨c, rest, rfl⟩ := List.exists_cons_of_ne_nil nonempty
  have later : rest ∈ (1 + letter PathCharacter) ^ 127 :=
    mem_optional_pow.mpr ⟨Nat.le_of_succ_le_succ short, fun d member => every d (List.mem_cons_of_mem c member)⟩
  have own : [c] ∈ letter fun c => c.isAlphanum = true ∨ c = '_' := ⟨c, first c rfl, rfl⟩
  exact Language.append_mem_mul own later

theorem digest_word (ok : validateDigest text = .ok text) : text ∈ digestWord := by
  obtain ⟨⟨hex, rfl, length, every⟩, _⟩ := validateDigest_iff.mp ok
  exact Language.append_mem_mul (mem_word.mpr rfl) (mem_letter_pow.mpr ⟨length, every⟩)

theorem canonical_word (valid : Valid reference) (unsigned : '+' ∉ reference.registry) :
    reference.canonical ∈ referenceWord := by
  have full : reference.registry ++ ['/'] ++ reference.repository ∈ registryWord * word ['/'] * pathWord :=
    Language.append_mem_mul (Language.append_mem_mul (registry_word valid.registry unsigned) (mem_word.mpr rfl))
      (path_word valid)
  rw [← List.append_cons] at full
  rcases canonical_cases valid with ⟨tag, _, _, ok, shape⟩ | ⟨digest, _, _, ok, shape⟩
  · rw [shape]
    exact Language.append_mem_mul full (.inl (Language.append_mem_mul (mem_word.mpr rfl) (tag_word ok)))
  · rw [shape]
    exact Language.append_mem_mul full (.inr (Language.append_mem_mul (mem_word.mpr rfl) (digest_word ok)))

/-- The canonical form of what `parse` accepts is a word of the grammar, and the scanner of path components accepts
what the grammar says, with letters of both cases. -/
theorem parse_grammar :
    (∀ input reference, ImageReference.parse input = .ok reference → '+' ∉ reference.registry →
      reference.canonical ∈ referenceWord) ∧
    ∀ text, validRepositoryComponent text = true ↔ text ∈ component letterOrDigit :=
  ⟨fun _ _ parsed unsigned => canonical_word (parse_valid parsed) unsigned, fun _ => validRepositoryComponent_iff⟩

/-- A reference with a registry and a namespace. -/
theorem base_grammar : "ghcr.io/pbox/pbox-base:dev".toList ∈ referenceWord ∧
    "pbox-base".toList ∈ component letterOrDigit := by
  have parsed : ImageReference.parse "ghcr.io/Pbox/pbox-base:dev".toList =
      .ok ⟨"ghcr.io".toList, "pbox/pbox-base".toList, some "dev".toList, none⟩ := by decide
  exact ⟨parse_grammar.1 _ _ parsed (by decide), (parse_grammar.2 _).mp (by decide)⟩

theorem referenceWord_noPlus : Over (· ≠ '+') referenceWord := by
  have single {c : Char} (own : c ≠ '+') : Over (· ≠ '+') (word [c]) :=
    over_word fun d member => List.mem_singleton.mp member ▸ own
  have registry : Over (· ≠ '+') registryWord :=
    over_mul (over_separated (single (by decide)) (label_avoids (by decide) (by decide))) (over_add over_one
      (over_mul (single (by decide)) (over_many1 (over_letter fun c => @differs_of_class c '+' Char.isDigit (by decide)))))
  have path : Over (· ≠ '+') pathWord :=
    over_separated (single (by decide)) (component_avoids (by decide) (by decide))
  have tag : Over (· ≠ '+') tagWord := by
    refine over_mul (over_letter ?_) (over_pow (over_add over_one (over_letter ?_)))
    · rintro c (own | rfl)
      · exact @differs_of_class c '+' Char.isAlphanum (by decide) own
      · decide
    · rintro c (own | rfl | rfl | rfl)
      · exact @differs_of_class c '+' Char.isAlphanum (by decide) own
      · decide
      · decide
      · decide
  have digest : Over (· ≠ '+') digestWord := by
    refine over_mul (over_word ?_) (over_pow (over_letter ?_))
    · exact fun c member same => absurd (same ▸ member) (by decide)
    · rintro c own rfl
      unfold HexDigit at own
      revert own
      decide
  exact over_mul (over_mul (over_mul registry (single (by decide))) path)
    (over_add (over_mul (single (by decide)) tag) (over_mul (single (by decide)) digest))

/-- A port with a sign before it is accepted, and so is a component with a capital letter. -/
theorem signed_port_and_capital :
    (¬∀ input reference, ImageReference.parse input = .ok reference → reference.canonical ∈ referenceWord) ∧
      ¬∀ text, validRepositoryComponent text = true ↔ text ∈ component smallOrDigit := by
  constructor
  · intro always
    have inside := always "localhost:+80/base".toList
      ⟨"localhost:+80".toList, "base".toList, some "latest".toList, none⟩ (by decide)
    exact referenceWord_noPlus _ inside '+' (by decide) rfl
  · intro always
    have inside := (always "Base".toList).mp (by decide)
    exact component_avoids (by decide) (by decide) _ inside 'B' (by decide) rfl

end Canonical

end Pbox.Cli.Images
