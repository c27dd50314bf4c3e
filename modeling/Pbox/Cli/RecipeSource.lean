import Pbox.Core.ConfigSetters
import Pbox.Lib.Ascii

/-! Where recipes come from: the repository and the reference of the configuration, as `RecipeRepository::new` takes
them. Both were checked once before, by the configuration's `validate`; the two checks are not the same. -/

namespace Pbox.Cli.RecipeSource
open Pbox.Lib.Strings Pbox.Lib.Numerals Pbox.Lib.Ascii Pbox.Lib.Checks Pbox.Core Pbox.Core.ConfigSetters

def DEFAULT_REPOSITORY : Text := "https://github.com/kierandrewett/pbox-recipes.git".toList
def DEFAULT_REFERENCE : Text := "main".toList

structure RecipeRepository where
  repository : Text
  reference : Text
  cacheDir : Text

/-- Fails with the text unless the condition holds. -/
def require (condition : Bool) (text : Text) : Except Text Unit := if condition then .ok () else .error text

def validateRepository (repository : Text) : Except Text Unit := do
  require (!(repository.contains '?' || repository.contains '#'))
    "recipe repository must not contain query or fragment data".toList
  require (find "::".toList repository).isNone "recipe repository must not use Git external transport".toList
  match splitScheme repository with
  | none => return ()
  | some (scheme, authorityAndPath) =>
    let scheme := scheme.map Char.toLower
    require (["https".toList, "ssh".toList, "file".toList].contains scheme)
      "recipe repository URLs must use HTTPS, SSH, or file transport".toList
    let authority := authorityAndPath.takeWhile fun c => c != '/' && c != '\\'
    require (!authority.contains '@') "recipe repository URLs must not contain embedded credentials".toList
    require (scheme == "file".toList || !authority.isEmpty) "recipe repository URL must include a host".toList

/-- `char::is_control`. -/
def isControl (c : Char) : Bool := c.toNat < 0x20 || (0x7f ≤ c.toNat && c.toNat ≤ 0x9f)

def validateRecipeReference (reference : Text) : Except Text Unit :=
  require
    (!(reference.isEmpty || "-".toList.isPrefixOf reference || (find "..".toList reference).isSome ||
      (find "@\x7b".toList reference).isSome || "/".toList.isSuffixOf reference || ".".toList.isSuffixOf reference ||
      reference.any (fun c => isControl c || isWhitespace c) || reference.any "~^:?*[\\".toList.contains))
    ("recipe reference is not a valid Git ref: ".toList ++ reference)

def normaliseRepository (repository : Text) : Text :=
  let trimmed := trim repository
  if trimmed.count '/' == 1 && (find "://".toList trimmed).isNone && !"git@".toList.isPrefixOf trimmed &&
      !".".toList.isPrefixOf trimmed && !"/".toList.isPrefixOf trimmed then
    if ".git".toList.isSuffixOf trimmed then "https://github.com/".toList ++ trimmed
    else "https://github.com/".toList ++ trimmed ++ ".git".toList
  else trimmed

/-- `Path::join` with a name that does not begin with a slash. -/
def joinPath (dir name : Text) : Text :=
  if dir.isEmpty || dir.getLast? == some '/' then dir ++ name else dir ++ '/' :: name

section New
variable (sha256 : List UInt8 → List UInt8) (cacheHome : Option Text)

def defaultCacheDir (repository : Text) : Text :=
  let hash := hexEncode (sha256 (utf8 repository))
  joinPath (joinPath (joinPath (cacheHome.getD ".".toList) "pbox".toList) "recipes".toList) hash

def RecipeRepository.new (repository : Option Text) (reference : Text) : Except Text RecipeRepository := do
  let repository := trim (repository.getD DEFAULT_REPOSITORY)
  require (!repository.isEmpty) "recipe repository cannot be empty".toList
  validateRepository repository
  let repository := normaliseRepository repository
  let reference := if (trim reference).isEmpty then DEFAULT_REFERENCE else trim reference
  validateRecipeReference reference
  let cacheDir := defaultCacheDir sha256 cacheHome repository
  return { repository, reference, cacheDir }

end New

section Schemes
variable {text before after scheme rest : Text}

/-- A text that does not begin with the separator is split behind its first character. -/
theorem splitScheme_cons {c : Char} (other : ¬"://".toList <+: c :: text) :
    splitScheme (c :: text) = (splitScheme text).map fun parts => (c :: parts.1, parts.2) := by
  rw [splitScheme]
  rintro rest rfl rfl
  exact other ⟨rest, rfl⟩

theorem splitScheme_some (split : splitScheme text = some (scheme, rest)) : text = scheme ++ ("://".toList ++ rest) := by
  fun_induction splitScheme text generalizing scheme with
  | case1 => cases split; rfl
  | case2 => cases split
  | case3 c text other ih =>
    obtain ⟨⟨front, back⟩, found, same⟩ := Option.map_eq_some_iff.mp split
    cases same
    exact congrArg (c :: ·) (ih found)

theorem splitScheme_append_right (split : splitScheme text = some (scheme, rest)) :
    splitScheme (text ++ after) = some (scheme, rest ++ after) := by
  fun_induction splitScheme text generalizing scheme with
  | case1 => cases split; rfl
  | case2 => cases split
  | case3 c text other ih =>
    obtain ⟨⟨front, back⟩, found, same⟩ := Option.map_eq_some_iff.mp split
    cases same
    have long : 3 ≤ (c :: text).length := by
      have length := congrArg List.length (splitScheme_some found)
      rw [List.length_append, List.length_append] at length
      have separator : "://".toList.length = 3 := rfl
      rw [List.length_cons]
      omega
    rw [List.cons_append, splitScheme_cons, ih found]
    · rfl
    · intro begins
      have within : "://".toList <+: c :: text :=
        List.prefix_of_prefix_length_le begins (List.prefix_append (c :: text) after) long
      obtain ⟨tail, same⟩ := within
      obtain ⟨rfl, rfl⟩ := List.cons.inj same
      exact other tail rfl rfl

theorem splitScheme_append_left (absent : ':' ∉ before) (split : splitScheme text = some (scheme, rest)) :
    splitScheme (before ++ text) = some (before ++ scheme, rest) := by
  induction before with
  | nil => exact split
  | cons c before ih =>
    rw [List.cons_append, splitScheme_cons, ih fun member => absent (List.mem_cons_of_mem c member)]
    · rfl
    · intro begins
      have first : ':' = c := (List.cons_prefix_cons.mp begins).1
      exact absent (first ▸ List.mem_cons_self)

theorem splitScheme_lower (text : Text) : splitScheme (text.map Char.toLower) =
    (splitScheme text).map fun parts => (parts.1.map Char.toLower, parts.2.map Char.toLower) := by
  fun_induction splitScheme text with
  | case1 => rfl
  | case2 => rfl
  | case3 c text other ih =>
    rw [List.map_cons, splitScheme_cons, ih, Option.map_map, Option.map_map]
    · rfl
    · intro given
      obtain ⟨tail, whole⟩ := given
      have whole : ':' :: '/' :: '/' :: tail = c.toLower :: text.map Char.toLower := whole
      obtain ⟨colon, same⟩ := List.cons.inj whole
      obtain ⟨first, later, rfl, slash, same⟩ := List.map_eq_cons_iff.mp same.symm
      obtain ⟨second, later, rfl, again, _⟩ := List.map_eq_cons_iff.mp same
      obtain rfl := (toLower_eq_iff (by decide) rfl).mp slash
      obtain rfl := (toLower_eq_iff (by decide) rfl).mp again
      exact other later ((toLower_eq_iff (by decide) rfl).mp colon.symm) rfl

end Schemes

section Agreement
variable {parseUrl : Text → Option Url} {text : Text}

theorem require_iff {condition : Bool} {message : Text} : require condition message = .ok () ↔ condition = true := by
  unfold require
  split <;> simp_all

def authority (rest : Text) : Text := rest.takeWhile fun c => c != '/' && c != '\\'

/-- What both checks ask of the parts of a URL. -/
def Hosted (scheme rest : Text) : Prop :=
  scheme.map Char.toLower ∈ ["https".toList, "ssh".toList, "file".toList] ∧ '@' ∉ authority rest ∧
    (scheme.map Char.toLower = "file".toList ∨ authority rest ≠ [])

/-- What both checks ask of a repository. -/
structure Source (text : Text) : Prop where
  noQuery : '?' ∉ text
  noFragment : '#' ∉ text
  noTransport : ¬"::".toList <:+: text
  scheme : ∀ scheme rest, splitScheme text = some (scheme, rest) → Hosted scheme rest

theorem source_iff : Source text ↔
    ('?' ∉ text ∧ '#' ∉ text) ∧ ¬"::".toList <:+: text ∧
      ∀ scheme rest, splitScheme text = some (scheme, rest) → Hosted scheme rest := by
  constructor
  · intro given
    obtain ⟨noQuery, noFragment, noTransport, scheme⟩ := given
    exact ⟨⟨noQuery, noFragment⟩, noTransport, scheme⟩
  · intro given
    obtain ⟨⟨noQuery, noFragment⟩, noTransport, scheme⟩ := given
    exact ⟨noQuery, noFragment, noTransport, scheme⟩

theorem contains_false {c : Char} : text.contains c = false ↔ c ∉ text := by
  rw [← Bool.not_eq_true, List.contains_iff_mem]

theorem forall_split {P : Text → Text → Prop} {scheme rest : Text} (split : splitScheme text = some (scheme, rest)) :
    (∀ front back, splitScheme text = some (front, back) → P front back) ↔ P scheme rest := by
  rw [split]
  constructor
  · intro every
    exact every scheme rest rfl
  · rintro own front back same
    cases same
    exact own

theorem validateRepository_iff : validateRepository text = .ok () ↔ Source text := by
  rw [source_iff, validateRepository, bind_ok_iff, bind_ok_iff, require_iff, require_iff, Option.isNone_iff_eq_none,
    find_eq_none, Bool.not_eq_true', Bool.or_eq_false_iff, contains_false, contains_false]
  apply and_congr_right'
  apply and_congr_right'
  split
  next none => exact iff_of_true rfl fun scheme rest some => nomatch none.symm.trans some
  next scheme rest split =>
    simp only [bind_ok_iff, require_iff, Bool.not_eq_true', contains_false, Bool.or_eq_true, beq_iff_eq,
      List.contains_iff_mem, List.isEmpty_eq_false_iff]
    exact (@forall_split _ Hosted _ _ split).symm

theorem validateRepositoryReference_iff {key : String} :
    validateRepositoryReference key text = .ok () ↔ trim text ≠ [] ∧ Source text := by
  rw [source_iff, validateRepositoryReference, bind_ok_iff, bind_ok_iff, bind_ok_iff, validateNonEmpty_iff, ensure_iff,
    ensure_iff, Option.isNone_iff_eq_none, find_eq_none, Bool.not_eq_true', Bool.or_eq_false_iff, contains_false,
    contains_false]
  apply and_congr_right'
  apply and_congr_right'
  apply and_congr_right'
  split
  next none => exact iff_of_true rfl fun scheme rest some => nomatch none.symm.trans some
  next scheme rest split =>
    simp only [bind_ok_iff, ensure_iff, Bool.not_eq_true', contains_false, Bool.or_eq_true, beq_iff_eq,
      List.contains_iff_mem, List.isEmpty_eq_false_iff]
    exact (@forall_split _ Hosted _ _ split).symm

theorem authority_append (rest after : Text) : authority rest <+: authority (rest ++ after) := by
  induction rest with
  | nil => exact List.nil_prefix
  | cons c rest ih =>
    unfold authority
    rw [List.cons_append, List.takeWhile_cons, List.takeWhile_cons]
    split
    · exact List.cons_prefix_cons.mpr ⟨rfl, ih⟩
    · exact List.prefix_refl []

theorem authority_ne_nil {rest after : Text} (nonempty : rest ≠ []) (host : authority (rest ++ after) ≠ []) :
    authority rest ≠ [] := by
  obtain ⟨c, rest, rfl⟩ := List.exists_cons_of_ne_nil nonempty
  unfold authority at host ⊢
  rw [List.cons_append, List.takeWhile_cons] at host
  rw [List.takeWhile_cons]
  split at host
  next inside =>
    rw [if_pos inside]
    exact List.cons_ne_nil c _
  next => exact absurd rfl host

theorem toLower_space {c : Char} (space : isWhitespace c = true) : c.toLower = c := by
  rcases toLower_cases c with ⟨_, same⟩ | ⟨bounds, _⟩
  · exact same
  · simp only [isWhitespace, Bool.or_eq_true, Bool.and_eq_true, decide_eq_true_eq, beq_iff_eq] at space
    omega

/-- No known scheme begins with white space. -/
theorem before_nil {before scheme : Text} (space : ∀ c ∈ before, isWhitespace c = true)
    (known : (before ++ scheme).map Char.toLower ∈ ["https".toList, "ssh".toList, "file".toList]) : before = [] := by
  cases before with
  | nil => rfl
  | cons c before =>
    have blank := space c List.mem_cons_self
    have solid : ∀ name ∈ ["https".toList, "ssh".toList, "file".toList], name.all (!isWhitespace ·) = true :=
      List.all_eq_true.mp (by decide)
    have first := List.all_eq_true.mp (solid _ known) c.toLower (by
      rw [List.cons_append, List.map_cons]
      exact List.mem_cons_self)
    rw [toLower_space blank, blank] at first
    cases first

/-- A repository that is checked with white space around it passes the check without it, unless the white space
was taken for its host. -/
theorem source_trim (source : Source text) :
    Source (trim text) ↔ (trim text).map Char.toLower ∉ ["https://".toList, "ssh://".toList] := by
  obtain ⟨before, after, whole, front, back⟩ := trim_parts text
  have inside : ∀ c ∈ trim text, c ∈ text := by
    intro c member
    rw [whole]
    exact List.mem_append_right before (List.mem_append_left after member)
  have noColon : ':' ∉ before := fun member => absurd (front ':' member) (by decide)
  have split {scheme rest : Text} (parts : splitScheme (trim text) = some (scheme, rest)) :
      splitScheme text = some (before ++ scheme, rest ++ after) := by
    have wider := splitScheme_append_left noColon (@splitScheme_append_right _ after _ _ parts)
    rwa [← whole] at wider
  constructor
  · intro trimmed listed
    obtain ⟨lower, known, own⟩ : ∃ lower ∈ ["https".toList, "ssh".toList],
        splitScheme ((trim text).map Char.toLower) = some (lower, []) := by
      rcases List.mem_pair.mp listed with same | same
      · exact ⟨_, List.mem_pair.mpr (.inl rfl), same ▸ rfl⟩
      · exact ⟨_, List.mem_pair.mpr (.inr rfl), same ▸ rfl⟩
    rw [splitScheme_lower] at own
    obtain ⟨⟨scheme, rest⟩, parts, same⟩ := Option.map_eq_some_iff.mp own
    obtain ⟨rfl, empty⟩ := Prod.mk.inj same
    obtain rfl := List.map_eq_nil_iff.mp empty
    rcases (trimmed.scheme _ _ parts).2.2 with file | host
    · rw [file] at known
      exact absurd known (by decide)
    · exact host rfl
  · intro hosted
    refine ⟨fun member => source.noQuery (inside _ member), fun member => source.noFragment (inside _ member), ?_, ?_⟩
    · intro occurs
      apply source.noTransport
      rw [whole]
      exact occurs.trans ⟨before, after, List.append_assoc before (trim text) after⟩
    · intro scheme rest parts
      obtain ⟨known, noUser, hosts⟩ := source.scheme _ _ (split parts)
      obtain rfl := before_nil front known
      refine ⟨known, fun member => noUser ((authority_append rest after).subset member), ?_⟩
      rcases hosts with file | host
      · exact .inl file
      · by_cases empty : rest = []
        · have bare := congrArg (List.map Char.toLower) (splitScheme_some parts)
          rw [empty, List.map_append] at bare
          rcases List.mem_cons.mp known with https | known
          · rw [List.nil_append] at https
            exact absurd (List.mem_pair.mpr (.inl (bare.trans (https ▸ rfl)))) hosted
          · rcases List.mem_pair.mp known with ssh | file
            · rw [List.nil_append] at ssh
              exact absurd (List.mem_pair.mpr (.inr (bare.trans (ssh ▸ rfl)))) hosted
            · exact .inl file
        · exact .inr (authority_ne_nil empty host)

/-- A reference as Git takes them, as far as the check goes. -/
structure GitReference (text : Text) : Prop where
  nonempty : text ≠ []
  option : ¬['-'] <+: text
  range : ¬"..".toList <:+: text
  reflog : ¬['@', '{'] <:+: text
  directory : ¬['/'] <:+ text
  dot : ¬['.'] <:+ text
  characters : ∀ c ∈ text, isControl c = false ∧ isWhitespace c = false ∧ c ∉ "~^:?*[\\".toList

theorem validateRecipeReference_iff : validateRecipeReference text = .ok () ↔ GitReference text := by
  have starts (mark : Text) : mark.isPrefixOf text = false ↔ ¬mark <+: text := by
    rw [← Bool.not_eq_true, List.isPrefixOf_iff_prefix]
  have ends (mark : Text) : mark.isSuffixOf text = false ↔ ¬mark <:+ text := by
    rw [← Bool.not_eq_true, List.isSuffixOf_iff_suffix]
  have holds (mark : Text) : (find mark text).isSome = false ↔ ¬mark <:+: text := by
    rw [Option.isSome_eq_false_iff, Option.isNone_iff_eq_none, find_eq_none]
  rw [validateRecipeReference, require_iff, Bool.not_eq_true']
  simp only [Bool.or_eq_false_iff, List.isEmpty_eq_false_iff, starts, ends, holds, List.any_eq_false,
    Bool.not_eq_true, contains_false]
  constructor
  · intro given
    obtain ⟨⟨⟨⟨⟨⟨⟨nonempty, option⟩, range⟩, reflog⟩, directory⟩, dot⟩, visible⟩, plain⟩ := given
    exact ⟨nonempty, option, range, reflog, directory, dot, fun c member =>
      ⟨(visible c member).1, (visible c member).2, plain c member⟩⟩
  · intro given
    obtain ⟨nonempty, option, range, reflog, directory, dot, characters⟩ := given
    refine ⟨⟨⟨⟨⟨⟨⟨nonempty, option⟩, range⟩, reflog⟩, directory⟩, dot⟩, ?_⟩, ?_⟩
    · exact fun c member => ⟨(characters c member).1, (characters c member).2.1⟩
    · exact fun c member => (characters c member).2.2

end Agreement

section Construction
variable {sha256 : List UInt8 → List UInt8} {cacheHome : Option Text} {parseUrl : Text → Option Url}

theorem new_ok {repository reference : Text} (repositoryGiven : trim repository ≠ [])
    (referenceGiven : trim reference ≠ []) :
    (∃ made, RecipeRepository.new sha256 cacheHome (some repository) reference = .ok made) ↔
      Source (trim repository) ∧ GitReference (trim reference) := by
  have named : (if (trim reference).isEmpty then DEFAULT_REFERENCE else trim reference) = trim reference :=
    if_neg (by rw [List.isEmpty_iff]; exact referenceGiven)
  rw [← validateRepository_iff, ← validateRecipeReference_iff]
  simp only [RecipeRepository.new, Option.getD_some, named, bind_ok_iff, require_iff]
  constructor
  · intro given
    obtain ⟨made, _, repositoryOk, referenceOk, _⟩ := given
    exact ⟨repositoryOk, referenceOk⟩
  · intro given
    obtain ⟨repositoryOk, referenceOk⟩ := given
    refine ⟨_, ?_, repositoryOk, referenceOk, rfl⟩
    rw [Bool.not_eq_true', List.isEmpty_eq_false_iff]
    exact repositoryGiven

/-- A configuration that is valid has recipes to be had if and only if its reference is one for Git, and its repository
is not a scheme with white space in the place of the host. -/
theorem new_iff {config : Config} (valid : config.validate parseUrl = .ok ()) :
    (∃ made, RecipeRepository.new sha256 cacheHome (some config.recipes.repository) config.recipes.reference = .ok made) ↔
      GitReference (trim config.recipes.reference) ∧
        (trim config.recipes.repository).map Char.toLower ∉ ["https://".toList, "ssh://".toList] := by
  have fields := validate_iff.mp valid
  obtain ⟨nonempty, source⟩ := validateRepositoryReference_iff.mp fields.repository
  rw [new_ok nonempty fields.reference, source_trim source, and_comm]

/-- The defaults of the configuration. -/
theorem default_new : ∃ made, RecipeRepository.new (fun bytes => bytes) none
    (some ({} : Config).recipes.repository) ({} : Config).recipes.reference = .ok made := by
  exact (@new_iff _ _ (fun _ => none) _ default_saves).mpr ⟨validateRecipeReference_iff.mp (by decide), by decide⟩

/-- A reference with a space in it is valid until recipes are wanted. -/
theorem spaced_reference_refused : ¬∀ (parseUrl : Text → Option Url) (sha256 : List UInt8 → List UInt8)
    (cacheHome : Option Text) (config : Config), config.validate parseUrl = .ok () →
    ∃ made, RecipeRepository.new sha256 cacheHome (some config.recipes.repository) config.recipes.reference = .ok made := by
  intro always
  obtain ⟨made, wrong⟩ := always (fun _ => none) (fun bytes => bytes) none
    { recipes := { reference := "release 2".toList } } rfl
  cases wrong

end Construction

end Pbox.Cli.RecipeSource
