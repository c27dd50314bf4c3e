import Pbox.Cli.RecipeConfinement

/-! The catalog that a discovery returns: where each of its recipes is from, that its ids ascend, and when
its paths are the ones that were found and pass the checks of an application. -/

namespace Pbox.Cli.RecipeTree
open Pbox.Lib.Strings Pbox.Lib.FileTree Pbox.Lib.Utf8 Pbox.Lib.Descent Pbox.Lib.Checks
open Pbox.Files (Path systemComponents IsPart isPart_of_isName plain osStrs_plain parse_join)

/-! The candidates: what the tree shows at a path, and the path as text. -/

section Candidates
variable {checkout : Checkout} {base place : Place} {candidate : Candidate}

theorem candidateAt_role (first : place.head? = some (utf8 "roles".toList))
    (ok : candidateAt place = .ok (some candidate)) :
    ∃ role main, IsMain main ∧ place = (taskNames role main).map utf8 ∧
      candidate = ⟨role, .role, pathString (taskNames role main)⟩ := by
  unfold candidateAt at ok
  rw [if_pos first] at ok
  split at ok
  next roles role tasks main =>
    have roles_ : roles = utf8 "roles".toList := Option.some.inj first
    split at ok
    next both =>
      split at ok
      next => cases ok
      next text decoded =>
        cases ok
        obtain ⟨rfl, is⟩ := both
        have role_ : role = utf8 text := (fromUtf8_eq_some_iff.mp decoded).symm
        have main_ : ∃ name, IsMain name ∧ main = utf8 name := by
          rcases is with is | is
          · exact ⟨MAIN_YML, Or.inl rfl, is⟩
          · exact ⟨MAIN_YAML, Or.inr rfl, is⟩
        obtain ⟨name, isMain, rfl⟩ := main_
        refine ⟨text, name, isMain, ?_, ?_⟩
        · rw [roles_, role_]
          rfl
        · rw [roles_, role_]
          simp only [List.map_cons, List.map_nil, fromUtf8Lossy_utf8]
          rfl
    next => cases ok
  next => cases ok

/-- What is found outside of the roles. -/
structure IsPlaybook (place : Place) (candidate : Candidate) : Prop where
  yaml : isYamlFile (place.getLast?.getD []) = true
  notMetadata : isMetadataFile (place.getLast?.getD []) = false
  notSupport : isAnsibleSupportFile (place.getLast?.getD []) = false
  id : playbookId place = .ok candidate.id
  kind : candidate.kind = .playbook
  path : candidate.path = pathString (place.map fromUtf8Lossy)

theorem candidateAt_playbook (outside : place.head? ≠ some (utf8 "roles".toList)) :
    candidateAt place = .ok (some candidate) ↔ IsPlaybook place candidate := by
  unfold candidateAt
  rw [if_neg outside]
  dsimp only
  constructor
  · intro ok
    split at ok
    next => cases ok
    next named =>
      simp only [Bool.or_eq_true, Bool.not_eq_true', not_or] at named
      obtain ⟨⟨yaml, notMetadata⟩, notSupport⟩ := named
      split at ok
      next => cases ok
      next id found =>
        cases ok
        exact ⟨by simpa using yaml, by simpa using notMetadata, by simpa using notSupport, found, rfl, rfl⟩
  · intro playbook
    obtain ⟨id, kind, path⟩ := candidate
    have kind_ : kind = .playbook := playbook.kind
    have path_ : path = pathString (place.map fromUtf8Lossy) := playbook.path
    subst kind_ path_
    simp [playbook.yaml, playbook.notMetadata, playbook.notSupport, playbook.id]

/-- What the walk finds is a regular file that counts as a candidate. -/
theorem found_some (found : checkout.found base place = some candidate) :
    (∃ bytes, checkout.at base place = some (.file bytes)) ∧ place.getLast? ≠ some GIT ∧
      candidateAt place = .ok (some candidate) := by
  unfold Checkout.found at found
  split at found
  next bytes file =>
    split at found
    next => cases found
    next other =>
      split at found
      next candidate_ ok =>
        cases found
        exact ⟨⟨bytes, file⟩, other, ok⟩
      next => cases found
  next => cases found

theorem found_of {bytes : List UInt8} (file : checkout.at base place = some (.file bytes))
    (other : place.getLast? ≠ some GIT) (ok : candidateAt place = .ok (some candidate)) :
    checkout.found base place = some candidate := by
  unfold Checkout.found
  rw [file]
  simp only [if_neg other, ok]

theorem children_some {names : List Name} (lists : checkout.children base place = some names) :
    checkout.at base place = some .directory ∧ place.getLast? ≠ some GIT ∧
      ∀ name, name ∈ names ↔ (checkout.at base (place ++ [name])).isSome := by
  unfold Checkout.children at lists
  split at lists
  next both =>
    cases lists
    refine ⟨both.1, both.2, ?_⟩
    intro name
    rw [List.mem_insertionSort, mem_listing, List.append_assoc]
    rfl
  next => cases lists

theorem below_at {above : Place} (below : Below (checkout.children base) above place) :
    (checkout.at base place).isSome := by
  induction below with
  | entry lists member => exact ((children_some lists).2.2 _).mp member
  | deeper lists member _ ih => exact ih

theorem below_ne_nil (below : Below (checkout.children base) [] place) : place ≠ [] := by
  rintro rfl
  obtain ⟨name, longer⟩ := below.longer
  have length := longer.length_le
  simp at length

/-- A candidate is below no directory of Git. -/
theorem found_notGit (below : Below (checkout.children base) [] place) (found : checkout.found base place = some candidate) :
    GIT ∉ place := by
  intro member
  obtain ⟨front, back, rfl⟩ := List.append_of_mem member
  cases back with
  | nil => exact (found_some found).2.1 List.getLast?_concat
  | cons next back =>
    have above : front ++ [GIT] <+: front ++ GIT :: next :: back := ⟨next :: back, by simp⟩
    have lists := below.between List.nil_prefix above (by simp)
    exact lists (children_git List.getLast?_concat)

/-- Every object below the root is gone through that is below no directory of Git. -/
theorem below_of_at (present : (checkout.at base place).isSome) (some_ : place ≠ [])
    (notGit : GIT ∉ place) : Below (checkout.children base) [] place := by
  induction place using List.reverseRecOn with
  | nil => exact absurd rfl some_
  | append_singleton front name ih =>
    rw [List.mem_append, not_or] at notGit
    obtain ⟨object, found⟩ := Option.isSome_iff_exists.mp present
    have directory := at_directory found
    have other : front.getLast? ≠ some GIT := fun last => notGit.1 (List.mem_of_getLast? last)
    have lists : checkout.children base front = some _ := if_pos ⟨directory, other⟩
    have member := ((children_some lists).2.2 name).mpr present
    rcases List.eq_nil_or_concat' front with rfl | ⟨above, last, rfl⟩
    · exact .entry lists member
    · exact (ih (by rw [directory]; rfl) (by simp) notGit.1).snoc lists member

/-- The names of a path that is gone through are names. -/
theorem below_isName (below : Below (checkout.children base) [] place) : ∀ name ∈ place, IsName name :=
  isName_of_lookup (below_at below)

/-- The name that is shown for a name is a component of its own. -/
theorem isPart_lossy {name : Name} (valid : IsName name) : IsPart (fromUtf8Lossy name) where
  nonempty := fromUtf8Lossy_ne_nil valid.nonempty
  noSlash := fun member => valid.noSlash (mem_of_mem_readLossy rfl (by decide) member)
  notCurrent := by
    intro same
    have kept : Char.ofNat 0xfffd ∉ fromUtf8Lossy name := by
      rw [same]
      decide
    have bytes := utf8_fromUtf8Lossy kept
    rw [same] at bytes
    exact valid.notCurrent bytes.symm
  notParent := by
    intro same
    have kept : Char.ofNat 0xfffd ∉ fromUtf8Lossy name := by
      rw [same]
      decide
    have bytes := utf8_fromUtf8Lossy kept
    rw [same] at bytes
    exact valid.notParent bytes.symm

/-- A text without replacements is shown for its own bytes alone. -/
theorem eq_of_lossy {name : Name} {text : Text} (kept : Char.ofNat 0xfffd ∉ text)
    (same : utf8 (fromUtf8Lossy name) = utf8 text) : name = utf8 text := by
  have shown := utf8_injective same
  rw [← shown] at kept ⊢
  exact (utf8_fromUtf8Lossy kept).symm

end Candidates

/-! The order of the catalog: sorted, and no id twice. -/

section Order
variable {recipes : List Recipe}

/-- Ids ascend. -/
def Ascends (recipes : List Recipe) : Prop :=
  recipes.Pairwise fun left right => textLe left.id right.id = true ∧ left.id ≠ right.id

theorem ascends_of_sorted (sorted : recipes.Pairwise fun left right => textLe left.id right.id = true)
    (single : duplicate recipes = none) : Ascends recipes := by
  induction recipes with
  | nil => exact List.Pairwise.nil
  | cons first rest ih =>
    obtain ⟨low, sorted⟩ := List.pairwise_cons.mp sorted
    cases rest with
    | nil => exact List.pairwise_singleton _ _
    | cons second rest =>
      unfold duplicate at single
      split at single
      next => cases single
      next apart =>
        refine List.pairwise_cons.mpr ⟨?_, ih sorted single⟩
        intro other member
        refine ⟨low other member, ?_⟩
        intro same
        rcases List.mem_cons.mp member with rfl | member
        · exact apart same
        · -- the neighbour is between the two
          have above := (List.pairwise_cons.mp sorted).1 other member
          rw [← same] at above
          exact apart (textLe_antisymm (low second List.mem_cons_self) above)

theorem sorted_byId (recipes : List Recipe) :
    (recipes.insertionSort fun left right => textLe left.id right.id).Pairwise
      fun left right => textLe left.id right.id = true := by
  have total : Std.Total fun left right : Recipe => textLe left.id right.id = true :=
    ⟨fun left right => textLe_total left.id right.id⟩
  have trans : IsTrans Recipe fun left right => textLe left.id right.id = true :=
    ⟨fun _ _ _ low high => textLe_trans low high⟩
  exact List.pairwise_insertionSort _ _

end Order

/-! Where the recipes of a catalog are from. -/

section Origins
variable {checkout : Checkout} {base : Place} {quoted : Text → Text} {manifest : RecipeManifest}
variable {candidate : Candidate} {recipe : Recipe}

/-- The path that the manifest has for an id. -/
def RecipeManifest.pathOf (manifest : RecipeManifest) (id : Text) : Option Text := (manifest.get id).bind (·.path)

theorem get_some {id : Text} {entry : RecipeManifestEntry} (got : manifest.get id = some entry) :
    (id, entry) ∈ manifest.recipes := by
  obtain ⟨pair, found, rfl⟩ := Option.map_eq_some_iff.mp got
  have same := List.find?_some found
  simp only [decide_eq_true_eq] at same
  rw [← same]
  exact List.mem_of_find?_eq_some found

theorem keys_nodup (manifest : RecipeManifest) : (manifest.recipes.map Prod.fst).Nodup :=
  manifest.ascends.imp fun both => both.2

/-- An id has one entry. -/
theorem entry_unique {id : Text} {entry other : RecipeManifestEntry} (member : (id, entry) ∈ manifest.recipes)
    (among : (id, other) ∈ manifest.recipes) : entry = other := by
  have same := List.inj_on_of_nodup_map (keys_nodup manifest) member among rfl
  exact (Prod.mk.inj same).2

theorem get_of_mem {id : Text} {entry : RecipeManifestEntry} (member : (id, entry) ∈ manifest.recipes) :
    manifest.get id = some entry := by
  cases got : manifest.get id with
  | none =>
    have absent := Option.map_eq_none_iff.mp got
    have other := List.find?_eq_none.mp absent _ member
    simp at other
  | some other => rw [entry_unique member (get_some got)]

variable (checkout) in
/-- The manifest says where the recipe is. -/
def Checkout.Listed (manifest : RecipeManifest) (recipe : Recipe) : Prop :=
  ∃ entry, (recipe.id, entry) ∈ manifest.recipes ∧
    checkout.manifestRecipePath recipe.id entry = .ok (recipe.kind, recipe.path)

/-- The recipe is where the candidate was found. -/
structure Kept (manifest : RecipeManifest) (candidate : Candidate) (recipe : Recipe) : Prop where
  unlisted : manifest.pathOf candidate.id = none
  kind : recipe.kind = candidate.kind
  path : recipe.path = candidate.path

theorem candidateRecipe_ok (ok : checkout.candidateRecipe quoted manifest candidate = .ok recipe) :
    recipe.id = candidate.id ∧ (Kept manifest candidate recipe ∨ checkout.Listed manifest recipe) := by
  unfold Checkout.candidateRecipe at ok
  obtain ⟨⟨kind, path⟩, located, ok⟩ := bind_ok ok
  obtain ⟨_, _, ok⟩ := bind_ok ok
  cases ok
  refine ⟨rfl, ?_⟩
  unfold Checkout.candidatePath at located
  split at located
  next entry got =>
    split at located
    next => exact Or.inr ⟨entry, get_some got, located⟩
    next noPath =>
      cases located
      refine Or.inl ⟨?_, rfl, rfl⟩
      rw [Option.not_isSome_iff_eq_none] at noPath
      simp [RecipeManifest.pathOf, got, noPath]
  next got =>
    cases located
    exact Or.inl ⟨by simp [RecipeManifest.pathOf, got], rfl, rfl⟩

/-- The entries add recipes, each of them where the manifest says, and leave no id out. -/
theorem manifestRecipes_ok {entries : List (Text × RecipeManifestEntry)} {found out : List Recipe}
    (ok : entries.foldlM (checkout.manifestRecipe quoted) found = .ok out) :
    (∃ added, out = found ++ added) ∧
      (∀ recipe ∈ out, recipe ∈ found ∨ ∃ entry ∈ entries, recipe.id = entry.1 ∧
        checkout.manifestRecipePath entry.1 entry.2 = .ok (recipe.kind, recipe.path)) ∧
      ∀ entry ∈ entries, ∃ recipe ∈ out, recipe.id = entry.1 := by
  induction entries generalizing found with
  | nil =>
    cases ok
    exact ⟨⟨[], by simp⟩, fun recipe member => Or.inl member, by simp⟩
  | cons entry rest ih =>
    rw [List.foldlM_cons] at ok
    obtain ⟨middle, first, ok⟩ := bind_ok ok
    obtain ⟨⟨added, whole⟩, from_, all⟩ := ih ok
    have kept (recipe : Recipe) (member : recipe ∈ middle) : recipe ∈ out := by
      rw [whole]
      exact List.mem_append_left _ member
    unfold Checkout.manifestRecipe at first
    split at first
    next known =>
      cases first
      refine ⟨⟨added, whole⟩, ?_, ?_⟩
      · intro recipe member
        rcases from_ recipe member with member | ⟨other, among, same⟩
        · exact Or.inl member
        · exact Or.inr ⟨other, List.mem_cons_of_mem _ among, same⟩
      · intro other member
        rcases List.mem_cons.mp member with rfl | member
        · obtain ⟨recipe, among, same⟩ := List.any_eq_true.mp known
          exact ⟨recipe, kept recipe among, of_decide_eq_true same⟩
        · exact all other member
    next =>
      obtain ⟨⟨kind, path⟩, located, first⟩ := bind_ok first
      obtain ⟨_, _, first⟩ := bind_ok first
      cases first
      refine ⟨⟨_, by rw [whole, List.append_assoc]⟩, ?_, ?_⟩
      · intro recipe member
        rcases from_ recipe member with member | ⟨other, among, same⟩
        · rcases List.mem_append.mp member with member | member
          · exact Or.inl member
          · rw [List.mem_singleton.mp member]
            exact Or.inr ⟨entry, List.mem_cons_self, rfl, located⟩
        · exact Or.inr ⟨other, List.mem_cons_of_mem _ among, same⟩
      · intro other member
        rcases List.mem_cons.mp member with rfl | member
        · exact ⟨_, kept _ (List.mem_append_right _ (List.mem_singleton_self _)), rfl⟩
        · exact all other member

variable (checkout base) in
/-- What the tree and the manifest make of a catalog. -/
structure Checkout.Discovered (manifest : RecipeManifest) (recipes : List Recipe) : Prop where
  ascends : Ascends recipes
  origin : ∀ recipe ∈ recipes,
    (∃ place candidate, Below (checkout.children base) [] place ∧ checkout.found base place = some candidate ∧
      recipe.id = candidate.id ∧ Kept manifest candidate recipe) ∨ checkout.Listed manifest recipe
  candidates : ∀ place candidate, Below (checkout.children base) [] place →
    checkout.found base place = some candidate → manifest.pathOf candidate.id = none →
      ∃ recipe ∈ recipes, Kept manifest candidate recipe
  entries : ∀ id entry text, (id, entry) ∈ manifest.recipes → entry.path = some text →
    ∃ recipe ∈ recipes, checkout.manifestRecipePath id entry = .ok (recipe.kind, recipe.path)
  single : ∀ first second candidate other, Below (checkout.children base) [] first →
    Below (checkout.children base) [] second → checkout.found base first = some candidate →
      checkout.found base second = some other → candidate.id = other.id → first = second

theorem forall₂_left {α β : Type} {r : α → β → Prop} {left : List α} {right : List β} (both : List.Forall₂ r left right)
    {a : α} (member : a ∈ left) : ∃ b ∈ right, r a b := by
  induction both with
  | nil => cases member
  | cons here _ ih =>
    rcases List.mem_cons.mp member with rfl | member
    · exact ⟨_, List.mem_cons_self, here⟩
    · obtain ⟨b, among, related⟩ := ih member
      exact ⟨b, List.mem_cons_of_mem _ among, related⟩

/-- Two paths of which one id is made are one path, where the ids are distinct. -/
theorem eq_of_ids {places : List Place} {found : Place → Option Candidate}
    (distinct : ((places.filterMap found).map (·.id)).Nodup) {first second : Place} {candidate other : Candidate}
    (member : first ∈ places) (among : second ∈ places) (left : found first = some candidate)
    (right : found second = some other) (same : candidate.id = other.id) : first = second := by
  rw [List.Nodup, List.pairwise_map, List.pairwise_filterMap] at distinct
  by_contra apart
  have symmetric : Std.Symm fun a b : Place => ∀ x, found a = some x → ∀ y, found b = some y → x.id ≠ y.id :=
    ⟨fun a b different x here y there => (different y there x here).symm⟩
  exact distinct.forall member among apart candidate left other right same

theorem ids_of_candidates {candidates : List Candidate} {recipes : List Recipe}
    (each : List.Forall₂ (fun candidate recipe => checkout.candidateRecipe quoted manifest candidate = .ok recipe)
      candidates recipes) : recipes.map (·.id) = candidates.map (·.id) := by
  induction each with
  | nil => rfl
  | cons here _ ih => rw [List.map_cons, List.map_cons, ih, (candidateRecipe_ok here).1]

/-- What the steps of a discovery leave behind: the candidates of the walk, their recipes, and all recipes. -/
structure Assembled (checkout : Checkout) (base : Place) (quoted : Text → Text) (manifest : RecipeManifest) (fuel : Nat)
    (found all : List Recipe) : Prop where
  within : Within (checkout.children base) fuel []
  each : List.Forall₂ (fun candidate recipe => checkout.candidateRecipe quoted manifest candidate = .ok recipe)
    ((tour (checkout.children base) fuel []).filterMap (checkout.found base)) found
  added : manifest.recipes.foldlM (checkout.manifestRecipe quoted) found = .ok all
  single : duplicate (all.insertionSort fun left right => textLe left.id right.id) = none

section Assembly
variable {fuel : Nat} {found all : List Recipe} (assembled : Assembled checkout base quoted manifest fuel found all)
include assembled

theorem Assembled.ascends : Ascends (all.insertionSort fun left right => textLe left.id right.id) :=
  ascends_of_sorted (sorted_byId all) assembled.single

theorem Assembled.distinct :
    (((tour (checkout.children base) fuel []).filterMap (checkout.found base)).map (·.id)).Nodup := by
  have ids : (all.map (·.id)).Nodup := by
    have perm := (List.perm_insertionSort (fun left right : Recipe => textLe left.id right.id) all).map (·.id)
    rw [← perm.nodup_iff, List.Nodup, List.pairwise_map]
    exact assembled.ascends.imp fun both => both.2
  obtain ⟨⟨more, whole⟩, _, _⟩ := manifestRecipes_ok assembled.added
  rw [whole, List.map_append, ids_of_candidates assembled.each] at ids
  exact (List.nodup_append.mp ids).1

theorem Assembled.origin (member : recipe ∈ all) :
    (∃ place candidate, Below (checkout.children base) [] place ∧ checkout.found base place = some candidate ∧
      recipe.id = candidate.id ∧ Kept manifest candidate recipe) ∨ checkout.Listed manifest recipe := by
  obtain ⟨_, from_, _⟩ := manifestRecipes_ok assembled.added
  rcases from_ recipe member with member | ⟨entry, among, id, located⟩
  · obtain ⟨candidate, among, made⟩ := forall₂_left assembled.each.flip member
    obtain ⟨id, kept | listed⟩ := candidateRecipe_ok made
    · obtain ⟨place, inside, shown⟩ := List.mem_filterMap.mp among
      exact Or.inl ⟨place, candidate, (mem_tour assembled.within).mp inside, shown, id, kept⟩
    · exact Or.inr listed
  · exact Or.inr ⟨entry.2, id ▸ among, id ▸ located⟩

theorem Assembled.kept {place : Place} (below : Below (checkout.children base) [] place)
    (shown : checkout.found base place = some candidate) (unlisted : manifest.pathOf candidate.id = none) :
    ∃ recipe ∈ all, Kept manifest candidate recipe := by
  obtain ⟨⟨more, whole⟩, _, _⟩ := manifestRecipes_ok assembled.added
  have among := List.mem_filterMap.mpr ⟨place, (mem_tour assembled.within).mpr below, shown⟩
  obtain ⟨recipe, member, made⟩ := forall₂_left assembled.each among
  refine ⟨recipe, whole ▸ List.mem_append_left _ member, ?_⟩
  obtain ⟨id, kept | ⟨entry, member, located⟩⟩ := candidateRecipe_ok made
  · exact kept
  · -- an entry with a path would be what the id is listed under
    rw [id] at member
    have noPath : entry.path = none := by simpa [RecipeManifest.pathOf, get_of_mem member] using unlisted
    simp [Checkout.manifestRecipePath, noPath] at located

theorem Assembled.listed {id text : Text} {entry : RecipeManifestEntry} (member : (id, entry) ∈ manifest.recipes)
    (path : entry.path = some text) :
    ∃ recipe ∈ all, checkout.manifestRecipePath id entry = .ok (recipe.kind, recipe.path) := by
  obtain ⟨_, from_, listed⟩ := manifestRecipes_ok assembled.added
  obtain ⟨recipe, among, same⟩ := listed _ member
  refine ⟨recipe, among, ?_⟩
  rcases from_ recipe among with found_ | ⟨other, inside, id_, located⟩
  · obtain ⟨candidate, _, made⟩ := forall₂_left assembled.each.flip found_
    obtain ⟨id_, kept | ⟨other, inside, located⟩⟩ := candidateRecipe_ok made
    · have unlisted := kept.unlisted
      rw [← id_, same] at unlisted
      simp [RecipeManifest.pathOf, get_of_mem member, path] at unlisted
    · rw [same] at inside located
      rw [entry_unique member inside]
      exact located
  · rw [id_] at same
    obtain ⟨key, other⟩ := other
    cases same
    rw [entry_unique member inside]
    exact located

theorem Assembled.discovered :
    checkout.Discovered base manifest (all.insertionSort fun left right => textLe left.id right.id) where
  ascends := assembled.ascends
  origin := fun recipe member => assembled.origin ((List.mem_insertionSort _).mp member)
  candidates := by
    intro place candidate below shown unlisted
    obtain ⟨recipe, member, kept⟩ := assembled.kept below shown unlisted
    exact ⟨recipe, (List.mem_insertionSort _).mpr member, kept⟩
  entries := by
    intro id entry text member path
    obtain ⟨recipe, among, located⟩ := assembled.listed member path
    exact ⟨recipe, (List.mem_insertionSort _).mpr among, located⟩
  single := by
    intro first second candidate other below below' left right same
    exact eq_of_ids assembled.distinct ((mem_tour assembled.within).mpr below)
      ((mem_tour assembled.within).mpr below') left right same

end Assembly

variable {parse : Text → Except Text RecipeManifest} {gitRevision : Option Text} {fuel : Nat}
variable {repository reference : Text} {catalog : RecipeCatalog}

theorem discovered (ok : checkout.discoverPath quoted parse gitRevision fuel repository reference = .ok catalog) :
    ∃ base manifest, checkout.Rooted base ∧ checkout.readManifest parse MANIFEST_NAMES = .ok manifest ∧
      checkout.Discovered base manifest catalog.recipes := by
  unfold Checkout.discoverPath at ok
  split at ok
  next isDir =>
    obtain ⟨base, rooted⟩ := rooted_of_isDir isDir
    obtain ⟨manifest, read, ok⟩ := bind_ok ok
    obtain ⟨candidates, collected, ok⟩ := bind_ok ok
    obtain ⟨found, kept, ok⟩ := bind_ok ok
    obtain ⟨all, added, ok⟩ := bind_ok ok
    have top : checkout.at base [] = some .directory := by
      unfold Checkout.at
      rw [List.append_nil]
      exact rooted.directory
    obtain ⟨within, walked⟩ := collectCandidates_ok rooted top (by simp) collected
    rw [List.nil_append] at walked
    have each := mapM_ok (mapError_ok kept)
    rw [walked] at each
    dsimp only at ok
    split at ok
    next => cases ok
    next single =>
      cases ok
      have assembled : Assembled checkout base quoted manifest fuel found all := ⟨within, each, mapError_ok added, single⟩
      exact ⟨base, manifest, rooted, mapError_ok read, assembled.discovered⟩
  next => cases ok

/-- With more fuel than there are entries a discovery comes to an end. -/
theorem discoverPath_ends (enough : checkout.volume.entries.length < fuel) :
    checkout.discoverPath quoted parse gitRevision fuel repository reference ≠ .error .outOfFuel := by
  have failed {Value Result : Type} (outcome : Except Failure Value) (rest : Value → Except Stop Result)
      (later : ∀ value, rest value ≠ .error .outOfFuel) : (orFailed outcome >>= rest) ≠ .error .outOfFuel := by
    cases outcome with
    | error failure => simp [orFailed, Except.mapError, bind, Except.bind]
    | ok value => exact later value
  unfold Checkout.discoverPath
  split
  next isDir =>
    obtain ⟨base, rooted⟩ := rooted_of_isDir isDir
    apply failed
    intro manifest
    have top : checkout.at base [] = some .directory := by
      unfold Checkout.at
      rw [List.append_nil]
      exact rooted.directory
    have ends : checkout.collectCandidates fuel [] [] ≠ .error .outOfFuel := by
      apply collectCandidates_ends rooted top
      omega
    cases collected : checkout.collectCandidates fuel [] [] with
    | error stop =>
      intro stopped
      apply ends
      rw [collected]
      cases stopped
      rfl
    | ok candidates =>
      apply failed
      intro found
      apply failed
      intro all
      dsimp only
      split
      next => simp [throw, throwThe, MonadExceptOf.throw]
      next => simp [pure, Except.pure]
  next => simp [throw, throwThe, MonadExceptOf.throw]

end Origins

/-! When a catalog is confined: its paths are the ones that were found, and an application accepts them. -/

section Confinement
variable {checkout : Checkout} {base : Place} {manifest : RecipeManifest}

variable (checkout base) in
/-- The ids ascend; each path leads from the root through no link and to no parent to a recipe, and passes
the checks of an application. -/
structure Checkout.ConfinedAt (catalog : RecipeCatalog) : Prop where
  ascends : Ascends catalog.recipes
  located : ∀ recipe ∈ catalog.recipes,
    ∃ led names, Path.parse recipe.path = plain led names ∧ checkout.IsRecipe base names
  accepted : ∀ recipe ∈ catalog.recipes, checkout.repositoryPath recipe.path = .ok () ∧
    (recipe.kind = .role → ∃ directory, checkout.roleDirectory recipe.path = .ok directory)

variable (checkout) in
def Checkout.Confined (catalog : RecipeCatalog) : Prop :=
  ∃ base, checkout.Rooted base ∧ checkout.ConfinedAt base catalog

variable (checkout base) in
/-- What is taken from where it is found has names that are texts, and no main task of a role in use is a
link. -/
structure Checkout.PlainAt (manifest : RecipeManifest) : Prop where
  texts : ∀ place candidate, Below (checkout.children base) [] place → checkout.found base place = some candidate →
    manifest.pathOf candidate.id = none → ∀ name ∈ place, ∃ text, name = utf8 text
  roles : ∀ place candidate, Below (checkout.children base) [] place → checkout.found base place = some candidate →
    manifest.pathOf candidate.id = none → candidate.kind = .role → checkout.NoTaskLink base candidate.id
  listed : ∀ id entry text role, (id, entry) ∈ manifest.recipes → entry.path = some text →
    roleOf (Path.parse text).osStrs = some role → checkout.NoTaskLink base role

variable (checkout) in
def Checkout.Plain (parse : Text → Except Text RecipeManifest) : Prop :=
  ∀ base manifest, checkout.Rooted base → checkout.readManifest parse MANIFEST_NAMES = .ok manifest →
    checkout.PlainAt base manifest

variable {led : Bool} {names : List Text} {place : Place} {candidate : Candidate} {recipe : Recipe}

theorem rooted_unique {other : Place} (rooted : checkout.Rooted base) (again : checkout.Rooted other) : other = base := by
  have same := again.resolved
  rw [rooted.resolved] at same
  exact (Except.ok.inj same).symm

/-- A recipe is at names, and at what is no link. -/
theorem recipe_at (rooted : checkout.Rooted base) (recipe : checkout.IsRecipe base names) :
    names ≠ [] ∧ ∃ object, checkout.at base (names.map utf8) = some object ∧ ∀ target, object ≠ .link target := by
  rcases recipe with ⟨⟨bytes, file⟩, _⟩ | ⟨role, same, directory, _⟩
  · refine ⟨?_, _, file, by simp⟩
    rintro rfl
    unfold Checkout.at at file
    rw [List.map_nil, List.append_nil, rooted.directory] at file
    cases file
  · exact ⟨by simp [same], _, directory, by simp⟩

/-- The joined path of a recipe is read as its names and accepted. -/
theorem recipe_path (rooted : checkout.Rooted base) (recipe : checkout.IsRecipe base names) :
    Path.parse (pathString (plain led names).osStrs) = plain led names ∧
      checkout.repositoryPath (pathString (plain led names).osStrs) = .ok () := by
  obtain ⟨some_, object, found, noLink⟩ := recipe_at rooted recipe
  have parts (name : Text) (member : name ∈ names) : IsPart name := isPart_of_isName (parts_of_at found name member)
  have nonempty : (plain led names).osStrs ≠ [] := by
    rw [osStrs_plain]
    simp [some_]
  exact ⟨parse_join parts nonempty, confine_plain rooted some_ found noLink⟩

theorem roleOf_task {role main : Text} (is : IsMain main) : roleOf (plain false (taskNames role main)).osStrs = some role := by
  rw [osStrs_plain]
  rcases is with rfl | rfl
  · simp [roleOf, roleOfDirectory, roleOfMain, taskNames]
  · simp [roleOf, roleOfDirectory, roleOfMain, taskNames]

/-- A role is found by its main task. -/
theorem found_role (found : checkout.found base place = some candidate) (first : place.head? = some (utf8 "roles".toList)) :
    ∃ main, IsMain main ∧ place = (taskNames candidate.id main).map utf8 ∧ candidate.kind = .role ∧
      candidate.path = pathString (plain false (taskNames candidate.id main)).osStrs ∧
        checkout.IsRecipe base (taskNames candidate.id main) ∧ checkout.HasTask base candidate.id := by
  obtain ⟨⟨bytes, file⟩, _, ok⟩ := found_some found
  obtain ⟨role, main, is, rfl, rfl⟩ := candidateAt_role first ok
  refine ⟨main, is, rfl, rfl, ?_, Or.inl ⟨⟨bytes, file⟩, ?_⟩, main, is, bytes, file⟩
  · rw [osStrs_plain]
    rfl
  · rcases is with rfl | rfl
    · show isYamlFile (utf8 MAIN_YML) = true
      decide
    · show isYamlFile (utf8 MAIN_YAML) = true
      decide

theorem last_utf8 (names : List Text) : (names.map utf8).getLast?.getD [] = utf8 (names.getLast?.getD []) := by
  rw [List.getLast?_map]
  cases names.getLast? <;> rfl

/-- A candidate outside of the roles with texts for names is a recipe at its path. -/
theorem found_playbook (found : checkout.found base place = some candidate)
    (outside : place.head? ≠ some (utf8 "roles".toList)) (texts : ∀ name ∈ place, ∃ text, name = utf8 text) :
    candidate.path = pathString (plain false (place.map fromUtf8Lossy)).osStrs ∧
      checkout.IsRecipe base (place.map fromUtf8Lossy) := by
  obtain ⟨⟨bytes, file⟩, _, ok⟩ := found_some found
  have playbook := (candidateAt_playbook outside).mp ok
  have same : (place.map fromUtf8Lossy).map utf8 = place := by
    rw [List.map_map]
    calc place.map (utf8 ∘ fromUtf8Lossy)
      _ = place.map id := by
        apply List.map_congr_left
        intro name member
        obtain ⟨text, rfl⟩ := texts name member
        exact congrArg utf8 (fromUtf8Lossy_utf8 text)
      _ = place := List.map_id place
  refine ⟨?_, Or.inl ⟨⟨bytes, ?_⟩, ?_⟩⟩
  · rw [playbook.path, osStrs_plain]
    rfl
  · rw [same]
    exact file
  · rw [← last_utf8, same]
    exact playbook.yaml

/-- A name that is shown as a text without replacements is that text. -/
theorem lossy_iff {name : Name} {text : Text} (kept : Char.ofNat 0xfffd ∉ text) :
    utf8 (fromUtf8Lossy name) = utf8 text ↔ name = utf8 text := by
  constructor
  · exact eq_of_lossy kept
  · rintro rfl
    rw [fromUtf8Lossy_utf8]

theorem head_lossy {text : Text} (kept : Char.ofNat 0xfffd ∉ text) :
    ((place.map fromUtf8Lossy).map utf8).head? = some (utf8 text) ↔ place.head? = some (utf8 text) := by
  cases place with
  | nil => simp
  | cons name rest =>
    simp only [List.map_cons, List.head?_cons, Option.some.injEq]
    exact lossy_iff kept

theorem map_lossy (place : Place) : ((place.map fromUtf8Lossy).map utf8).map fromUtf8Lossy = place.map fromUtf8Lossy := by
  rw [List.map_map, List.map_map]
  apply List.map_congr_left
  intro name _
  exact fromUtf8Lossy_utf8 (fromUtf8Lossy name)

theorem playbookId_lossy (place : Place) : playbookId ((place.map fromUtf8Lossy).map utf8) = playbookId place := by
  unfold playbookId
  have head := @head_lossy place "playbooks".toList (by decide)
  have tail : (((place.map fromUtf8Lossy).map utf8).tail).map fromUtf8Lossy = place.tail.map fromUtf8Lossy := by
    rw [← List.map_tail, ← List.map_tail, map_lossy]
  by_cases first : place.head? = some (utf8 "playbooks".toList)
  · simp only [if_pos first, if_pos (head.mpr first), tail, map_lossy]
  · simp only [if_neg first, if_neg (first ∘ head.mp), map_lossy]

/-- Where the path that is shown for a playbook leads to a recipe, the same playbook is found there. -/
theorem found_lossy (found : checkout.found base place = some candidate)
    (outside : place.head? ≠ some (utf8 "roles".toList)) (recipe : checkout.IsRecipe base (place.map fromUtf8Lossy)) :
    checkout.found base ((place.map fromUtf8Lossy).map utf8) = some candidate := by
  obtain ⟨⟨bytes, file⟩, notGit, ok⟩ := found_some found
  have playbook := (candidateAt_playbook outside).mp ok
  have head := @head_lossy place "roles".toList (by decide)
  have some_ : place ≠ [] := by
    rintro rfl
    have yaml := playbook.yaml
    revert yaml
    decide
  obtain ⟨front, last, rfl⟩ := (List.eq_nil_or_concat' place).resolve_left some_
  rcases recipe with ⟨⟨contents, at_⟩, yaml⟩ | ⟨role, names, _⟩
  · have metadata := playbook.notMetadata
    have support := playbook.notSupport
    rw [← last_utf8] at yaml
    simp only [List.getLast?_concat, Option.getD_some, isMetadataFile, isAnsibleSupportFile, Bool.or_eq_false_iff,
      decide_eq_false_iff_not] at metadata support
    simp only [List.map_append, List.map_cons, List.map_nil, List.getLast?_concat, Option.getD_some] at yaml
    refine found_of at_ ?_ ((candidateAt_playbook fun first => outside (head.mp first)).mpr ⟨?_, ?_, ?_, ?_, playbook.kind, ?_⟩)
    · simp only [List.map_append, List.map_cons, List.map_nil, List.getLast?_concat] at notGit ⊢
      intro git
      exact notGit (congrArg some ((@lossy_iff last ".git".toList (by decide)).mp (Option.some.inj git)))
    · simpa using yaml
    · simp only [List.map_append, List.map_cons, List.map_nil, List.getLast?_concat, Option.getD_some, isMetadataFile,
        Bool.or_eq_false_iff, decide_eq_false_iff_not]
      exact ⟨fun same => metadata.1 ((lossy_iff (by decide)).mp same), fun same => metadata.2 ((lossy_iff (by decide)).mp same)⟩
    · simp only [List.map_append, List.map_cons, List.map_nil, List.getLast?_concat, Option.getD_some,
        isAnsibleSupportFile, Bool.or_eq_false_iff, decide_eq_false_iff_not]
      exact ⟨⟨fun same => support.1.1 ((lossy_iff (by decide)).mp same),
        fun same => support.1.2 ((lossy_iff (by decide)).mp same)⟩,
        fun same => support.2 ((lossy_iff (by decide)).mp same)⟩
    · rw [playbookId_lossy]
      exact playbook.id
    · rw [map_lossy]
      exact playbook.path
  · -- a role's directory starts at the roles
    have first := congrArg (fun names => (names.map utf8).head?) names
    exact absurd (head.mp first) outside

theorem plain_injective {led' : Bool} {names' : List Text} (same : plain led names = plain led' names') :
    names = names' := by
  have components := congrArg Path.components same
  have normal : Function.Injective Files.Component.normal := fun _ _ equal => Files.Component.normal.inj equal
  unfold plain at components
  cases led with
  | false =>
    cases led' with
    | false => exact normal.list_map components
    | true => cases names <;> cases components
  | true =>
    cases led' with
    | false => cases names' <;> cases components
    | true => exact normal.list_map (List.cons.inj components).2

theorem git_lossy (notGit : GIT ∉ place) : GIT ∉ (place.map fromUtf8Lossy).map utf8 := by
  intro member
  obtain ⟨text, among, git⟩ := List.mem_map.mp member
  obtain ⟨name, inside, rfl⟩ := List.mem_map.mp among
  rw [(lossy_iff (by decide)).mp git] at inside
  exact notGit inside

/-- What a confined catalog says of a path that is taken from where it is found. -/
theorem texts_of_located {recipes : List Recipe} (discovered : checkout.Discovered base manifest recipes)
    (below : Below (checkout.children base) [] place) (found : checkout.found base place = some candidate)
    {led : Bool} {names : List Text} (parsed : Path.parse candidate.path = plain led names)
    (recipe : checkout.IsRecipe base names) : ∀ name ∈ place, ∃ text, name = utf8 text := by
  by_cases first : place.head? = some (utf8 "roles".toList)
  · obtain ⟨main, _, same, _⟩ := found_role found first
    intro name member
    rw [same] at member
    obtain ⟨text, _, rfl⟩ := List.mem_map.mp member
    exact ⟨text, rfl⟩
  · have parts : ∀ name ∈ place.map fromUtf8Lossy, IsPart name := by
      intro text member
      obtain ⟨name, inside, rfl⟩ := List.mem_map.mp member
      exact isPart_lossy (below_isName below name inside)
    have path : candidate.path = pathString (plain false (place.map fromUtf8Lossy)).osStrs := by
      rw [((candidateAt_playbook first).mp (found_some found).2.2).path, osStrs_plain]
      rfl
    have nonempty : (plain false (place.map fromUtf8Lossy)).osStrs ≠ [] := by
      rw [osStrs_plain]
      simp [below_ne_nil below]
    have joined := parse_join parts nonempty
    rw [path] at parsed
    have same := plain_injective (joined.symm.trans parsed)
    rw [← same] at recipe
    have again := found_lossy found first recipe
    obtain ⟨⟨bytes, file⟩, _, _⟩ := found_some again
    have there : Below (checkout.children base) [] ((place.map fromUtf8Lossy).map utf8) := by
      refine below_of_at (by rw [file]; rfl) ?_ (git_lossy (found_notGit below found))
      simp [below_ne_nil below]
    have whole := discovered.single _ _ _ _ below there found again rfl
    intro name member
    rw [whole] at member
    obtain ⟨text, _, same⟩ := List.mem_map.mp member
    exact ⟨text, same.symm⟩

theorem kept_confined (rooted : checkout.Rooted base) (plain_ : checkout.PlainAt base manifest)
    (below : Below (checkout.children base) [] place) (found : checkout.found base place = some candidate)
    (kept : Kept manifest candidate recipe) :
    (∃ led names, Path.parse recipe.path = plain led names ∧ checkout.IsRecipe base names) ∧
      checkout.repositoryPath recipe.path = .ok () ∧
        (recipe.kind = .role → ∃ directory, checkout.roleDirectory recipe.path = .ok directory) := by
  by_cases first : place.head? = some (utf8 "roles".toList)
  · obtain ⟨main, is, _, kind, path, isRecipe, task⟩ := found_role found first
    obtain ⟨parsed, accepted⟩ := @recipe_path _ _ false _ rooted isRecipe
    rw [kept.path, path, parsed]
    refine ⟨⟨_, _, rfl, isRecipe⟩, accepted, fun _ => ?_⟩
    refine (roleDirectory_iff rooted ?_ task).mpr (plain_.roles place candidate below found kept.unlisted kind)
    rw [parsed, roleOf_task is]
  · have texts := plain_.texts place candidate below found kept.unlisted
    obtain ⟨path, isRecipe⟩ := found_playbook found first texts
    obtain ⟨parsed, accepted⟩ := @recipe_path _ _ false _ rooted isRecipe
    have kind := ((candidateAt_playbook first).mp (found_some found).2.2).kind
    rw [kept.path, path, parsed, kept.kind, kind]
    exact ⟨⟨_, _, rfl, isRecipe⟩, accepted, by simp⟩

theorem listed_confined (rooted : checkout.Rooted base) (plain_ : checkout.PlainAt base manifest)
    (listed : checkout.Listed manifest recipe) :
    (∃ led names, Path.parse recipe.path = plain led names ∧ checkout.IsRecipe base names) ∧
      checkout.repositoryPath recipe.path = .ok () ∧
        (recipe.kind = .role → ∃ directory, checkout.roleDirectory recipe.path = .ok directory) := by
  obtain ⟨entry, member, located⟩ := listed
  obtain ⟨text, led, names, path, given⟩ := manifestRecipePath_ok rooted located
  obtain ⟨parsed, accepted⟩ := @recipe_path _ _ led _ rooted given.recipe
  rw [given.joined, parsed]
  refine ⟨⟨_, _, rfl, given.recipe⟩, accepted, ?_⟩
  intro kind
  obtain ⟨role, shape, task⟩ := given.role kind
  refine (roleDirectory_iff rooted ?_ task).mpr (plain_.listed _ entry text role member path ?_)
  · rw [parsed, shape]
  · rw [given.parsed, shape]

/-- A role that the manifest names by its directory or its main task is one. -/
theorem given_role {text path : Text} {kind : RecipeKind} {role main : Text} {target : Target}
    (given : checkout.Given base text kind path led names) (shape : roleOf (plain led names).osStrs = some role)
    (link : checkout.at base ((taskNames role main).map utf8) = some (.link target)) : kind = .role := by
  cases kind with
  | role => rfl
  | playbook =>
    obtain ⟨⟨bytes, file⟩, noMain⟩ := given.playbook rfl
    have directory : roleOfDirectory (plain led names).osStrs = some role := by
      simpa [roleOf, noMain] using shape
    obtain ⟨_, rfl⟩ := plain_roles (roleOfDirectory_some directory)
    have inner : checkout.at base (["roles".toList, role].map utf8) = some .directory :=
      @at_directory _ _ (["roles".toList, role].map utf8) (utf8 "tasks".toList) _ (hasTasks_of_at link)
    rw [inner] at file
    cases file

theorem plainAt_of_confined {catalog : RecipeCatalog} (rooted : checkout.Rooted base)
    (discovered : checkout.Discovered base manifest catalog.recipes) (confined : checkout.ConfinedAt base catalog) :
    checkout.PlainAt base manifest where
  texts := by
    intro place candidate below found unlisted
    obtain ⟨recipe, member, kept⟩ := discovered.candidates place candidate below found unlisted
    obtain ⟨led, names, parsed, isRecipe⟩ := confined.located recipe member
    rw [kept.path] at parsed
    exact texts_of_located discovered below found parsed isRecipe
  roles := by
    intro place candidate below found unlisted kind
    obtain ⟨recipe, member, kept⟩ := discovered.candidates place candidate below found unlisted
    have first : place.head? = some (utf8 "roles".toList) := by
      by_contra outside
      have playbook := ((candidateAt_playbook outside).mp (found_some found).2.2).kind
      rw [kind] at playbook
      cases playbook
    obtain ⟨main, is, _, _, path, isRecipe, task⟩ := found_role found first
    obtain ⟨parsed, _⟩ := @recipe_path _ _ false _ rooted isRecipe
    have accepted := (confined.accepted recipe member).2 (kept.kind.trans kind)
    rw [kept.path, path] at accepted
    refine (roleDirectory_iff rooted ?_ task).mp accepted
    rw [parsed, roleOf_task is]
  listed := by
    intro id entry text role member path shape main is target link
    obtain ⟨recipe, among, located⟩ := discovered.entries id entry text member path
    obtain ⟨text', led, names, path', given⟩ := manifestRecipePath_ok rooted located
    rw [path] at path'
    cases path'
    rw [given.parsed] at shape
    have kind := given_role given shape link
    obtain ⟨role', shape', task⟩ := given.role kind
    rw [shape] at shape'
    cases shape'
    obtain ⟨parsed, _⟩ := @recipe_path _ _ led _ rooted given.recipe
    have accepted := (confined.accepted recipe among).2 kind
    rw [given.joined] at accepted
    refine (roleDirectory_iff rooted ?_ task).mp accepted main is target link
    rw [parsed, shape]

/-- A catalog is confined exactly if what is taken from where it is found has texts for names, and no main
task of a role in use is a link. -/
theorem discover_path_confined_iff (checkout : Checkout) (quoted : Text → Text) (parse : Text → Except Text RecipeManifest)
    (gitRevision : Option Text) (fuel : Nat) (repository reference : Text) (catalog : RecipeCatalog)
    (ok : checkout.discoverPath quoted parse gitRevision fuel repository reference = .ok catalog) :
    checkout.Confined catalog ↔ checkout.Plain parse := by
  obtain ⟨base, manifest, rooted, read, discovered⟩ := discovered ok
  constructor
  · rintro ⟨other, again, confined⟩ base' manifest' rooted' read'
    cases rooted_unique rooted again
    cases rooted_unique rooted rooted'
    rw [read] at read'
    cases read'
    exact plainAt_of_confined rooted discovered confined
  · intro plain_
    have plainAt := plain_ base manifest rooted read
    have each (recipe : Recipe) (member : recipe ∈ catalog.recipes) :
        (∃ led names, Path.parse recipe.path = plain led names ∧ checkout.IsRecipe base names) ∧
          checkout.repositoryPath recipe.path = .ok () ∧
            (recipe.kind = .role → ∃ directory, checkout.roleDirectory recipe.path = .ok directory) := by
      rcases discovered.origin recipe member with ⟨place, candidate, below, found, _, kept⟩ | listed
      · exact kept_confined rooted plainAt below found kept
      · exact listed_confined rooted plainAt listed
    exact ⟨base, rooted, discovered.ascends, fun recipe member => (each recipe member).1,
      fun recipe member => (each recipe member).2⟩

/-- A role whose first main task is a file, with its second one as given. -/
def roleTree (second : Object (List UInt8)) : Volume (List UInt8) where
  entries := [(["roles".toList].map utf8, .directory), (["roles".toList, "x".toList].map utf8, .directory),
    (["roles".toList, "x".toList, "tasks".toList].map utf8, .directory),
    ((taskNames "x".toList MAIN_YML).map utf8, .file []), ((taskNames "x".toList MAIN_YAML).map utf8, second)]
  named := by
    have valid : ∀ text ∈ ["roles".toList, "x".toList, "tasks".toList, MAIN_YML, MAIN_YAML], IsName (utf8 text) := by
      intro text member
      simp only [List.mem_cons, List.not_mem_nil, or_false] at member
      rcases member with rfl | rfl | rfl | rfl | rfl
      all_goals exact ⟨by decide, by decide, by decide, by decide, by decide⟩
    intro entry member name among
    obtain ⟨text, inside, rfl⟩ : ∃ text ∈ ["roles".toList, "x".toList, "tasks".toList, MAIN_YML, MAIN_YAML],
        utf8 text = name := by
      simp only [List.mem_cons, List.not_mem_nil, or_false] at member
      rcases member with rfl | rfl | rfl | rfl | rfl
      all_goals
        obtain ⟨text, inside, same⟩ := List.mem_map.mp among
        refine ⟨text, ?_, same⟩
        simp only [taskNames, List.mem_cons, List.not_mem_nil, or_false] at inside ⊢
        tauto
    exact valid text inside
  distinct := by
    show (["roles".toList].map utf8 :: ["roles".toList, "x".toList].map utf8 ::
      ["roles".toList, "x".toList, "tasks".toList].map utf8 :: (taskNames "x".toList MAIN_YML).map utf8 ::
      [(taskNames "x".toList MAIN_YAML).map utf8]).Nodup
    decide
  nested := by
    intro entry member
    simp only [List.mem_cons, List.not_mem_nil, or_false] at member
    rcases member with rfl | rfl | rfl | rfl | rfl
    · exact ⟨[], _, rfl, Or.inl rfl⟩
    · exact ⟨["roles".toList].map utf8, utf8 "x".toList, rfl, Or.inr (by simp)⟩
    · exact ⟨["roles".toList, "x".toList].map utf8, utf8 "tasks".toList, rfl, Or.inr (by simp)⟩
    · exact ⟨["roles".toList, "x".toList, "tasks".toList].map utf8, utf8 MAIN_YML, rfl, Or.inr (by simp)⟩
    · exact ⟨["roles".toList, "x".toList, "tasks".toList].map utf8, utf8 MAIN_YAML, rfl, Or.inr (by simp)⟩

def roleCheckout (second : Object (List UInt8)) : Checkout := ⟨roleTree second, 40, [], "/recipes".toList⟩

def roleCatalog : RecipeCatalog :=
  ⟨"r".toList, "main".toList, "working-tree".toList, [⟨"x".toList, .role, pathString (taskNames "x".toList MAIN_YML), {}⟩]⟩

theorem roleTree_no_link {place : Place} {target : Target} :
    (roleTree .directory).lookup place ≠ some (.link target) := by
  intro found
  rcases lookup_eq_some found with ⟨_, other⟩ | member
  · cases other
  · simp [roleTree] at member

theorem roleTree_texts {place : Place} {object : Object (List UInt8)}
    (found : (roleTree .directory).lookup place = some object) : ∃ names : List Text, place = names.map utf8 := by
  rcases lookup_eq_some found with ⟨top, _⟩ | member
  · exact ⟨[], top⟩
  · simp only [roleTree, List.mem_cons, List.not_mem_nil, or_false, Prod.mk.injEq] at member
    rcases member with ⟨rfl, _⟩ | ⟨rfl, _⟩ | ⟨rfl, _⟩ | ⟨rfl, _⟩ | ⟨rfl, _⟩
    all_goals exact ⟨_, rfl⟩

/-- With a directory beside its main task the role is in a confined catalog. -/
theorem plain_role_confined : (roleCheckout .directory).Confined roleCatalog := by
  refine (discover_path_confined_iff (roleCheckout .directory) id (fun _ => .ok {}) none 6 "r".toList "main".toList
    roleCatalog (by decide +kernel)).mpr ?_
  intro base manifest _ _
  refine ⟨?_, ?_, ?_⟩
  · intro place candidate _ found _ name member
    obtain ⟨⟨bytes, file⟩, _, _⟩ := found_some found
    obtain ⟨names, whole⟩ := roleTree_texts file
    have inside : name ∈ names.map utf8 := whole ▸ List.mem_append_right _ member
    obtain ⟨text, _, same⟩ := List.mem_map.mp inside
    exact ⟨text, same.symm⟩
  · intro place candidate _ _ _ _ main _ target
    exact roleTree_no_link
  · intro id entry text role _ _ _ main _ target
    exact roleTree_no_link

/-- With a link beside it the same role is in the same catalog, and an application refuses it. -/
theorem linked_task_unconfined : ∃ (checkout : Checkout) (quoted : Text → Text) (parse : Text → Except Text RecipeManifest)
    (gitRevision : Option Text) (fuel : Nat) (repository reference : Text) (catalog : RecipeCatalog),
    checkout.discoverPath quoted parse gitRevision fuel repository reference = .ok catalog ∧
      ¬checkout.Confined catalog := by
  refine ⟨roleCheckout (.link ⟨false, []⟩), id, fun _ => .ok {}, none, 6, "r".toList, "main".toList, roleCatalog,
    by decide +kernel, ?_⟩
  rintro ⟨base, _, confined⟩
  have refused : ((roleCheckout (.link ⟨false, []⟩)).roleDirectory (pathString (taskNames "x".toList MAIN_YML))).toOption =
      none := by decide +kernel
  obtain ⟨directory, accepted⟩ := (confined.accepted _ (List.mem_singleton_self _)).2 rfl
  rw [accepted] at refused
  cases refused

end Confinement

end Pbox.Cli.RecipeTree
