import Pbox.Cli.Placement
import Pbox.Lib.Checks
import Pbox.Lib.Rearrange

/-! The plan of a new box and the order in which PVE lists what it has: nodes and storages are chosen by name, so that
the plan is the same for any order, and the node that is chosen by itself is the first by name that will do. -/

namespace Pbox.Cli.Placement
open Pbox.Lib.Strings Pbox.Lib.ErrorChain Pbox.Lib.Checks Pbox.Lib.Rearrange Pbox.Core

instance : Std.Total fun left right : PveNode => byNode left right = true :=
  ⟨fun left right => textLe_total left.node right.node⟩

instance : IsTrans PveNode fun left right => byNode left right = true :=
  ⟨fun _ _ _ low high => textLe_trans low high⟩

instance : Std.Total fun left right : PveStorage => byStorage left right = true :=
  ⟨fun left right => textLe_total left.storage right.storage⟩

instance : IsTrans PveStorage fun left right => byStorage left right = true :=
  ⟨fun _ _ _ low high => textLe_trans low high⟩

/-- The same answer, up to the order of what is listed. -/
def Rearranged {Item : Type} (first second : Except Failure (List Item)) : Prop :=
  (∃ left right, first = .ok left ∧ second = .ok right ∧ left.Perm right) ∨ ∃ error, first = .error error ∧ second = .error error

/-- Two clients of one PVE, which lists everything under a name of its own. -/
structure Agrees (first second : PveApi) : Prop where
  nodes : Rearranged first.listNodes second.listNodes
  storages : ∀ node, Rearranged (first.listNodeStorages node) (second.listNodeStorages node)
  contents : ∀ node storage content,
    Rearranged (first.listStorageContent node storage content) (second.listStorageContent node storage content)
  nodeNames : ∀ nodes, first.listNodes = .ok nodes → (nodes.map (·.node)).Nodup
  storageNames : ∀ node storages, first.listNodeStorages node = .ok storages → (storages.map (·.storage)).Nodup

section Order
variable {first second : PveApi} {config : Config} {command : NewCommand}

theorem Rearranged.withContext {Item : Type} {left right : Except Failure (List Item)} (same : Rearranged left right)
    (message : Text) : Rearranged (withContext left message) (withContext right message) := by
  rcases same with ⟨items, others, rfl, rfl, perm⟩ | ⟨error, rfl, rfl⟩
  · exact Or.inl ⟨items, others, rfl, rfl, perm⟩
  · exact Or.inr ⟨_, rfl, rfl⟩

theorem onlineNodes_same (agrees : Agrees first second) : onlineNodes first = onlineNodes second := by
  unfold onlineNodes
  rcases agrees.nodes with ⟨nodes, others, here, there, perm⟩ | ⟨error, here, there⟩
  · rw [here, there]
    have distinct := agrees.nodeNames nodes here
    have sorted := insertionSort_perm (r := fun left right => byNode left right = true)
      (perm.filter fun node => node.status = some "online".toList) (by
        intro a inA b inB below above
        exact List.inj_on_of_nodup_map distinct (List.mem_filter.mp inA).1 (List.mem_filter.mp inB).1
          (textLe_antisymm below above))
    simp only [withContext, Except.mapError, bind, Except.bind, pure, Except.pure]
    exact congrArg Except.ok sorted
  · rw [here, there]

theorem nodeStorages_same (agrees : Agrees first second) (node : Text) :
    Rearranged (nodeStorages first node) (nodeStorages second node) :=
  (agrees.storages node).withContext _

theorem nodeStorages_distinct (agrees : Agrees first second) {node : Text} {storages : List PveStorage}
    (listed : nodeStorages first node = .ok storages) : (storages.map (·.storage)).Nodup :=
  agrees.storageNames node storages (mapError_ok listed)

theorem matches_same {left right : List PveStorage} (perm : left.Perm right) (configured content : Text) :
    storageMatchesRequirement left configured content = storageMatchesRequirement right configured content :=
  any_perm perm

theorem select_same {left right : List PveStorage} (perm : left.Perm right) (distinct : (left.map (·.storage)).Nodup)
    (configured content role : Text) :
    selectPveStorage left configured content role = selectPveStorage right configured content role := by
  unfold selectPveStorage
  rw [find_perm (fun storage : PveStorage => storage.storage) perm distinct configured]
  have sorted := insertionSort_perm (r := fun left right => byStorage left right = true)
    (perm.filter (storageSupports content)) (by
      intro a inA b inB below above
      exact List.inj_on_of_nodup_map distinct (List.mem_filter.mp inA).1 (List.mem_filter.mp inB).1
        (textLe_antisymm below above))
  rw [sorted]

theorem firstNode_same (agrees : Agrees first second) {suits : List PveStorage → Bool}
    (suitsSame : ∀ left right : List PveStorage, left.Perm right → suits left = suits right) (none_ : Text)
    (nodes : List PveNode) : firstNode first suits none_ nodes = firstNode second suits none_ nodes := by
  induction nodes with
  | nil => rfl
  | cons node rest ih =>
    unfold firstNode
    rw [ih]
    rcases nodeStorages_same agrees node.node with ⟨left, right, here, there, perm⟩ | ⟨error, here, there⟩
    · rw [here, there]
      simp only [bind, Except.bind, suitsSame left right perm]
    · rw [here, there]

theorem resolveNewNode_same (agrees : Agrees first second) (prepared : Option Text) :
    resolveNewNode first config command prepared = resolveNewNode second config command prepared := by
  unfold resolveNewNode
  rw [onlineNodes_same agrees]
  have suits (left right : List PveStorage) (perm : left.Perm right) :
      suitsNew config command prepared left = suitsNew config command prepared right := by
    unfold suitsNew
    rw [matches_same perm, matches_same perm]
  simp only [firstNode_same agrees suits]

theorem findPveTemplate_same (agrees : Agrees first second) (node storage image : Text) :
    findPveTemplate first node storage image = findPveTemplate second node storage image := by
  unfold findPveTemplate
  rcases agrees.contents node storage "vztmpl".toList with ⟨left, right, here, there, perm⟩ | ⟨error, here, there⟩
  · rw [here, there]
    have kept := perm.filter (templateMatches image)
    simp only [withContext, Except.mapError, bind, Except.bind]
    generalize left.filter (templateMatches image) = these at kept ⊢
    generalize right.filter (templateMatches image) = those at kept ⊢
    rcases these with _ | ⟨one, _ | ⟨two, more⟩⟩
    · rw [kept.nil_eq]
    · rw [List.perm_singleton.mp kept.symm]
    · rcases those with _ | ⟨one', _ | ⟨two', more'⟩⟩
      · exact absurd kept.length_eq (by simp)
      · exact absurd kept.length_eq (by simp)
      · rfl
  · rw [here, there]

theorem bind_same {Value Result : Type} {left right : Except Failure Value} {next next' : Value → Except Failure Result}
    (same : left = right) (later : ∀ value, right = .ok value → next value = next' value) :
    (left >>= next) = (right >>= next') := by
  subst same
  cases left with
  | error error => rfl
  | ok value => exact later value rfl

/-- What is read off the storages of a node, where they are looked at. -/
theorem storages_same (agrees : Agrees first second) {Result : Type} (node : Text) (needed : Bool)
    {next next' : Option (List PveStorage) → Except Failure Result} (blind : next none = next' none)
    (seen : ∀ left right, nodeStorages first node = .ok left → left.Perm right → next (some left) = next' (some right)) :
    (neededStorages first needed node >>= next) = (neededStorages second needed node >>= next') := by
  cases needed with
  | false => exact blind
  | true =>
    simp only [neededStorages, if_true]
    rcases nodeStorages_same agrees node with ⟨left, right, here, there, perm⟩ | ⟨error, here, there⟩
    · rw [here, there]
      exact seen left right here perm
    · rw [here, there]
      rfl

theorem resolveRootfs_same {left right : List PveStorage} (perm : left.Perm right)
    (distinct : (left.map (·.storage)).Nodup) :
    resolveRootfs config command (some left) = resolveRootfs config command (some right) := by
  unfold resolveRootfs
  split
  next => rfl
  next =>
    simp only [select_same perm distinct, rootfsSizeForStorage,
      find_perm (fun storage : PveStorage => storage.storage) perm distinct]

theorem resolveOstemplate_same (agrees : Agrees first second) (prepared : Option Text) (node : Text)
    {left right : List PveStorage} (perm : left.Perm right) (distinct : (left.map (·.storage)).Nodup) :
    resolveOstemplate first config command prepared node (some left) =
      resolveOstemplate second config command prepared node (some right) := by
  unfold resolveOstemplate
  split
  next => rfl
  next => rfl
  next => simp only [select_same perm distinct, findPveTemplate_same agrees]

theorem resolve_same (agrees : Agrees first second) (prepared preparedNode : Option Text) :
    resolveNewCommandWithTemplate first config command prepared preparedNode =
      resolveNewCommandWithTemplate second config command prepared preparedNode := by
  unfold resolveNewCommandWithTemplate
  apply bind_same
  · unfold resolveNode
    rw [resolveNewNode_same agrees]
  intro node _
  apply storages_same agrees
  · apply bind_same rfl
    intro rootfs _
    apply bind_same
    · unfold resolveOstemplate
      rfl
    intro ostemplate _
    rfl
  intro left right listed perm
  have distinct := nodeStorages_distinct agrees listed
  apply bind_same (resolveRootfs_same perm distinct)
  intro rootfs _
  apply bind_same (resolveOstemplate_same agrees prepared node perm distinct)
  intro ostemplate _
  rfl

theorem prepare_same (agrees : Agrees first second) (pull : Text → Text → Text → Except Failure Text) :
    prepareNewTemplate first config command pull = prepareNewTemplate second config command pull := by
  unfold prepareNewTemplate
  split
  next => rfl
  next =>
    apply bind_same rfl
    intro image _
    apply bind_same (resolveNewNode_same agrees none)
    intro node _
    rcases nodeStorages_same agrees node with ⟨left, right, here, there, perm⟩ | ⟨error, here, there⟩
    · rw [here, there]
      have distinct := nodeStorages_distinct agrees here
      apply bind_same (select_same perm distinct _ _ _)
      intro storage _
      simp only [findPveTemplate_same agrees]
    · rw [here, there]
      rfl

/-- Whatever the order in which PVE lists its nodes, storages and templates, the plan of a new box is the same, and so is
the error where there is none. -/
theorem plan_order_independent (agrees : Agrees first second) (pull : Text → Text → Text → Except Failure Text) :
    planNew first config command pull = planNew second config command pull := by
  unfold planNew
  apply bind_same (prepare_same agrees pull)
  intro prepared _
  exact resolve_same agrees prepared.2 prepared.1

end Order

/-! The node that is chosen. -/

section Choice
variable {client : PveApi} {config : Config} {command : NewCommand} {prepared : Option Text}

theorem firstNode_ok_iff {suits : List PveStorage → Bool} {none_ : Text} {nodes : List PveNode} {name : Text} :
    firstNode client suits none_ nodes = .ok name ↔ ∃ before node behind, nodes = before ++ node :: behind ∧ node.node = name ∧
      (∃ storages, nodeStorages client node.node = .ok storages ∧ suits storages = true) ∧
      ∀ other ∈ before, ∃ storages, nodeStorages client other.node = .ok storages ∧ suits storages = false := by
  induction nodes with
  | nil => simp [firstNode, fail]
  | cons node rest ih =>
    unfold firstNode
    constructor
    · intro ok
      obtain ⟨storages, listed, ok⟩ := bind_ok ok
      split at ok
      next good =>
        cases ok
        exact ⟨[], node, rest, rfl, rfl, ⟨storages, listed, good⟩, by simp⟩
      next bad =>
        obtain ⟨before, found, behind, rfl, named, fits, others⟩ := ih.mp ok
        refine ⟨node :: before, found, behind, rfl, named, fits, ?_⟩
        intro other member
        rcases List.mem_cons.mp member with rfl | later
        · exact ⟨storages, listed, Bool.not_eq_true _ ▸ bad⟩
        · exact others other later
    · rintro ⟨before, found, behind, shape, named, fits, others⟩
      cases before with
      | nil =>
        cases shape
        obtain ⟨storages, listed, good⟩ := fits
        rw [listed, ← named]
        simp only [bind, Except.bind, good, if_true, pure, Except.pure]
      | cons first before =>
        cases shape
        obtain ⟨storages, listed, bad⟩ := others node List.mem_cons_self
        rw [listed]
        simp only [bind, Except.bind, bad, Bool.false_eq_true, if_false]
        exact ih.mpr ⟨before, found, behind, rfl, named, fits, fun other member =>
          others other (List.mem_cons_of_mem _ member)⟩

/-- What stands before a node in a list that is sorted by name. -/
theorem before_iff {before behind : List PveNode} {node other : PveNode}
    (sorted : (before ++ node :: behind).Pairwise fun left right => byNode left right = true)
    (distinct : ((before ++ node :: behind).map (·.node)).Nodup) :
    other ∈ before ↔ other ∈ before ++ node :: behind ∧ textLe other.node node.node = true ∧ other.node ≠ node.node := by
  obtain ⟨_, later, across⟩ := List.pairwise_append.mp sorted
  constructor
  · intro member
    refine ⟨List.mem_append_left _ member, across other member node List.mem_cons_self, fun same => ?_⟩
    rw [List.map_append, List.nodup_append] at distinct
    exact distinct.2.2 _ (List.mem_map_of_mem member) _ (List.mem_map_of_mem List.mem_cons_self) same
  · rintro ⟨member, below, differs⟩
    rcases List.mem_append.mp member with front | back
    · exact front
    · rcases List.mem_cons.mp back with rfl | tail
      · exact absurd rfl differs
      · exact absurd (textLe_antisymm below ((List.pairwise_cons.mp later).1 other tail)) differs

/-- Neither the root filesystem nor the template has to find a storage. -/
def Given (command : NewCommand) (prepared : Option Text) : Prop :=
  (command.rootfs.isSome && (command.ostemplate.isSome || prepared.isSome)) = true

theorem resolveNewNode_ok_iff {list : List PveNode} (found : onlineNodes client = .ok list)
    (auto : command.node.getD config.pve.node = AUTO) (name : Text) :
    resolveNewNode client config command prepared = .ok name ↔ ∃ before node behind, list = before ++ node :: behind ∧
      node.node = name ∧ (Given command prepared ∨
        ∃ storages, nodeStorages client node.node = .ok storages ∧ suitsNew config command prepared storages = true) ∧
      ∀ other ∈ before, ¬Given command prepared ∧
        ∃ storages, nodeStorages client other.node = .ok storages ∧ suitsNew config command prepared storages = false := by
  unfold resolveNewNode
  rw [found]
  simp only [auto, ne_eq, not_true_eq_false, if_false, bind, Except.bind]
  by_cases given : Given command prepared
  · rw [if_pos (show (command.rootfs.isSome && (command.ostemplate.isSome || prepared.isSome)) = true from given)]
    constructor
    · intro ok
      cases list with
      | nil => cases ok
      | cons node behind =>
        cases ok
        exact ⟨[], node, behind, rfl, rfl, Or.inl given, by simp⟩
    · rintro ⟨before, node, behind, rfl, rfl, _, none_⟩
      cases before with
      | nil => rfl
      | cons other before => exact absurd given (none_ other List.mem_cons_self).1
  · have open_ : ¬(command.rootfs.isSome && (command.ostemplate.isSome || prepared.isSome)) = true := given
    rw [if_neg open_, firstNode_ok_iff]
    simp only [given, false_or, not_false_eq_true, true_and]

/-- The node that a box goes to by itself: it is online, it has what the box needs, and each node that is online and
comes before it by name has not. -/
structure Chosen (client : PveApi) (config : Config) (command : NewCommand) (prepared : Option Text) (nodes : List PveNode)
    (name : Text) : Prop where
  online : ∃ node ∈ nodes, node.node = name ∧ node.status = some "online".toList
  suits : Given command prepared ∨
    ∃ storages, nodeStorages client name = .ok storages ∧ suitsNew config command prepared storages = true
  first : ∀ other ∈ nodes, other.status = some "online".toList → textLe other.node name = true → other.node ≠ name →
    ¬Given command prepared ∧
      ∃ storages, nodeStorages client other.node = .ok storages ∧ suitsNew config command prepared storages = false

theorem chosen_iff {nodes : List PveNode} (listed : client.listNodes = .ok nodes) (distinct : (nodes.map (·.node)).Nodup)
    (auto : command.node.getD config.pve.node = AUTO) (name : Text) :
    resolveNewNode client config command prepared = .ok name ↔ Chosen client config command prepared nodes name := by
  generalize online : (nodes.filter fun node => node.status = some "online".toList).insertionSort
    (fun left right => byNode left right) = list
  have found : onlineNodes client = .ok list := by
    unfold onlineNodes
    rw [listed, ← online]
    rfl
  have sorted : list.Pairwise fun left right => byNode left right = true := online ▸ List.pairwise_insertionSort _ _
  have perm : list.Perm (nodes.filter fun node => node.status = some "online".toList) :=
    online ▸ List.perm_insertionSort _ _
  have member (node : PveNode) : node ∈ list ↔ node ∈ nodes ∧ node.status = some "online".toList := by
    rw [perm.mem_iff, List.mem_filter, decide_eq_true_eq]
  have names : (list.map (·.node)).Nodup :=
    (perm.map _).nodup_iff.mpr (distinct.sublist (List.Sublist.map _ List.filter_sublist))
  rw [resolveNewNode_ok_iff found auto]
  constructor
  · rintro ⟨before, node, behind, rfl, rfl, suits, others⟩
    obtain ⟨among, status⟩ := (member node).mp (List.mem_append_right _ List.mem_cons_self)
    refine ⟨⟨node, among, rfl, status⟩, suits, fun other inside online below differs => ?_⟩
    exact others other ((before_iff sorted names).mpr ⟨(member other).mpr ⟨inside, online⟩, below, differs⟩)
  · rintro ⟨⟨node, among, rfl, status⟩, suits, first⟩
    obtain ⟨before, behind, rfl⟩ := List.append_of_mem ((member node).mpr ⟨among, status⟩)
    refine ⟨before, node, behind, rfl, rfl, suits, fun other inside => ?_⟩
    obtain ⟨within, below, differs⟩ := (before_iff sorted names).mp inside
    obtain ⟨inNodes, online⟩ := (member other).mp within
    exact first other inNodes online below differs

/-- A requirement that is matched can be selected. -/
theorem select_of_matches {storages : List PveStorage} {configured content : Text} (role : Text)
    (distinct : (storages.map (·.storage)).Nodup) (matched : storageMatchesRequirement storages configured content = true) :
    ∃ storage ∈ storages, selectPveStorage storages configured content role = .ok storage.storage ∧
      storageSupports content storage = true := by
  obtain ⟨storage, member, fits⟩ := List.any_eq_true.mp matched
  obtain ⟨named, supports⟩ := Bool.and_eq_true_iff.mp fits
  unfold selectPveStorage
  by_cases auto : configured = AUTO
  · simp only [auto, ne_eq, not_true_eq_false, if_false]
    have kept : storage ∈ (storages.filter (storageSupports content)).insertionSort fun left right => byStorage left right :=
      (List.perm_insertionSort _ _).symm.subset (List.mem_filter.mpr ⟨member, supports⟩)
    obtain ⟨first, rest, shape⟩ := List.exists_cons_of_ne_nil (List.ne_nil_of_mem kept)
    rw [shape]
    have chosen : first ∈ storages.filter (storageSupports content) :=
      (List.perm_insertionSort _ _).subset (shape ▸ List.mem_cons_self)
    exact ⟨first, (List.mem_filter.mp chosen).1, rfl, (List.mem_filter.mp chosen).2⟩
  · simp only [auto, ne_eq, not_false_eq_true, if_true]
    have name : storage.storage = configured := by simpa [auto] using named
    cases found : storages.find? (fun storage => storage.storage = configured) with
    | none => exact absurd (decide_eq_true name) (List.find?_eq_none.mp found storage member)
    | some other =>
      have same : other = storage := by
        have also : other.storage = configured := by simpa using List.find?_some found
        exact List.inj_on_of_nodup_map distinct (List.mem_of_find?_eq_some found) member (also.trans name.symm)
      subst same
      exact ⟨other, member, by simp only [supports, if_true], supports⟩

/-- Where the node is left open it is the first one, by name, of those that are online and have what the box needs. The
storages that have to be chosen on it can be, and are storages that hold what they are for. -/
theorem auto_placement {nodes : List PveNode} (listed : client.listNodes = .ok nodes)
    (distinct : (nodes.map (·.node)).Nodup)
    (storageNames : ∀ node storages, client.listNodeStorages node = .ok storages → (storages.map (·.storage)).Nodup)
    (auto : command.node.getD config.pve.node = AUTO) (name : Text) :
    (resolveNewNode client config command prepared = .ok name ↔ Chosen client config command prepared nodes name) ∧
    (resolveNewNode client config command prepared = .ok name → ∀ storages, nodeStorages client name = .ok storages →
      (command.rootfs = none → ∃ storage ∈ storages, storageSupports "rootdir".toList storage = true ∧
        selectPveStorage storages config.pve.storage "rootdir".toList "rootfs".toList = .ok storage.storage) ∧
      (command.ostemplate = none → prepared = none → ∃ storage ∈ storages,
        storageSupports "vztmpl".toList storage = true ∧
        selectPveStorage storages config.pve.templateStorage "vztmpl".toList "templates".toList = .ok storage.storage)) := by
  have iff := @chosen_iff client config command prepared nodes listed distinct auto name
  refine ⟨iff, fun ok storages here => ?_⟩
  have names := storageNames name storages (mapError_ok here)
  have suits (open_ : ¬Given command prepared) : suitsNew config command prepared storages = true := by
    rcases (iff.mp ok).suits with given | ⟨own, own_, holds⟩
    · exact absurd given open_
    · rw [here] at own_
      cases own_
      exact holds
  constructor
  · intro needed
    have holds := suits (by simp [Given, needed])
    simp only [suitsNew, needed, Option.isSome_none, Bool.false_or, Bool.and_eq_true] at holds
    obtain ⟨storage, member, selected, supports⟩ := select_of_matches "rootfs".toList names holds.1
    exact ⟨storage, member, supports, selected⟩
  · intro needed unprepared
    have holds := suits (by simp [Given, needed, unprepared])
    simp only [suitsNew, needed, unprepared, Option.isSome_none, Bool.false_or, Bool.and_eq_true] at holds
    obtain ⟨storage, member, selected, supports⟩ := select_of_matches "templates".toList names holds.2
    exact ⟨storage, member, supports, selected⟩

end Choice

/-! Two nodes, of which the second has what a box needs. -/

section Sample

def rootStorage : PveStorage := ⟨"zfs".toList, some "rootdir,images".toList, some 1, some 1, none⟩
def localStorage : PveStorage := ⟨"local".toList, some "vztmpl, iso".toList, some 1, some 1, some "dir".toList⟩
def fullNode : PveNode := ⟨"b".toList, some "online".toList⟩
def bareNode : PveNode := ⟨"a".toList, some "online".toList⟩
def debian : PveStorageContent := ⟨"local:vztmpl/debian-13-standard_13.1-2_amd64.tar.zst".toList, some "vztmpl".toList⟩

def sampleApi (nodes : List PveNode) (storages : List PveStorage) : PveApi where
  listNodes := .ok nodes
  listNodeStorages := fun node => if node = fullNode.node then .ok storages else .ok [localStorage]
  listStorageContent := fun _ _ _ => .ok [debian]

theorem sample_agrees : Agrees (sampleApi [fullNode, bareNode] [localStorage, rootStorage])
    (sampleApi [bareNode, fullNode] [rootStorage, localStorage]) where
  nodes := Or.inl ⟨_, _, rfl, rfl, List.Perm.swap _ _ _⟩
  storages := by
    intro node
    left
    by_cases full : node = fullNode.node
    · exact ⟨_, _, if_pos full, if_pos full, List.Perm.swap _ _ _⟩
    · exact ⟨_, _, if_neg full, if_neg full, List.Perm.refl _⟩
  contents := fun _ _ _ => Or.inl ⟨_, _, rfl, rfl, List.Perm.refl _⟩
  nodeNames := by
    rintro _ ⟨⟩
    decide
  storageNames := by
    intro node storages listed
    simp only [sampleApi] at listed
    split at listed
    all_goals
      cases listed
      decide

theorem sample_plan_same : planNew (sampleApi [fullNode, bareNode] [localStorage, rootStorage]) {} {} (fun _ _ _ => .ok []) =
    planNew (sampleApi [bareNode, fullNode] [rootStorage, localStorage]) {} {} (fun _ _ _ => .ok []) :=
  plan_order_independent sample_agrees _

theorem sample_placement : Chosen (sampleApi [fullNode, bareNode] [localStorage, rootStorage]) {} {} none
    [fullNode, bareNode] fullNode.node :=
  (auto_placement rfl (sample_agrees.nodeNames _ rfl) sample_agrees.storageNames rfl fullNode.node).1.mp (by decide)

-- The plan made there: a directory would have taken no size.
example : (planNew (sampleApi [fullNode, bareNode] [localStorage, rootStorage]) {} {} fun _ _ _ => .ok []).map
    (fun plan => (plan.node, plan.rootfs, plan.ostemplate)) =
    .ok ("b".toList, "zfs:8".toList, debian.volid) := by decide +kernel

end Sample

end Pbox.Cli.Placement
