import Pbox.Cli.Discovery
import Mathlib.Data.List.ReduceOption

/-! Discovery answers exactly when every read it needs succeeds, and then with all boxes: each listed
container adds its own record or nothing, whatever happens to the cluster between the calls. -/

namespace Pbox.Cli.DiscoveryFaults
open Pbox.Lib.Strings Pbox.Lib.Lines Pbox.Lib.ErrorChain
open Pbox.Core.Id Pbox.Core.Metadata Pbox.Core.MetadataRoundTrip Pbox.Cli.Discovery

/-! What a run of `discover_boxes` says about the containers it met. -/

section Specification
variable (text : AddressText) (codec : Codec) (history : History)

/-- The read of a listed container succeeds. -/
structure Read (position : Nat) (resource : ClusterResource) (node : Text) (vmid : UInt64)
    (config : LxcConfig) : Prop where
  onNode : resource.node = some node
  numbered : resource.vmid = some vmid
  answered : (history (.config position)).config node vmid = .ok config

/-- The notes of the container name a box, and this container as its place. -/
def Managed (node : Text) (vmid : UInt64) (config : LxcConfig) (metadata : PboxMetadata) : Prop :=
  config.description.map (parseMetadata codec) = some (.ok (some metadata)) ∧ placed metadata node vmid = true

/-- The notes are absent, hold no marker or name another container. -/
def Unmanaged (node : Text) (vmid : UInt64) (config : LxcConfig) : Prop :=
  config.description = none ∨ config.description.map (parseMetadata codec) = some (.ok none) ∨
    ∃ metadata, config.description.map (parseMetadata codec) = some (.ok (some metadata)) ∧
      placed metadata node vmid = false

/-- What a container without a failure of its own adds to the result: nothing, or its own record. -/
inductive Sees (tasks : Text → List Text) (position : Nat) (resource : ClusterResource) :
    Option BoxRecord → Prop where
  | unplaced (absent : resource.node = none ∨ resource.vmid = none) : Sees tasks position resource none
  | unmanaged {node : Text} {vmid : UInt64} {config : LxcConfig}
      (reads : Read history position resource node vmid config) (plain : Unmanaged codec node vmid config) :
      Sees tasks position resource none
  | box {node : Text} {vmid : UInt64} {config : LxcConfig} {metadata : PboxMetadata} {found : BoxRecord}
      (reads : Read history position resource node vmid config) (managed : Managed codec node vmid config metadata)
      (own : record text history position resource node vmid config metadata (tasks node) = .ok found) :
      Sees tasks position resource (some found)

/-- Every node is asked for its delete tasks once at most, and a failed answer counts as none. -/
def TasksRead (tasks : Text → List Text) : Prop :=
  ∀ node, ∃ position, tasks node =
    ((history (.activeDeleteTasks position)).activeDeleteTasks node).toOption.getD []

/-- The records are those of all managed containers of the listing, in the order of their identifiers,
and no two of them have one identifier. -/
def Complete (tasks : Text → List Text) (records : List BoxRecord) : Prop :=
  ∃ resources found, (history .resources).resources = .ok resources ∧
    List.Forall₂ (fun entry => Sees text codec history tasks entry.2 entry.1) (containers resources).zipIdx found ∧
    records.Perm found.reduceOption ∧ records.Pairwise (fun left right => byId left right = true) ∧
    (records.map (·.id)).Nodup

end Specification

section Scanning
variable {text : AddressText} {codec : Codec} {history : History}

/-- The cache of the nodes after a container has been visited without an error. -/
def cached (codec : Codec) (history : History) (deleting : List (Text × List Text)) (position : Nat)
    (resource : ClusterResource) : List (Text × List Text) :=
  match resource.node, resource.vmid with
  | some node, some vmid =>
    match ((history (.config position)).config node vmid).toOption.bind (·.description)
        |>.map (parseMetadata codec) with
    | some (.ok (some metadata)) =>
      if placed metadata node vmid then (deletingOn history position node deleting).2 else deleting
    | _ => deleting
  | _, _ => deleting

def cachedAll (codec : Codec) (history : History) (deleting : List (Text × List Text)) (position : Nat) :
    List ClusterResource → List (Text × List Text)
  | [] => deleting
  | resource :: later => cachedAll codec history (cached codec history deleting position resource) (position + 1) later

/-- The entry asked for is in the cache from then on. -/
theorem lookup_deletingOn (position : Nat) (node : Text) (deleting : List (Text × List Text)) :
    (deletingOn history position node deleting).2.lookup node =
      some (deletingOn history position node deleting).1 := by
  unfold deletingOn
  cases present : deleting.lookup node with
  | some tasks => exact present
  | none => simp

theorem deletingOn_keeps {position : Nat} {asked node : Text} {tasks : List Text}
    {deleting : List (Text × List Text)} (present : deleting.lookup node = some tasks) :
    (deletingOn history position asked deleting).2.lookup node = some tasks := by
  unfold deletingOn
  cases known : deleting.lookup asked with
  | some others => exact present
  | none =>
    have other : (node == asked) = false := by
      rw [beq_eq_false_iff_ne]
      rintro rfl
      rw [present] at known
      cases known
    simp only [List.lookup_cons, other]
    exact present

theorem cached_keeps {position : Nat} {resource : ClusterResource} {node : Text} {tasks : List Text}
    {deleting : List (Text × List Text)} (present : deleting.lookup node = some tasks) :
    (cached codec history deleting position resource).lookup node = some tasks := by
  unfold cached
  split
  · split
    · split
      · exact deletingOn_keeps present
      · exact present
    · exact present
  · exact present

theorem cachedAll_keeps {position : Nat} {resources : List ClusterResource} {node : Text}
    {tasks : List Text} {deleting : List (Text × List Text)} (present : deleting.lookup node = some tasks) :
    (cachedAll codec history deleting position resources).lookup node = some tasks := by
  induction resources generalizing deleting position with
  | nil => exact present
  | cons resource later ih => exact ih (cached_keeps present)

/-- Every entry of the cache is an answer of its node, or stands for a failed one. -/
def FromNodes (history : History) (deleting : List (Text × List Text)) : Prop :=
  ∀ node tasks, deleting.lookup node = some tasks →
    ∃ position, tasks = ((history (.activeDeleteTasks position)).activeDeleteTasks node).toOption.getD []

theorem FromNodes.deletingOn {deleting : List (Text × List Text)} (answers : FromNodes history deleting)
    (position : Nat) (asked : Text) : FromNodes history (deletingOn history position asked deleting).2 := by
  unfold Discovery.deletingOn
  cases known : deleting.lookup asked with
  | some others => exact answers
  | none =>
    intro node tasks present
    rw [List.lookup_cons] at present
    split at present
    next same =>
      cases present
      exact ⟨position, by rw [beq_iff_eq.mp same]⟩
    next other => exact answers node tasks present

theorem FromNodes.cached {deleting : List (Text × List Text)} (answers : FromNodes history deleting)
    (position : Nat) (resource : ClusterResource) :
    FromNodes history (cached codec history deleting position resource) := by
  unfold DiscoveryFaults.cached
  split
  · split
    · split
      · exact answers.deletingOn position _
      · exact answers
    · exact answers
  · exact answers

theorem FromNodes.cachedAll {deleting : List (Text × List Text)} (answers : FromNodes history deleting)
    (position : Nat) (resources : List ClusterResource) :
    FromNodes history (cachedAll codec history deleting position resources) := by
  induction resources generalizing deleting position with
  | nil => exact answers
  | cons resource later ih => exact ih (answers.cached position resource) (position + 1)

/-- The tasks that a cache stands for. -/
def tasksOf (history : History) (deleting : List (Text × List Text)) (node : Text) : List Text :=
  (deleting.lookup node).getD (((history (.activeDeleteTasks 0)).activeDeleteTasks node).toOption.getD [])

theorem tasksOf_read {deleting : List (Text × List Text)} (answers : FromNodes history deleting) :
    TasksRead history (tasksOf history deleting) := by
  intro node
  unfold tasksOf
  cases present : deleting.lookup node with
  | none => exact ⟨0, rfl⟩
  | some tasks => exact answers node tasks present

section Visits
variable {scan next : Scan} {position : Nat} {resource : ClusterResource} {node : Text} {vmid : UInt64}
  {config : LxcConfig} {metadata : PboxMetadata} {tasks : Text → List Text}

/-- What a visit does with notes that it has read. -/
theorem visit_managed (reads : Read history position resource node vmid config)
    (managed : Managed codec node vmid config metadata) :
    visit text codec history scan position resource =
      (record text history position resource node vmid config metadata
        (deletingOn history position node scan.deleting).1).map fun found =>
          ⟨scan.records ++ [found], cached codec history scan.deleting position resource⟩ := by
  obtain ⟨onNode, numbered, answered⟩ := reads
  obtain ⟨notes, placed⟩ := managed
  obtain ⟨description, present, parsed⟩ := Option.map_eq_some_iff.mp notes
  unfold visit cached
  simp [onNode, numbered, answered, present, parsed, placed, Except.toOption]

theorem visit_unmanaged (reads : Read history position resource node vmid config)
    (plain : Unmanaged codec node vmid config) :
    visit text codec history scan position resource = .ok scan ∧
      cached codec history scan.deleting position resource = scan.deleting := by
  obtain ⟨onNode, numbered, answered⟩ := reads
  unfold visit cached
  rcases plain with absent | clean | ⟨metadata, notes, elsewhere⟩
  · simp [onNode, numbered, answered, absent, Except.toOption]
  · obtain ⟨description, present, parsed⟩ := Option.map_eq_some_iff.mp clean
    simp [onNode, numbered, answered, present, parsed, Except.toOption]
  · obtain ⟨description, present, parsed⟩ := Option.map_eq_some_iff.mp notes
    simp [onNode, numbered, answered, present, parsed, elsewhere, Except.toOption]

theorem visit_unplaced (absent : resource.node = none ∨ resource.vmid = none) :
    visit text codec history scan position resource = .ok scan ∧
      cached codec history scan.deleting position resource = scan.deleting := by
  unfold visit cached
  rcases absent with absent | absent
  · simp [absent]
  · cases known : resource.node <;> simp [absent]

/-- A visit without an error has met a container of one of the three kinds. -/
theorem visit_cases (visited : visit text codec history scan position resource = .ok next) :
    (resource.node = none ∨ resource.vmid = none) ∨
      ∃ node vmid config, Read history position resource node vmid config ∧
        (Unmanaged codec node vmid config ∨ ∃ metadata, Managed codec node vmid config metadata) := by
  unfold visit at visited
  split at visited
  next node vmid onNode numbered =>
    right
    split at visited
    next error failed => cases visited
    next config answered =>
      refine ⟨node, vmid, config, ⟨onNode, numbered, answered⟩, ?_⟩
      split at visited
      next absent => exact .inl (.inl absent)
      next description present =>
        split at visited
        next error malformed => cases visited
        next clean => exact .inl (.inr (.inl (by rw [present, Option.map_some, clean])))
        next metadata parsed =>
          have notes : config.description.map (parseMetadata codec) = some (.ok (some metadata)) := by
            rw [present, Option.map_some, parsed]
          cases place : placed metadata node vmid with
          | true => exact .inr ⟨metadata, notes, place⟩
          | false => exact .inl (.inr (.inr ⟨metadata, notes, place⟩))
  next unplaced =>
    left
    cases onNode : resource.node with
    | none => exact .inl rfl
    | some node =>
      cases numbered : resource.vmid with
      | none => exact .inr rfl
      | some vmid => exact (unplaced node vmid onNode numbered).elim

/-- The cache holds the tasks for the container when it is a managed one. -/
def Settled (codec : Codec) (history : History) (deleting : List (Text × List Text)) (position : Nat)
    (resource : ClusterResource) (tasks : Text → List Text) : Prop :=
  ∀ node vmid config metadata, Read history position resource node vmid config →
    Managed codec node vmid config metadata → (deletingOn history position node deleting).1 = tasks node

/-- One pass of the loop adds what the container shows, or fails. -/
theorem visit_ok_iff (settled : Settled codec history scan.deleting position resource tasks) :
    visit text codec history scan position resource = .ok next ↔
      ∃ sight, Sees text codec history tasks position resource sight ∧
        next = ⟨scan.records ++ sight.toList, cached codec history scan.deleting position resource⟩ := by
  constructor
  · intro visited
    rcases visit_cases visited with absent | ⟨node, vmid, config, reads, plain | ⟨metadata, managed⟩⟩
    · obtain ⟨same, unchanged⟩ := @visit_unplaced text codec history scan position resource absent
      rw [same] at visited
      cases visited
      exact ⟨none, .unplaced absent, by simp [unchanged]⟩
    · obtain ⟨same, unchanged⟩ := @visit_unmanaged text codec history scan _ _ _ _ _ reads plain
      rw [same] at visited
      cases visited
      exact ⟨none, .unmanaged reads plain, by simp [unchanged]⟩
    · rw [visit_managed reads managed, settled node vmid config metadata reads managed] at visited
      cases own : record text history position resource node vmid config metadata (tasks node) with
      | error error => rw [own] at visited; cases visited
      | ok found =>
        rw [own] at visited
        cases visited
        exact ⟨some found, .box reads managed own, rfl⟩
  · rintro ⟨sight, sees, rfl⟩
    cases sees with
    | unplaced absent =>
      obtain ⟨same, unchanged⟩ := @visit_unplaced text codec history scan position resource absent
      rw [same, unchanged]
      simp
    | unmanaged reads plain =>
      obtain ⟨same, unchanged⟩ := @visit_unmanaged text codec history scan _ _ _ _ _ reads plain
      rw [same, unchanged]
      simp
    | box reads managed own =>
      rw [visit_managed reads managed, settled _ _ _ _ reads managed, own]
      rfl

end Visits

theorem cached_managed {position : Nat} {resource : ClusterResource} {node : Text} {vmid : UInt64}
    {config : LxcConfig} {metadata : PboxMetadata} (deleting : List (Text × List Text))
    (reads : Read history position resource node vmid config) (managed : Managed codec node vmid config metadata) :
    cached codec history deleting position resource = (deletingOn history position node deleting).2 := by
  obtain ⟨onNode, numbered, answered⟩ := reads
  obtain ⟨notes, placed⟩ := managed
  obtain ⟨description, present, parsed⟩ := Option.map_eq_some_iff.mp notes
  unfold cached
  simp [onNode, numbered, answered, present, parsed, placed, Except.toOption]

/-- What a visit has read of a node's tasks stays in the cache to the end of the loop. -/
theorem settled_cachedAll (deleting : List (Text × List Text)) (position : Nat) (resource : ClusterResource)
    (later : List ClusterResource) :
    Settled codec history deleting position resource
      (tasksOf history (cachedAll codec history deleting position (resource :: later))) := by
  intro node vmid config metadata reads managed
  have entry : (cached codec history deleting position resource).lookup node =
      some (deletingOn history position node deleting).1 := by
    rw [cached_managed deleting reads managed, lookup_deletingOn]
  unfold cachedAll tasksOf
  rw [cachedAll_keeps entry, Option.getD_some]

/-- The loop adds what the containers show, or fails. -/
theorem visitAll_ok_iff {scan last : Scan} {position : Nat} {resources : List ClusterResource}
    {tasks : Text → List Text}
    (final : tasks = tasksOf history (cachedAll codec history scan.deleting position resources)) :
    visitAll text codec history scan position resources = .ok last ↔
      ∃ found, List.Forall₂ (fun entry => Sees text codec history tasks entry.2 entry.1)
          (resources.zipIdx position) found ∧
        last = ⟨scan.records ++ found.reduceOption, cachedAll codec history scan.deleting position resources⟩ := by
  induction resources generalizing scan position with
  | nil =>
    unfold visitAll cachedAll
    simp [List.zipIdx_nil, List.reduceOption_nil, eq_comm]
  | cons resource later ih =>
    have settled : Settled codec history scan.deleting position resource tasks :=
      final ▸ settled_cachedAll scan.deleting position resource later
    have rest (sight : Option BoxRecord) := @ih
      ⟨scan.records ++ sight.toList, cached codec history scan.deleting position resource⟩ (position + 1) final
    have joined (sight : Option BoxRecord) (found : List (Option BoxRecord)) :
        scan.records ++ sight.toList ++ found.reduceOption = scan.records ++ (sight :: found).reduceOption := by
      cases sight <;> simp [List.reduceOption_cons_of_some, List.reduceOption_cons_of_none]
    rw [List.zipIdx_cons]
    unfold visitAll
    constructor
    · intro visited
      cases first : visit text codec history scan position resource with
      | error error => simp [first] at visited
      | ok next =>
        simp only [first] at visited
        obtain ⟨sight, sees, rfl⟩ := (visit_ok_iff settled).mp first
        obtain ⟨found, others, rfl⟩ := (rest sight).mp visited
        exact ⟨sight :: found, .cons sees others, by rw [joined]; rfl⟩
    · rintro ⟨_, sights, rfl⟩
      cases sights with
      | @cons _ sight _ found sees others =>
        rw [(visit_ok_iff settled).mpr ⟨sight, sees, rfl⟩]
        exact (rest sight).mpr ⟨found, others, by rw [joined]; rfl⟩

theorem id_eq_of_value {first second : PboxId} (same : first.value = second.value) : first = second := by
  cases first
  cases second
  cases same
  rfl

/-- Among sorted records the check of neighbours finds every pair with one identifier. -/
theorem duplicate_none_iff {records : List BoxRecord}
    (sorted : records.Pairwise fun left right => byId left right = true) :
    duplicate records = none ↔ (records.map (·.id)).Nodup := by
  induction records with
  | nil => simp [duplicate]
  | cons first rest ih =>
    cases rest with
    | nil => simp [duplicate]
    | cons second later =>
      obtain ⟨below, tail⟩ := List.pairwise_cons.mp sorted
      have step : duplicate (first :: second :: later) = none ↔
          first.id ≠ second.id ∧ duplicate (second :: later) = none := by
        rw [duplicate]
        split <;> simp_all
      rw [step, ih tail]
      show _ ↔ (first.id :: (second :: later).map (·.id)).Nodup
      rw [List.nodup_cons]
      refine and_congr_left fun _ => ?_
      constructor
      · intro different member
        obtain ⟨other, present, same⟩ := List.mem_map.mp member
        -- what lies between two equal identifiers is equal to both
        have low := below second List.mem_cons_self
        have high : byId second first = true := by
          rcases List.mem_cons.mp present with rfl | further
          · unfold byId
            rw [same]
            exact or_self_iff.mp (textLe_total _ _)
          · have between := (List.pairwise_cons.mp tail).1 other further
            unfold byId at between ⊢
            rwa [same] at between
        exact different (id_eq_of_value (textLe_antisymm low high))
      · intro fresh same
        exact fresh (List.mem_map.mpr ⟨second, List.mem_cons_self, same.symm⟩)

instance : Std.Total fun left right : BoxRecord => byId left right = true :=
  ⟨fun left right => textLe_total left.id.value right.id.value⟩

instance : IsTrans BoxRecord fun left right => byId left right = true :=
  ⟨fun _ _ _ low high => textLe_trans low high⟩

/-- A list of records is the sorted one exactly when it has these records in order. -/
theorem sorted_iff {found records : List BoxRecord} (fresh : (records.map (·.id)).Nodup) :
    found.insertionSort (fun left right => byId left right) = records ↔
      records.Perm found ∧ records.Pairwise fun left right => byId left right = true := by
  constructor
  · rintro rfl
    exact ⟨List.perm_insertionSort _ found, List.pairwise_insertionSort _ found⟩
  · rintro ⟨same, sorted⟩
    have arranged := (List.perm_insertionSort (fun left right => byId left right = true) found).trans same.symm
    refine List.Perm.eq_of_pairwise ?_ (List.pairwise_insertionSort _ found) sorted arranged
    intro left right leftIn rightIn low high
    exact List.inj_on_of_nodup_map fresh (arranged.subset leftIn) rightIn
      (id_eq_of_value (textLe_antisymm low high))

/-- Discovery returns the complete list, or fails. -/
theorem discoverBoxes_ok_iff (text : AddressText) (codec : Codec) (history : History) :
    ∃ tasks, TasksRead history tasks ∧
    ∀ records, discoverBoxes text codec history = .ok records ↔ Complete text codec history tasks records := by
  have start : FromNodes history [] := fun _ _ absent => by simp at absent
  cases listed : (history .resources).resources with
  | error error =>
    refine ⟨tasksOf history [], tasksOf_read start, fun records => ?_⟩
    simp [discoverBoxes, Complete, listed]
  | ok resources =>
    have answers : FromNodes history (cachedAll codec history [] 0 (containers resources)) := start.cachedAll 0 _
    refine ⟨_, tasksOf_read answers, fun records => ?_⟩
    have loop (last : Scan) := @visitAll_ok_iff text codec history ⟨[], []⟩ last 0 (containers resources) _ rfl
    unfold discoverBoxes
    simp only [listed]
    constructor
    · intro discovered
      cases scanned : visitAll text codec history ⟨[], []⟩ 0 (containers resources) with
      | error error => simp [scanned] at discovered
      | ok scan =>
        obtain ⟨found, sights, rfl⟩ := (loop scan).mp scanned
        simp only [scanned, List.nil_append] at discovered
        split at discovered
        next error repeated => cases discovered
        next distinct =>
          have arranged := Except.ok.inj discovered
          have sorted := List.pairwise_insertionSort (fun left right => byId left right = true) found.reduceOption
          have fresh := (duplicate_none_iff sorted).mp distinct
          rw [arranged] at sorted fresh
          exact ⟨resources, found, listed, sights, ((sorted_iff fresh).mp arranged).1, sorted, fresh⟩
    · rintro ⟨others, found, same, sights, arranged, sorted, fresh⟩
      obtain rfl := Except.ok.inj (listed.symm.trans same)
      simp only [(loop _).mpr ⟨found, sights, rfl⟩, List.nil_append, (sorted_iff fresh).mpr ⟨arranged, sorted⟩,
        (duplicate_none_iff sorted).mpr fresh]

theorem findBox_ok_iff {history : History} {reference : Text} {box : BoxRecord} :
    findBox text codec history reference = .ok box ↔
      ∃ boxes, discoverBoxes text codec history = .ok boxes ∧ boxes.filter (matching reference) = [box] := by
  unfold findBox
  cases discovered : discoverBoxes text codec history with
  | error error => simp
  | ok boxes =>
    unfold selectBoxReference
    simp only [Except.ok.injEq, exists_eq_left']
    split
    next empty => simp [empty]
    next single => simp [single]
    next many single =>
      refine iff_of_false (fun found => by cases found) fun alone => ?_
      exact single box alone

end Scanning

section Saved
variable (read : SavedReader) (history : History)

/-- What a container without a failure of its own adds to the inventory. -/
inductive Holds (position : Nat) (resource : ClusterResource) : Option SavedEnvironment → Prop where
  | unplaced (absent : resource.node = none ∨ resource.vmid = none) : Holds position resource none
  | other {node : Text} {vmid : UInt64} {config : LxcConfig} (reads : Read history position resource node vmid config)
      (plain : parseSaved read (config.description.getD []) = .ok none) : Holds position resource none
  | saved {node : Text} {vmid : UInt64} {config : LxcConfig} {saved : SavedEnvironment}
      (reads : Read history position resource node vmid config)
      (parsed : parseSaved read (config.description.getD []) = .ok (some saved))
      (here : saved.vmid = vmid ∧ saved.node = node) :
      Holds position resource (some { saved with ready := template config })

variable {read history}

/-- One pass of the loop adds what the container holds, or fails. -/
theorem inspect_ok_iff {result next : List SavedEnvironment} {position : Nat} {resource : ClusterResource} :
    inspect read history result position resource = .ok next ↔
      ∃ held, Holds read history position resource held ∧ next = result ++ held.toList := by
  constructor
  · intro inspected
    unfold inspect at inspected
    split at inspected
    next node vmid onNode numbered =>
      split at inspected
      next error failed => cases inspected
      next config answered =>
        have reads : Read history position resource node vmid config := ⟨onNode, numbered, answered⟩
        split at inspected
        next error malformed => cases inspected
        next plain =>
          cases inspected
          exact ⟨none, .other reads plain, (List.append_nil _).symm⟩
        next saved parsed =>
          split at inspected
          next here =>
            cases inspected
            exact ⟨_, .saved reads parsed here, rfl⟩
          next elsewhere => cases inspected
    next unplaced =>
      cases inspected
      refine ⟨none, .unplaced ?_, (List.append_nil _).symm⟩
      cases onNode : resource.node with
      | none => exact .inl rfl
      | some node =>
        cases numbered : resource.vmid with
        | none => exact .inr rfl
        | some vmid => exact (unplaced node vmid onNode numbered).elim
  · rintro ⟨held, holds, rfl⟩
    unfold inspect
    cases holds with
    | unplaced absent =>
      rcases absent with absent | absent
      · simp [absent]
      · cases known : resource.node <;> simp [absent]
    | other reads plain =>
      obtain ⟨onNode, numbered, answered⟩ := reads
      simp [onNode, numbered, answered, plain]
    | saved reads parsed here =>
      obtain ⟨onNode, numbered, answered⟩ := reads
      simp [onNode, numbered, answered, parsed, here]

theorem inspectAll_ok_iff {result last : List SavedEnvironment} {position : Nat} {resources : List ClusterResource} :
    inspectAll read history result position resources = .ok last ↔
      ∃ found, List.Forall₂ (fun entry => Holds read history entry.2 entry.1) (resources.zipIdx position) found ∧
        last = result ++ found.reduceOption := by
  induction resources generalizing result position with
  | nil =>
    unfold inspectAll
    simp [List.zipIdx_nil, List.reduceOption_nil, eq_comm]
  | cons resource later ih =>
    have joined (held : Option SavedEnvironment) (found : List (Option SavedEnvironment)) :
        result ++ held.toList ++ found.reduceOption = result ++ (held :: found).reduceOption := by
      cases held <;> simp [List.reduceOption_cons_of_some, List.reduceOption_cons_of_none]
    rw [List.zipIdx_cons]
    unfold inspectAll
    constructor
    · intro inspected
      cases first : inspect read history result position resource with
      | error error => simp [first] at inspected
      | ok next =>
        simp only [first] at inspected
        obtain ⟨held, holds, rfl⟩ := inspect_ok_iff.mp first
        obtain ⟨found, others, rfl⟩ := ih.mp inspected
        exact ⟨held :: found, .cons holds others, joined held found⟩
    · rintro ⟨_, sights, rfl⟩
      cases sights with
      | @cons _ held _ found holds others =>
        rw [inspect_ok_iff.mpr ⟨held, holds, rfl⟩]
        exact ih.mpr ⟨found, others, (joined held found).symm⟩

/-- The inventory is that of all listed containers, or the command fails. -/
theorem inventory_ok_iff {saved : List SavedEnvironment} :
    inventory read history = .ok saved ↔ ∃ resources found, (history .resources).resources = .ok resources ∧
      List.Forall₂ (fun entry => Holds read history entry.2 entry.1) (containers resources).zipIdx found ∧
      saved = found.reduceOption.insertionSort fun left right => byName left right := by
  unfold inventory
  cases listed : (history .resources).resources with
  | error error => simp
  | ok resources =>
    simp only [Except.ok.injEq, exists_and_left, exists_eq_left']
    constructor
    · intro collected
      cases scanned : inspectAll read history [] 0 (containers resources) with
      | error error => rw [scanned] at collected; cases collected
      | ok result =>
        obtain ⟨found, sights, rfl⟩ := inspectAll_ok_iff.mp scanned
        rw [scanned] at collected
        exact ⟨found, sights, (Except.ok.inj collected).symm⟩
    · rintro ⟨found, sights, rfl⟩
      rw [inspectAll_ok_iff.mpr ⟨found, sights, rfl⟩]
      rfl

end Saved

/-- Discovery fails closed. It returns a list just when the listing, the read of every listed container and
the notes of each are good, and then the list is complete; finding a box and the inventory follow. What a
node answers about its delete tasks and what the notes of an unmanaged container say fails none of them. -/
theorem discovery_exact (text : AddressText) (codec : Codec) (read : SavedReader) (history : History) :
    ∃ tasks, TasksRead history tasks ∧
      (∀ records, discoverBoxes text codec history = .ok records ↔
        Complete text codec history tasks records) ∧
      (∀ reference box, findBox text codec history reference = .ok box ↔
        ∃ records, Complete text codec history tasks records ∧ records.filter (matching reference) = [box]) ∧
      ∀ saved, inventory read history = .ok saved ↔ ∃ resources found,
        (history .resources).resources = .ok resources ∧
        List.Forall₂ (fun entry => Holds read history entry.2 entry.1) (containers resources).zipIdx found ∧
        saved = found.reduceOption.insertionSort fun left right => byName left right := by
  obtain ⟨tasks, answers, exact⟩ := discoverBoxes_ok_iff text codec history
  refine ⟨tasks, answers, exact, fun reference box => ?_, fun saved => inventory_ok_iff⟩
  rw [findBox_ok_iff]
  exact exists_congr fun records => and_congr_left fun _ => exact records

section Sample

def sampleNotes : Text := MARKER_PREFIX ++ ' ' :: samplePayload ++ ' ' :: MARKER_SUFFIX

def sampleConfig (description : Text) : LxcConfig := ⟨some description, none, none, none⟩

def sampleResource (vmid : UInt64) : ClusterResource :=
  ⟨LXC, some vmid, some "pve".toList, some "stopped".toList, none⟩

def noAddresses : AddressText := ⟨fun _ => none, fun _ => [], fun _ => none, fun _ => []⟩

/-- A box that is read well, and another container after it. -/
def sampleCluster (other : Except Error LxcConfig) : Cluster where
  resources := .ok [sampleResource 9000, sampleResource 9001]
  config _ vmid := if vmid = 9000 then .ok (sampleConfig sampleNotes) else other
  activeDeleteTasks _ := .ok []
  interfaces _ _ := .ok []

def sampleBox : BoxRecord where
  id := sampleMetadata.id
  image := none
  vmid := 9000
  state := "stopped".toList
  node := "pve".toList
  ip := none
  ipv6 := none
  name := none
  recipes := []
  capabilities := []

/-- What the other container shows: it has vanished, or its notes are malformed. -/
def vanished : Except Error LxcConfig := .error (.of "PVE API error 500".toList)
def malformed : Except Error LxcConfig := .ok (sampleConfig (MARKER_PREFIX ++ '\n' :: MARKER ++ '\n' :: MARKER))

theorem sampleNotes_parse : parseMetadata sampleCodec sampleNotes = .ok (some sampleMetadata) := by
  have safe : ∀ c ∈ samplePayload, isUrlSafe c = true := List.all_eq_true.mp (by decide)
  have clean : ¬MARKER_PREFIX <:+: ([] : Text) := by decide
  exact (parse_marker_iff safe [] clean rfl rfl).mpr clean

theorem malformed_parse : parseMetadata sampleCodec (MARKER_PREFIX ++ '\n' :: MARKER ++ '\n' :: MARKER) =
    .error .unterminatedMarker := by
  have opens : markerSpans (MARKER_PREFIX ++ '\n' :: MARKER ++ '\n' :: MARKER) = .error .unterminatedMarker := by
    unfold markerSpans
    rw [markerSpansFrom_eq]
    rfl
  unfold parseMetadata
  rw [opens]

theorem sampleBox_seen (other : Except Error LxcConfig) :
    Sees noAddresses sampleCodec (fun _ => sampleCluster other) (fun _ => []) 0 (sampleResource 9000)
      (some sampleBox) :=
  .box ⟨rfl, rfl, rfl⟩ ⟨congrArg some sampleNotes_parse, by decide⟩ rfl

/-- A container that has vanished or has malformed notes shows nothing without a failure. -/
theorem other_unseen {other : Except Error LxcConfig} (fails : other = vanished ∨ other = malformed)
    {tasks : Text → List Text} {sight : Option BoxRecord} :
    ¬Sees noAddresses sampleCodec (fun _ => sampleCluster other) tasks 1 (sampleResource 9001) sight := by
  have unread {node : Text} {vmid : UInt64} {config : LxcConfig}
      (reads : Read (fun _ => sampleCluster other) 1 (sampleResource 9001) node vmid config) :
      config.description.map (parseMetadata sampleCodec) = some (.error .unterminatedMarker) := by
    obtain ⟨onNode, numbered, answered⟩ := reads
    cases numbered
    rcases fails with rfl | rfl
    · cases answered
    · cases answered
      exact congrArg some malformed_parse
  intro sees
  cases sees with
  | unplaced absent => rcases absent with absent | absent <;> cases absent
  | unmanaged reads plain =>
    rcases plain with absent | clean | ⟨metadata, notes, _⟩
    · have read := unread reads
      rw [absent] at read
      cases read
    · rw [unread reads] at clean
      cases clean
    · rw [unread reads] at notes
      cases notes
  | box reads managed own =>
    have notes := managed.1
    rw [unread reads] at notes
    cases notes

/-- A box that is read well is not found because another container has vanished since the listing, or has
malformed notes. -/
theorem other_container_fails : sampleCodec.Lawful ∧ ∀ other, other = vanished ∨ other = malformed →
    Sees noAddresses sampleCodec (fun _ => sampleCluster other) (fun _ => []) 0 (sampleResource 9000)
      (some sampleBox) ∧
    (discoverBoxes noAddresses sampleCodec fun _ => sampleCluster other).isOk = false ∧
    (findBox noAddresses sampleCodec (fun _ => sampleCluster other) sampleBox.id.value).isOk = false ∧
    (inventory (fun _ => .error []) fun _ => sampleCluster other).isOk = false := by
  refine ⟨sampleCodec_lawful, fun other fails => ⟨sampleBox_seen other, ?_⟩⟩
  have undiscovered (boxes : List BoxRecord) :
      discoverBoxes noAddresses sampleCodec (fun _ => sampleCluster other) ≠ .ok boxes := by
    intro discovered
    obtain ⟨tasks, _, exact⟩ := discoverBoxes_ok_iff noAddresses sampleCodec fun _ => sampleCluster other
    obtain ⟨resources, found, listed, sights, _⟩ := (exact boxes).mp discovered
    cases listed
    obtain ⟨_, _, _, later, _⟩ := List.forall₂_cons_left_iff.mp sights
    obtain ⟨_, _, second, _⟩ := List.forall₂_cons_left_iff.mp later
    exact other_unseen fails second
  refine ⟨?_, ?_, ?_⟩
  · cases discovered : discoverBoxes noAddresses sampleCodec fun _ => sampleCluster other with
    | error error => rfl
    | ok boxes => exact (undiscovered boxes discovered).elim
  · cases found : findBox noAddresses sampleCodec (fun _ => sampleCluster other) sampleBox.id.value with
    | error error => rfl
    | ok box =>
      obtain ⟨boxes, discovered, _⟩ := findBox_ok_iff.mp found
      exact (undiscovered boxes discovered).elim
  · rcases fails with rfl | rfl
    · decide
    · decide

end Sample

end Pbox.Cli.DiscoveryFaults
