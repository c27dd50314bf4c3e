import Pbox.Cli.DiscoveryFaults
import Pbox.Lib.Maps
import Pbox.Lib.Transition
import Mathlib.Logic.Function.Basic

/-! The inventory daemon and `pbox rm`. The command leaves a marker file beside the snapshot, and readers show a box
with a marker as one that is being deleted. The daemon removes the marker when the delete task has stopped. From then
on whatever was read of the box before can show it again. -/

namespace Pbox.Cli.DeletionMarkers
open Pbox.Lib.Strings Pbox.Lib.ErrorChain Pbox.Lib.Maps Pbox.Lib.Transition
open Pbox.Core.Id Pbox.Core.Metadata Pbox.Core.MetadataRoundTrip Pbox.Cli.Discovery Pbox.Cli.DiscoveryFaults

def DISCONNECTED : Text := "disconnected".toList

/-- A record of the inventory: what discovery has found, and the last probe. -/
structure Entry where
  box : BoxRecord
  ping : Option Text

/-- The part of `inventory.json` that readers show. -/
structure Snapshot where
  records : List Entry
  refreshFailed : Bool

/-- The contents of a marker file. -/
structure Deletion where
  node : Text
  upid : Text

inductive Outcome where
  | succeeded
  | failed
  deriving DecidableEq

/-- A delete task that `pbox rm` has queued for a record, and whether the record has been marked since. -/
structure Task where
  record : BoxRecord
  marked : Bool
  outcome : Option Outcome

inductive Ping where
  | ok
  | error
  | timeout
  | unknown

def Ping.text : Ping → Text
  | .ok => "ok".toList
  | .error => "error".toList
  | .timeout => "timeout".toList
  | .unknown => "unknown".toList

section Records

def Entry.deleting (entry : Entry) : Entry := ⟨{ entry.box with state := DELETING }, none⟩

/-- The first record of the box is shown as deleting. -/
def mark (id : PboxId) : List Entry → List Entry
  | [] => []
  | entry :: rest => if entry.box.id = id then entry.deleting :: rest else entry :: mark id rest

/-- A box that runs keeps the last probe until the next one. -/
def keepProbe (previous : List Entry) (entry : Entry) : Entry :=
  if entry.box.state = RUNNING then
    match previous.find? fun old => old.box.id = entry.box.id with
    | some old =>
      if old.box.state = RUNNING ∨ old.box.state = DISCONNECTED then
        ⟨{ entry.box with state := old.box.state }, old.ping⟩
      else entry
    | none => entry
  else entry

/-- `probe_box_agents` on one record. Without a runtime there are no results at all. -/
def probe (results : Option (PboxId → Option Ping)) (entry : Entry) : Entry :=
  if entry.box.state = RUNNING then
    match results with
    | none => ⟨{ entry.box with state := DISCONNECTED }, some Ping.error.text⟩
    | some results =>
      let status := ((results entry.box.id).getD .unknown).text
      ⟨if status = Ping.ok.text then entry.box else { entry.box with state := DISCONNECTED }, some status⟩
  else entry

end Records

/-- Where the daemon is in `refresh`, and the last write after it. -/
inductive Daemon where
  | idle
  | discovering (history : History)
  | entries (records : List Entry) (unvisited : List PboxId)
  | checking (records : List Entry) (unvisited : List PboxId) (id : PboxId) (deletion : Deletion)
  | removing (records : List Entry) (unvisited : List PboxId) (id : PboxId)
  | publishing (pending records : List Entry)
  | probing (records : List Entry)
  | finishing (records : List Entry)

/-- A call of `read_at`, with the tasks whose boxes were marked when it began. -/
inductive Reader where
  | idle
  | checking (since : Text → Bool) (checked unchecked : List Entry)
  | done (since : Text → Bool) (shown : List Entry)

/-- PVE answers what `cluster` says, but shows nothing more of the boxes it has destroyed. -/
structure World where
  cluster : Cluster
  destroyed : List PboxId
  tasks : Text → Option Task
  markers : Assoc PboxId Deletion
  inventory : Option Snapshot
  daemon : Daemon
  readers : Nat → Reader

inductive DaemonAct where
  | begins
  | calls (call : Call)
  | opens
  | visits (id : PboxId)
  | asks (answered : Bool)
  | removes
  | closes
  | publishes
  | probes (results : Option (PboxId → Option Ping))
  | finishes
  | fails
  | dies

inductive Act where
  | changes (cluster : Cluster)
  | queues (record : BoxRecord) (upid : Text)
  | marks (upid : Text)
  | ends (upid : Text) (outcome : Outcome)
  | daemon (act : DaemonAct)
  | reads (r : Nat)
  | looks (r : Nat)
  | returns (r : Nat)

section Model
variable (text : AddressText) (codec : Codec)

/-- The box that the notes of a container name. -/
def named (config : LxcConfig) : Option PboxId :=
  config.description.bind fun description => (parseMetadata codec description).toOption.join.map (·.id)

/-- Destroyed boxes have no configuration any more, and their identifiers are not given out again. -/
def without (destroyed : List PboxId) (cluster : Cluster) : Cluster :=
  { cluster with
    config := fun node vmid => (cluster.config node vmid).bind fun config =>
      if (named codec config).any (· ∈ destroyed) then .error (Chain.of "Configuration file does not exist".toList)
      else .ok config }

def World.pve (s : World) : Cluster := without codec s.destroyed s.cluster

/-- `get_task_status` says that the task is stopped. -/
def World.stopped (s : World) (upid : Text) : Bool := (s.tasks upid).any (·.outcome.isSome)

/-- One step of the daemon. Every call of discovery sees PVE as it is at some moment between `begins` and `opens`, and
a marker that appears while the directory is read may be visited or not. -/
def daemonStep (s : World) : DaemonAct → Option World
  | .begins =>
    match s.daemon with
    | .idle => some { s with daemon := .discovering fun _ => s.pve codec }
    | _ => none
  | .calls call =>
    match s.daemon with
    | .discovering history => some { s with daemon := .discovering (Function.update history call (s.pve codec)) }
    | _ => none
  | .opens =>
    match s.daemon with
    | .discovering history => (discoverBoxes text codec history).toOption.map fun records =>
      { s with daemon := .entries (records.map (⟨·, none⟩)) s.markers.keys }
    | _ => none
  | .visits id =>
    match s.daemon with
    | .entries records unvisited => (s.markers.find id).map fun deletion =>
      { s with daemon := .checking records (unvisited.erase id) id deletion }
    | _ => none
  | .asks answered =>
    match s.daemon with
    | .checking records unvisited id deletion =>
      if answered && s.stopped deletion.upid then some { s with daemon := .removing records unvisited id }
      else some { s with daemon := .entries (mark id records) unvisited }
    | _ => none
  | .removes =>
    match s.daemon with
    | .removing records unvisited id =>
      some { s with markers := s.markers.erase id, daemon := .entries records unvisited }
    | _ => none
  | .closes =>
    match s.daemon with
    | .entries records [] =>
      let previous := (s.inventory.map (·.records)).getD []
      some { s with daemon := .publishing (records.map (keepProbe previous)) records }
    | _ => none
  | .publishes =>
    match s.daemon with
    | .publishing pending records => some { s with inventory := some ⟨pending, false⟩, daemon := .probing records }
    | _ => none
  | .probes results =>
    match s.daemon with
    | .probing records => some { s with daemon := .finishing (records.map (probe results)) }
    | _ => none
  | .finishes =>
    match s.daemon with
    | .finishing records => some { s with inventory := some ⟨records, false⟩, daemon := .idle }
    | _ => none
  | .fails =>
    match s.daemon with
    | .idle | .finishing _ => none
    | _ => some { s with
        inventory := s.inventory.map fun snapshot => { snapshot with refreshFailed := true }
        daemon := .idle }
  | .dies => some { s with daemon := .idle }

/-- What `read_at` makes of one record. -/
def World.overridden (s : World) (entry : Entry) : Entry :=
  if (s.markers.find entry.box.id).isSome then entry.deleting else entry

def World.setReader (s : World) (r : Nat) (reader : Reader) : World :=
  { s with readers := Function.update s.readers r reader }

def World.setTask (s : World) (upid : Text) (task : Task) : World :=
  { s with tasks := Function.update s.tasks upid (some task) }

def step (s : World) : Act → Option World
  | .changes cluster => some { s with cluster }
  | .queues record upid =>
    match s.tasks upid with
    | none => some (s.setTask upid ⟨record, false, none⟩)
    | some _ => none
  | .marks upid =>
    match s.tasks upid with
    | some ⟨record, false, outcome⟩ => some { s.setTask upid ⟨record, true, outcome⟩ with
        markers := s.markers.insert record.id ⟨record.node, upid⟩ }
    | _ => none
  | .ends upid outcome =>
    match s.tasks upid with
    | some ⟨record, marked, none⟩ => some { s.setTask upid ⟨record, marked, some outcome⟩ with
        destroyed := if outcome = .succeeded then record.id :: s.destroyed else s.destroyed }
    | _ => none
  | .daemon act => daemonStep text codec s act
  | .reads r =>
    match s.readers r, s.inventory with
    | .idle, some snapshot =>
      some (s.setReader r (.checking (fun upid => (s.tasks upid).any (·.marked)) [] snapshot.records))
    | _, _ => none
  | .looks r =>
    match s.readers r with
    | .checking since checked (entry :: rest) =>
      some (s.setReader r (.checking since (checked ++ [s.overridden entry]) rest))
    | _ => none
  | .returns r =>
    match s.readers r with
    | .checking since checked [] => some (s.setReader r (.done since checked))
    | _ => none

/-- No `pbox rm` has run yet. -/
structure Initial (s : World) : Prop where
  destroyed : s.destroyed = []
  tasks : ∀ upid, s.tasks upid = none
  markers : s.markers = ∅
  daemon : s.daemon = .idle
  readers : ∀ r, s.readers r = .idle

def system : System World Act where
  init := Initial
  step := step text codec

/-- The box is shown as deleting, or not at all. -/
def Quiet (id : PboxId) (entries : List Entry) : Prop :=
  ∀ entry ∈ entries, entry.box.id = id → entry.box.state = DELETING

/-- A read that has returned shows the boxes that were marked when it began as deleting, or not at all. -/
def Truthful (s : World) : Prop :=
  ∀ r since shown, s.readers r = .done since shown → ∀ upid task, since upid = true → s.tasks upid = some task →
    task.outcome ≠ some .failed → Quiet task.record.id shown

/-- Nothing that PVE answered shows the box. -/
def Hidden (id : PboxId) (cluster : Cluster) : Prop :=
  ∀ node vmid config, cluster.config node vmid = .ok config → named codec config ≠ some id

def Daemon.Quiet (id : PboxId) : Daemon → Prop
  | .idle => True
  | .discovering history => ∀ call, Hidden codec id (history call)
  | .entries records _ => DeletionMarkers.Quiet id records
  | .checking records _ _ _ => DeletionMarkers.Quiet id records
  | .removing records _ _ => DeletionMarkers.Quiet id records
  | .publishing pending records => DeletionMarkers.Quiet id pending ∧ DeletionMarkers.Quiet id records
  | .probing records => DeletionMarkers.Quiet id records
  | .finishing records => DeletionMarkers.Quiet id records

def Reader.Quiet (id : PboxId) : Reader → Prop
  | .checking _ _ unchecked => DeletionMarkers.Quiet id unchecked
  | _ => True

/-- Neither the inventory nor what the daemon and the readers hold of it shows the box but as deleting. -/
structure Unshown (s : World) (id : PboxId) : Prop where
  inventory : ∀ snapshot, s.inventory = some snapshot → Quiet id snapshot.records
  daemon : s.daemon.Quiet codec id
  readers : ∀ r, (s.readers r).Quiet id

/-- The daemon removes a marker only when every task of the box that has not failed has ended, and nothing shows the
box any more. -/
def Timely (s : World) (a : Act) : Prop :=
  a = .daemon .removes → ∀ records unvisited id, s.daemon = .removing records unvisited id →
    ∀ upid task, s.tasks upid = some task → task.marked = true → task.record.id = id →
      task.outcome ≠ some .failed → task.outcome = some .succeeded ∧ Unshown codec s id

end Model

section Entries
variable {id other : PboxId} {entries previous : List Entry} {entry : Entry}

theorem quiet_mark (quiet : Quiet id entries) : Quiet id (mark other entries) := by
  induction entries with
  | nil => exact quiet
  | cons first rest ih =>
    have later : Quiet id rest := fun entry member => quiet entry (List.mem_cons_of_mem _ member)
    unfold mark
    split
    next =>
      intro entry member same
      rcases List.mem_cons.mp member with rfl | member
      · rfl
      · exact later entry member same
    next =>
      intro entry member same
      rcases List.mem_cons.mp member with rfl | member
      · exact quiet entry List.mem_cons_self same
      · exact ih later entry member same

/-- What changes only the records of boxes that run, and no identifier, keeps a box from being shown. -/
theorem quiet_map (quiet : Quiet id entries) {f : Entry → Entry} (same : ∀ entry, (f entry).box.id = entry.box.id)
    (rests : ∀ entry, entry.box.state ≠ RUNNING → f entry = entry) : Quiet id (entries.map f) := by
  intro entry member own
  obtain ⟨before, there, rfl⟩ := List.mem_map.mp member
  have deleting := quiet before there ((same before).symm.trans own)
  rw [rests before (deleting ▸ by decide)]
  exact deleting

theorem keepProbe_id (previous : List Entry) (entry : Entry) : (keepProbe previous entry).box.id = entry.box.id := by
  unfold keepProbe
  split
  next =>
    split
    next => split <;> rfl
    next => rfl
  next => rfl

theorem probe_id (results : Option (PboxId → Option Ping)) (entry : Entry) :
    (probe results entry).box.id = entry.box.id := by
  unfold probe
  split
  next =>
    split
    next => rfl
    next => dsimp only; split <;> rfl
  next => rfl

theorem keepProbe_rests (rests : entry.box.state ≠ RUNNING) : keepProbe previous entry = entry := if_neg rests

theorem probe_rests {results : Option (PboxId → Option Ping)} (rests : entry.box.state ≠ RUNNING) :
    probe results entry = entry := if_neg rests

end Entries

section Discovered
variable {text : AddressText} {codec : Codec} {history : History} {id : PboxId}

/-- A box that is found has been read from the notes of a container. -/
theorem discovered_named {records : List BoxRecord} (found : discoverBoxes text codec history = .ok records)
    {box : BoxRecord} (member : box ∈ records) : ∃ position node vmid config,
      (history (.config position)).config node vmid = .ok config ∧ named codec config = some box.id := by
  obtain ⟨tasks, _, exact⟩ := discoverBoxes_ok_iff text codec history
  obtain ⟨resources, sights, _, sees, arranged, _⟩ := (exact records).mp found
  have seen : some box ∈ sights := List.reduceOption_mem_iff.mp (arranged.subset member)
  obtain ⟨⟨index, bound⟩, place⟩ := List.mem_iff_get.mp seen
  obtain ⟨length, sight⟩ := List.forall₂_iff_get.mp sees
  have own := sight index (length ▸ bound) bound
  rw [place] at own
  cases own with
  | @box node vmid config metadata _ reads managed made =>
    refine ⟨_, node, vmid, config, reads.answered, ?_⟩
    obtain ⟨description, present, parsed⟩ := Option.map_eq_some_iff.mp managed.1
    have same : box.id = metadata.id := by
      dsimp only [record] at made
      split at made
      next => cases made
      next => cases made; rfl
    rw [named, present, Option.bind_some, parsed]
    exact congrArg some same.symm

theorem hidden_without {destroyed : List PboxId} {cluster : Cluster} (gone : id ∈ destroyed) :
    Hidden codec id (without codec destroyed cluster) := by
  intro node vmid config answered name
  dsimp only [without] at answered
  cases read : cluster.config node vmid with
  | error error => rw [read] at answered; cases answered
  | ok found =>
    rw [read, Except.bind] at answered
    split at answered
    next => cases answered
    next shown =>
      cases answered
      exact shown (by rw [name]; exact decide_eq_true gone)

end Discovered

section Runs
variable {text : AddressText} {codec : Codec} {s t : World} {id : PboxId}

/-- A box that has been destroyed and that nothing shows any more. -/
structure Settled (codec : Codec) (s : World) (id : PboxId) : Prop extends Unshown codec s id where
  gone : id ∈ s.destroyed

theorem Settled.hidden (settled : Settled codec s id) : Hidden codec id (s.pve codec) := hidden_without settled.gone

theorem Settled.goes (settled : Settled codec s id) {next : Daemon} (quiet : next.Quiet codec id) :
    Settled codec { s with daemon := next } id :=
  ⟨⟨settled.inventory, quiet, settled.readers⟩, settled.gone⟩

theorem Settled.publishes (settled : Settled codec s id) (next : Daemon) (quiet : next.Quiet codec id)
    {records : List Entry} (records_quiet : Quiet id records) {failed : Bool} :
    Settled codec { s with inventory := some ⟨records, failed⟩, daemon := next } id :=
  ⟨⟨fun _ found => Option.some.inj found ▸ records_quiet, quiet, settled.readers⟩, settled.gone⟩

theorem setReader_self {r : Nat} {reader : Reader} : (s.setReader r reader).readers r = reader := by
  simp [World.setReader]

theorem setReader_other {r other : Nat} {reader : Reader} (different : other ≠ r) :
    (s.setReader r reader).readers other = s.readers other := by
  simp [World.setReader, different]

theorem Settled.setReader (settled : Settled codec s id) {r : Nat} {reader : Reader} (quiet : reader.Quiet id) :
    Settled codec (s.setReader r reader) id := by
  refine ⟨⟨settled.inventory, settled.daemon, fun other => ?_⟩, settled.gone⟩
  by_cases same : other = r
  · rwa [same, setReader_self]
  · rw [setReader_other same]
    exact settled.readers other

/-- What the daemon does leaves a settled box settled. -/
theorem Settled.daemonStep (settled : Settled codec s id) {act : DaemonAct}
    (taken : daemonStep text codec s act = some t) : Settled codec t id := by
  have quiet := settled.daemon
  cases act with
  | begins =>
    simp only [DeletionMarkers.daemonStep] at taken
    split at taken
    next => cases taken; exact settled.goes fun _ => settled.hidden
    next => cases taken
  | calls call =>
    simp only [DeletionMarkers.daemonStep] at taken
    split at taken
    next history at_ =>
      cases taken
      rw [at_] at quiet
      refine settled.goes fun other => ?_
      by_cases same : other = call
      · subst same
        exact (Function.update_self other _ history).symm ▸ settled.hidden
      · exact (Function.update_of_ne same _ history).symm ▸ quiet other
    next => cases taken
  | opens =>
    simp only [DeletionMarkers.daemonStep] at taken
    split at taken
    next history at_ =>
      obtain ⟨records, found, rfl⟩ := Option.map_eq_some_iff.mp taken
      rw [at_] at quiet
      refine settled.goes fun entry member own => ?_
      obtain ⟨box, there, rfl⟩ := List.mem_map.mp member
      cases discovered : discoverBoxes text codec history with
      | error error => rw [discovered] at found; cases found
      | ok boxes =>
        rw [discovered] at found
        cases found
        obtain ⟨position, node, vmid, config, answered, name⟩ := discovered_named discovered there
        exact absurd (name.trans (congrArg some own)) (quiet _ node vmid config answered)
    next => cases taken
  | visits other =>
    simp only [DeletionMarkers.daemonStep] at taken
    split at taken
    next at_ =>
      obtain ⟨deletion, _, rfl⟩ := Option.map_eq_some_iff.mp taken
      rw [at_] at quiet
      exact settled.goes quiet
    next => cases taken
  | asks answered =>
    simp only [DeletionMarkers.daemonStep] at taken
    split at taken
    next at_ =>
      rw [at_] at quiet
      split at taken
      next => cases taken; exact settled.goes quiet
      next => cases taken; exact settled.goes (quiet_mark quiet)
    next => cases taken
  | removes =>
    simp only [DeletionMarkers.daemonStep] at taken
    split at taken
    next at_ =>
      cases taken
      rw [at_] at quiet
      exact ⟨⟨settled.inventory, quiet, settled.readers⟩, settled.gone⟩
    next => cases taken
  | closes =>
    simp only [DeletionMarkers.daemonStep] at taken
    split at taken
    next at_ =>
      cases taken
      rw [at_] at quiet
      exact settled.goes ⟨quiet_map quiet (keepProbe_id _) (fun _ => keepProbe_rests), quiet⟩
    next => cases taken
  | publishes =>
    simp only [DeletionMarkers.daemonStep] at taken
    split at taken
    next at_ =>
      cases taken
      rw [at_] at quiet
      exact settled.publishes (.probing _) quiet.2 quiet.1
    next => cases taken
  | probes results =>
    simp only [DeletionMarkers.daemonStep] at taken
    split at taken
    next at_ =>
      cases taken
      rw [at_] at quiet
      exact settled.goes (quiet_map quiet (probe_id _) fun _ => probe_rests)
    next => cases taken
  | finishes =>
    simp only [DeletionMarkers.daemonStep] at taken
    split at taken
    next at_ =>
      cases taken
      rw [at_] at quiet
      exact settled.publishes .idle trivial quiet
    next => cases taken
  | fails =>
    simp only [DeletionMarkers.daemonStep] at taken
    split at taken
    next => cases taken
    next => cases taken
    next =>
      cases taken
      refine ⟨⟨fun snapshot found => ?_, trivial, settled.readers⟩, settled.gone⟩
      obtain ⟨before, there, rfl⟩ := Option.map_eq_some_iff.mp found
      exact settled.inventory before there
  | dies =>
    cases taken
    exact settled.goes trivial

/-- Settled boxes stay so, whatever the daemon, the commands, the readers and PVE do. -/
theorem Settled.step (settled : Settled codec s id) {a : Act} (taken : step text codec s a = some t) :
    Settled codec t id := by
  cases a with
  | changes cluster =>
    cases taken
    exact ⟨⟨settled.inventory, settled.daemon, settled.readers⟩, settled.gone⟩
  | queues record upid =>
    simp only [DeletionMarkers.step] at taken
    split at taken
    next => cases taken; exact ⟨⟨settled.inventory, settled.daemon, settled.readers⟩, settled.gone⟩
    next => cases taken
  | marks upid =>
    simp only [DeletionMarkers.step] at taken
    split at taken
    next => cases taken; exact ⟨⟨settled.inventory, settled.daemon, settled.readers⟩, settled.gone⟩
    next => cases taken
  | ends upid outcome =>
    simp only [DeletionMarkers.step] at taken
    split at taken
    next =>
      cases taken
      refine ⟨⟨settled.inventory, settled.daemon, settled.readers⟩, ?_⟩
      dsimp only
      split
      next => exact List.mem_cons_of_mem _ settled.gone
      next => exact settled.gone
    next => cases taken
  | daemon act => exact settled.daemonStep taken
  | reads r =>
    simp only [DeletionMarkers.step] at taken
    split at taken
    next present => cases taken; exact settled.setReader (settled.inventory _ present)
    next => cases taken
  | looks r =>
    simp only [DeletionMarkers.step] at taken
    split at taken
    next at_ =>
      have quiet := settled.readers r
      rw [at_] at quiet
      cases taken
      exact settled.setReader fun entry member => quiet entry (List.mem_cons_of_mem _ member)
    next => cases taken
  | returns r =>
    simp only [DeletionMarkers.step] at taken
    split at taken
    next => cases taken; exact settled.setReader trivial
    next => cases taken

/-- What a daemon's step leaves alone, and the one marker that it may remove. -/
theorem daemonStep_frame {act : DaemonAct} (taken : daemonStep text codec s act = some t) :
    t.destroyed = s.destroyed ∧ t.tasks = s.tasks ∧ t.readers = s.readers ∧ (t.markers = s.markers ∨
      act = .removes ∧ ∃ records unvisited id,
        s.daemon = .removing records unvisited id ∧ t.markers = s.markers.erase id) := by
  cases act with
  | begins | calls | closes | publishes | probes | finishes =>
    simp only [daemonStep] at taken
    split at taken
    next => cases taken; exact ⟨rfl, rfl, rfl, .inl rfl⟩
    next => cases taken
  | opens | visits =>
    simp only [daemonStep] at taken
    split at taken
    next =>
      obtain ⟨_, _, rfl⟩ := Option.map_eq_some_iff.mp taken
      exact ⟨rfl, rfl, rfl, .inl rfl⟩
    next => cases taken
  | asks answered =>
    simp only [daemonStep] at taken
    split at taken
    next => split at taken <;> cases taken <;> exact ⟨rfl, rfl, rfl, .inl rfl⟩
    next => cases taken
  | removes =>
    simp only [daemonStep] at taken
    split at taken
    next at_ => cases taken; exact ⟨rfl, rfl, rfl, .inr ⟨rfl, _, _, _, at_, rfl⟩⟩
    next => cases taken
  | fails =>
    simp only [daemonStep] at taken
    split at taken
    next => cases taken
    next => cases taken
    next => cases taken; exact ⟨rfl, rfl, rfl, .inl rfl⟩
  | dies => cases taken; exact ⟨rfl, rfl, rfl, .inl rfl⟩

/-- What a reader has made of the inventory so far. -/
def Reader.shows : Reader → Option ((Text → Bool) × List Entry)
  | .idle => none
  | .checking since checked _ => some (since, checked)
  | .done since shown => some (since, shown)

/-- These entries show the boxes of these tasks as they have to. -/
def Seen (tasks : Text → Option Task) (since : Text → Bool) (entries : List Entry) : Prop :=
  ∀ upid, since upid = true → ∃ task, tasks upid = some task ∧ task.marked = true ∧
    (task.outcome ≠ some .failed → Quiet task.record.id entries)

/-- A marker covers a box that is being deleted, or nothing shows the box. -/
structure Inv (codec : Codec) (s : World) : Prop where
  destroyed : ∀ upid task, s.tasks upid = some task → task.outcome = some .succeeded → task.record.id ∈ s.destroyed
  covered : ∀ upid task, s.tasks upid = some task → task.marked = true → task.outcome ≠ some .failed →
    (s.markers.find task.record.id).isSome = true ∨ Settled codec s task.record.id
  seen : ∀ r since entries, (s.readers r).shows = some (since, entries) → Seen s.tasks since entries

section Steps
variable {upid : Text} {task : Task}

theorem find_insert_isSome {markers : Assoc PboxId Deletion} {key : PboxId} (deletion : Deletion)
    (present : (markers.find id).isSome = true) : (Assoc.find (markers.insert key deletion) id).isSome = true := by
  obtain ⟨value, found⟩ := Option.isSome_iff_exists.mp present
  rw [Option.isSome_iff_exists]
  by_cases same : id = key
  · exact ⟨deletion, find_insert_iff.mpr (.inl ⟨same, rfl⟩)⟩
  · exact ⟨value, find_insert_iff.mpr (.inr ⟨same, found⟩)⟩

/-- How a task goes on. -/
structure Task.Later (old task : Task) : Prop where
  record : task.record = old.record
  marked : old.marked = true → task.marked = true
  failed : old.outcome = some .failed → task.outcome = some .failed

theorem Seen.update {since : Text → Bool} {entries : List Entry} (seen : Seen s.tasks since entries)
    (later : ∀ old, s.tasks upid = some old → old.Later task) :
    Seen (Function.update s.tasks upid (some task)) since entries := by
  intro other member
  obtain ⟨old, found, marked, quiet⟩ := seen other member
  by_cases same : other = upid
  · subst same
    have goes := later old found
    refine ⟨task, by simp, goes.marked marked, fun open_ => ?_⟩
    rw [goes.record]
    exact quiet fun failed => open_ (goes.failed failed)
  · exact ⟨old, by simp [same, found], marked, quiet⟩

/-- A step on one task. -/
theorem Inv.update (inv : Inv codec s) (tasks : t.tasks = Function.update s.tasks upid (some task))
    (readers : t.readers = s.readers) (later : ∀ old, s.tasks upid = some old → old.Later task)
    (markers : ∀ id, (s.markers.find id).isSome = true → (t.markers.find id).isSome = true)
    (settled : ∀ id, Settled codec s id → Settled codec t id)
    (destroyed : ∀ id ∈ s.destroyed, id ∈ t.destroyed)
    (gone : task.outcome = some .succeeded → task.record.id ∈ t.destroyed)
    (covered : task.marked = true → task.outcome ≠ some .failed →
      (t.markers.find task.record.id).isSome = true ∨ Settled codec t task.record.id) : Inv codec t := by
  refine ⟨fun other found there => ?_, fun other found there => ?_, fun r since entries shows => ?_⟩
  · rw [tasks] at there
    by_cases same : other = upid
    · subst same
      rw [Function.update_self, Option.some.injEq] at there
      exact there ▸ gone
    · rw [Function.update_of_ne same] at there
      exact fun succeeded => destroyed _ (inv.destroyed other found there succeeded)
  · rw [tasks] at there
    by_cases same : other = upid
    · subst same
      rw [Function.update_self, Option.some.injEq] at there
      exact there ▸ covered
    · rw [Function.update_of_ne same] at there
      exact fun marked open_ => (inv.covered other found there marked open_).imp (markers _) (settled _)
  · rw [tasks]
    exact (inv.seen r since entries (readers ▸ shows)).update later

/-- A step of one reader. -/
theorem Inv.updateReader (inv : Inv codec s) {r : Nat} {reader : Reader}
    (settled : ∀ id, Settled codec s id → Settled codec (s.setReader r reader) id)
    (seen : ∀ since entries, reader.shows = some (since, entries) → Seen s.tasks since entries) :
    Inv codec (s.setReader r reader) := by
  refine ⟨inv.destroyed, fun upid task found marked open_ => ?_, fun other since entries shows => ?_⟩
  · exact (inv.covered upid task found marked open_).imp_right (settled _)
  · by_cases same : other = r
    · subst same
      rw [setReader_self] at shows
      exact seen since entries shows
    · rw [setReader_other same] at shows
      exact inv.seen other since entries shows

end Steps

theorem inv_daemon (inv : Inv codec s) {act : DaemonAct} (taken : daemonStep text codec s act = some t)
    (timely : Timely codec s (.daemon act)) : Inv codec t := by
  obtain ⟨destroyed, tasks, readers, markers⟩ := daemonStep_frame taken
  refine ⟨destroyed ▸ tasks ▸ inv.destroyed, fun upid task found marked open_ => ?_, tasks ▸ readers ▸ inv.seen⟩
  rw [tasks] at found
  rcases inv.covered upid task found marked open_ with present | settled
  · rcases markers with same | ⟨rfl, records, unvisited, id, removing, erased⟩
    · exact .inl (same ▸ present)
    · by_cases own : task.record.id = id
      · obtain ⟨ended, unshown⟩ := timely rfl records unvisited id removing upid task found marked own open_
        have settled : Settled codec s id := ⟨unshown, own ▸ inv.destroyed upid task found ended⟩
        exact .inr (own ▸ settled.daemonStep taken)
      · obtain ⟨deletion, there⟩ := Option.isSome_iff_exists.mp present
        rw [erased]
        exact .inl (Option.isSome_iff_exists.mpr ⟨deletion, find_erase_iff.mpr ⟨own, there⟩⟩)
  · exact .inr (settled.daemonStep taken)

theorem overridden_quiet (inv : Inv codec s) {upid : Text} {task : Task} (found : s.tasks upid = some task)
    (marked : task.marked = true) (open_ : task.outcome ≠ some .failed) {r : Nat} {since : Text → Bool}
    {checked rest : List Entry} {entry : Entry} (at_ : s.readers r = .checking since checked (entry :: rest))
    (own : entry.box.id = task.record.id) : (s.overridden entry).box.state = DELETING := by
  unfold World.overridden
  split
  next => rfl
  next absent =>
    rcases inv.covered upid task found marked open_ with present | settled
    · exact absurd (own ▸ present) absent
    · have quiet := settled.readers r
      rw [at_] at quiet
      exact quiet entry List.mem_cons_self own

theorem overridden_id (entry : Entry) : (s.overridden entry).box.id = entry.box.id := by
  unfold World.overridden
  split <;> rfl

theorem inv_step (inv : Inv codec s) {a : Act} (timely : Timely codec s a) (taken : step text codec s a = some t) :
    Inv codec t := by
  have settled (id : PboxId) (before : Settled codec s id) : Settled codec t id := before.step taken
  cases a with
  | changes cluster =>
    cases taken
    refine ⟨inv.destroyed, fun upid task found marked open_ => ?_, inv.seen⟩
    exact (inv.covered upid task found marked open_).imp_right (settled _)
  | queues record upid =>
    simp only [step] at taken
    split at taken
    next fresh =>
      cases taken
      exact inv.update rfl rfl (fun old found => nomatch fresh.symm.trans found) (fun _ present => present) settled
        (fun _ gone => gone) (fun ended => nomatch ended) (fun marked => nomatch marked)
    next => cases taken
  | marks upid =>
    simp only [step] at taken
    split at taken
    next record outcome found =>
      cases taken
      refine inv.update rfl rfl (fun old there => ?_) (fun _ => find_insert_isSome _) settled (fun _ gone => gone)
        (fun ended => inv.destroyed upid ⟨record, false, outcome⟩ found ended) fun _ _ => .inl ?_
      · cases found.symm.trans there
        exact ⟨rfl, fun _ => rfl, id⟩
      · exact Option.isSome_iff_exists.mpr ⟨_, find_insert_iff.mpr (.inl ⟨rfl, rfl⟩)⟩
    next => cases taken
  | ends upid outcome =>
    simp only [step] at taken
    split at taken
    next record marked found =>
      cases taken
      refine inv.update rfl rfl (fun old there => ?_) (fun _ present => present) settled (fun id gone => ?_)
        (fun succeeded => ?_) (fun isMarked _ => ?_)
      · cases found.symm.trans there
        exact ⟨rfl, id, fun ended => nomatch ended⟩
      · dsimp only
        split
        next => exact List.mem_cons_of_mem _ gone
        next => exact gone
      · dsimp only at succeeded ⊢
        rw [if_pos (Option.some.inj succeeded)]
        exact List.mem_cons_self
      · exact (inv.covered upid _ found isMarked fun ended => nomatch ended).imp_right (settled _)
    next => cases taken
  | daemon act => exact inv_daemon inv taken timely
  | reads r =>
    simp only [step] at taken
    split at taken
    next =>
      cases taken
      refine inv.updateReader settled fun since entries shows upid member => ?_
      cases shows
      obtain ⟨task, found, marked⟩ := (Option.any_eq_true _ _).mp member
      exact ⟨task, found, marked, fun _ _ absurd => nomatch absurd⟩
    next => cases taken
  | looks r =>
    simp only [step] at taken
    split at taken
    next since checked entry rest at_ =>
      cases taken
      refine inv.updateReader settled fun since' entries shows upid member => ?_
      cases shows
      obtain ⟨task, found, marked, quiet⟩ := inv.seen r since checked (by rw [at_]; rfl) upid member
      refine ⟨task, found, marked, fun open_ other there own => ?_⟩
      rcases List.mem_append.mp there with before | now
      · exact quiet open_ other before own
      · obtain rfl := List.mem_singleton.mp now
        exact overridden_quiet inv found marked open_ at_ ((overridden_id entry).symm.trans own)
    next => cases taken
  | returns r =>
    simp only [step] at taken
    split at taken
    next since checked at_ =>
      cases taken
      refine inv.updateReader settled fun since' entries shows => ?_
      cases shows
      exact inv.seen r since checked (by rw [at_]; rfl)
    next => cases taken

theorem initial_inv (initial : Initial s) : Inv codec s where
  destroyed upid task found := nomatch (initial.tasks upid).symm.trans found
  covered upid task found := nomatch (initial.tasks upid).symm.trans found
  seen r since entries shows := by
    rw [initial.readers r] at shows
    cases shows

end Runs

/-- While markers go only when nothing shows their boxes any more, no read shows a box that is being deleted, or has
been, in another state. -/
theorem timely_truthful (text : AddressText) (codec : Codec) (s : World)
    (reached : (system text codec).ReachableBy (Timely codec) s) : Truthful s := by
  have inv : Inv codec s := reached.invariant (fun _ initial => initial_inv initial)
    (fun _ _ _ inv timely taken => inv_step inv timely taken)
  intro r since shown done upid task member found open_
  obtain ⟨task', found', _, quiet⟩ := inv.seen r since shown (by rw [done]; rfl) upid member
  cases found.symm.trans found'
  exact quiet open_

section Sample

/-- PVE with one box that runs. -/
def runningCluster : Cluster where
  resources := .ok [⟨LXC, some 9000, some "pve".toList, some RUNNING, none⟩]
  config _ _ := .ok (sampleConfig sampleNotes)
  activeDeleteTasks _ := .ok []
  interfaces _ _ := .ok []

def emptiedCluster : Cluster := { runningCluster with resources := .ok [] }

def runningBox : BoxRecord := { sampleBox with state := RUNNING }

def deleteTask : Text := "UPID:pve:0000C3F1:0001A2B3:65A0F2C1:vzdestroy:9000:root@pam:".toList

def blank : World := ⟨runningCluster, [], fun _ => none, ∅, none, .idle, fun _ => .idle⟩

theorem blank_initial : Initial blank := ⟨rfl, fun _ => rfl, rfl, rfl, fun _ => rfl⟩

theorem without_none (codec : Codec) (cluster : Cluster) : without codec [] cluster = cluster := by
  unfold without
  congr
  funext node vmid
  cases cluster.config node vmid with
  | error error => rfl
  | ok config => cases found : named codec config <;> simp [Except.bind, found]

theorem running_discovered :
    discoverBoxes noAddresses sampleCodec (fun _ => blank.pve sampleCodec) = .ok [runningBox] := by
  have same : blank.pve sampleCodec = runningCluster := without_none sampleCodec runningCluster
  have visited := @visit_managed noAddresses sampleCodec (fun _ => runningCluster) ⟨[], []⟩ 0
    ⟨LXC, some 9000, some "pve".toList, some RUNNING, none⟩ "pve".toList 9000 (sampleConfig sampleNotes) sampleMetadata
    ⟨rfl, rfl, rfl⟩ ⟨congrArg some sampleNotes_parse, by decide⟩
  rw [same, discoverBoxes]
  dsimp only [runningCluster, containers] at visited ⊢
  rw [List.filter_cons_of_pos (by rfl), List.filter_nil, visitAll, visited]
  rfl

/-- The box is marked when discovery has read it and before the daemon reads its directory. -/
def marked : List Act := [.daemon .begins, .queues runningBox deleteTask, .marks deleteTask]

/-- The task ends, and the daemon removes the marker and publishes what it has read before. -/
def late : List Act :=
  [.daemon (.visits runningBox.id), .daemon (.asks true), .daemon .removes, .daemon .closes, .daemon .publishes,
    .reads 0, .looks 0, .returns 0]

def sampleSystem : System World Act := system noAddresses sampleCodec

def overtaken : World := (sampleSystem.run blank (marked ++ [.ends deleteTask .succeeded])).getD blank

def opened (s : World) : World := { s with daemon := .entries [⟨runningBox, none⟩] s.markers.keys }

theorem opens_running {s : World} (at_ : s.daemon = .discovering fun _ => blank.pve sampleCodec) :
    sampleSystem.step s (.daemon .opens) = some (opened s) := by
  show daemonStep noAddresses sampleCodec s .opens = _
  simp only [daemonStep, at_, running_discovered]
  rfl

theorem stale_record_shown : ¬∀ (text : AddressText) (codec : Codec) (s : World),
    (system text codec).Reachable s → Truthful s := by
  intro always
  have reached : sampleSystem.Reachable overtaken := System.reachable_of_run (.start blank_initial)
    (show sampleSystem.run blank (marked ++ [.ends deleteTask .succeeded]) = some overtaken from rfl)
  have runs : (sampleSystem.run (opened overtaken) late).isSome = true := by decide
  obtain ⟨s, ends⟩ := Option.isSome_iff_exists.mp runs
  have truthful := always noAddresses sampleCodec s
    (System.reachable_of_run (reached.next (opens_running rfl)) ends)
  have reader : (sampleSystem.run (opened overtaken) late).map (·.readers 0) =
      some (.done (fun upid => (overtaken.tasks upid).any (·.marked)) [⟨runningBox, none⟩]) := rfl
  have tasks : (sampleSystem.run (opened overtaken) late).bind (·.tasks deleteTask) =
      some ⟨runningBox, true, some .succeeded⟩ := rfl
  rw [ends, Option.map_some, Option.some.injEq] at reader
  rw [ends] at tasks
  have shown := truthful 0 _ _ reader deleteTask _ (by decide) tasks (by decide) _ List.mem_cons_self rfl
  exact absurd shown (by decide)

/-- The daemon finds the marker while the task runs, and publishes the box as deleting. -/
def covering : List Act :=
  [.daemon (.visits runningBox.id), .daemon (.asks true), .daemon .closes, .daemon .publishes, .daemon (.probes none),
    .daemon .finishes, .reads 0, .looks 0, .returns 0]

/-- The next discovery begins after the task has ended. -/
def afterwards : List Act :=
  [.ends deleteTask .succeeded, .changes emptiedCluster, .daemon .begins, .daemon .opens,
    .daemon (.visits runningBox.id), .daemon (.asks true)]

def published : List Act := [.daemon .closes, .daemon .publishes, .reads 1, .returns 1]

def keeps : Act → Bool
  | .daemon .removes => false
  | _ => true

theorem keeps_timely {s : World} {a : Act} (kept : keeps a = true) : Timely sampleCodec s a := by
  rintro rfl
  cases kept

def waiting : World := (sampleSystem.run blank marked).getD blank

def ready : World := (sampleSystem.run (opened waiting) (covering ++ afterwards)).getD blank

def removed : World := (sampleSystem.step ready (.daemon .removes)).getD blank

theorem ready_tasks {upid : Text} {task : Task} (found : ready.tasks upid = some task) :
    task = ⟨runningBox, true, some .succeeded⟩ := by
  have tasks : ready.tasks = Function.update (Function.update (Function.update (fun _ => none) deleteTask
      (some ⟨runningBox, false, none⟩)) deleteTask (some ⟨runningBox, true, none⟩)) deleteTask
      (some ⟨runningBox, true, some .succeeded⟩) := rfl
  by_cases same : upid = deleteTask
  · rw [tasks, same, Function.update_self, Option.some.injEq] at found
    exact found.symm
  · simp [tasks, same] at found

theorem ready_timely : Timely sampleCodec ready (.daemon .removes) := by
  intro _ records unvisited id removing upid task found marked own _
  obtain rfl := ready_tasks found
  obtain rfl : [] = records := (Daemon.removing.inj (show Daemon.removing [] [] runningBox.id = _ from removing)).1
  have inventory : ready.inventory = some ⟨[(⟨runningBox, none⟩ : Entry).deleting], false⟩ := rfl
  refine ⟨rfl, fun snapshot published => ?_, ?_, fun r => ?_⟩
  · cases inventory.symm.trans published
    intro entry member _
    exact List.mem_singleton.mp member ▸ rfl
  · rw [removing]
    exact fun _ member => nomatch member
  · cases r with
    | zero => trivial
    | succ r => trivial

/-- The first read shows the box as deleting, the second does not show it. -/
theorem covered_truthful : ∃ s, (s.readers 0).shows.map (·.2.map (·.box.state)) = some [DELETING] ∧
    (s.readers 1).shows.map (·.2.map (·.box.state)) = some [] ∧ Truthful s := by
  have first : sampleSystem.ReachableBy (Timely sampleCodec) waiting :=
    System.reachableBy_of_runBy (fun _ _ => keeps_timely) (.start blank_initial)
      (show sampleSystem.runBy (fun _ => keeps) blank marked = some waiting from rfl)
  have second : sampleSystem.ReachableBy (Timely sampleCodec) ready :=
    System.reachableBy_of_runBy (fun _ _ => keeps_timely) (first.next (keeps_timely rfl) (opens_running rfl))
      (show sampleSystem.runBy (fun _ => keeps) (opened waiting) (covering ++ afterwards) = some ready from rfl)
  have third : sampleSystem.ReachableBy (Timely sampleCodec) removed :=
    second.next ready_timely (show sampleSystem.step ready (.daemon .removes) = some removed from rfl)
  have runs : (sampleSystem.runBy (fun _ => keeps) removed published).isSome = true := by decide
  have shown : (sampleSystem.runBy (fun _ => keeps) removed published).map (fun s =>
      ((s.readers 0).shows.map (·.2.map (·.box.state)), (s.readers 1).shows.map (·.2.map (·.box.state)))) =
      some (some [DELETING], some []) := rfl
  obtain ⟨s, ends⟩ := Option.isSome_iff_exists.mp runs
  rw [ends, Option.map_some, Option.some.injEq, Prod.mk.injEq] at shown
  exact ⟨s, shown.1, shown.2, timely_truthful noAddresses sampleCodec s
    (System.reachableBy_of_runBy (fun _ _ => keeps_timely) third ends)⟩

end Sample

end Pbox.Cli.DeletionMarkers
