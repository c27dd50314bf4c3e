import Pbox.Lib.Transition
import Pbox.Cli.Discovery
import Mathlib.Logic.Function.Basic

/-! `pbox rm` and `pbox snapshot delete` among clients that create and delete containers. A command
reads the container's identifier once, when it resolves the reference, and from then on names a node and a
VMID to PVE, which carries a destroy request out on the container it then finds there. -/

namespace Pbox.Cli.Deletion
open Pbox.Lib.Strings Pbox.Lib.Transition Pbox.Core.Id Pbox.Core.Metadata Pbox.Cli.Discovery

def STOPPED : Text := "stopped".toList

/-- A container, with what its notes are read as. -/
structure Container where
  node : Text
  status : Text
  metadata : Option PboxMetadata
  saved : Option SavedEnvironment
  deriving DecidableEq

inductive Command where
  | delete (confirmed wait : Bool)
  | deleteSaved (yes wait : Bool)

/-- The box or the saved environment that a command is about. -/
inductive Target where
  | box (id : PboxId)
  | saved (id : Text)
  deriving DecidableEq

structure Record where
  target : Target
  node : Text
  vmid : UInt64
  deriving DecidableEq

/-- Where a command is. `reading` is the rest of discovery after the container that the reference selects
has been read. -/
inductive Pc where
  | listing
  | reading (record : Record)
  | asking (record : Record) (wait : Bool)
  | prompting (record : Record) (wait : Bool)
  | confirmed (record : Record) (wait : Bool)
  | stopping (record : Record)
  | stopped (record : Record)
  | deleting (record : Record)
  | waiting
  | ended
  deriving DecidableEq

/-- A destroy request that PVE has not carried out or refused. -/
structure Request where
  node : Text
  vmid : UInt64
  force : Bool
  deriving DecidableEq

/-- `confirmed` and `destroyed` record what happened: the record each command went on with, and the
containers on which requests of the commands were carried out. No step reads them. -/
structure State where
  cluster : UInt64 → Option Container
  pcs : Nat → Pc
  requests : Nat → Option Request
  confirmed : Nat → Option Record
  destroyed : List (Nat × Container)

inductive Action where
  /-- Other clients. -/
  | creates (vmid : UInt64) (container : Container)
  | removes (vmid : UInt64)
  | switches (vmid : UInt64) (status : Text)
  /-- The steps of a command; `fails` is an error of a call or an interruption. -/
  | reads (command : Nat) (vmid : UInt64)
  | selects (command : Nat) (recovery : Bool)
  | proceeds (command : Nat)
  | shows (command : Nat)
  | answers (command : Nat) (yes : Bool)
  | queues (command : Nat)
  | checks (command : Nat)
  | stops (command : Nat)
  | rechecks (command : Nat)
  | deletes (command : Nat)
  | returns (command : Nat)
  | fails (command : Nat)
  /-- PVE carries a destroy request out, or refuses it. -/
  | executes (command : Nat)
  | refuses (command : Nat)

def Command.unasked : Command → Bool
  | .delete confirmed _ => confirmed
  | .deleteSaved yes _ => yes

def Command.waits : Command → Bool
  | .delete _ wait => wait
  | .deleteSaved _ wait => wait

def Command.ofBox : Command → Bool
  | .delete .. => true
  | .deleteSaved .. => false

/-- What discovery or the inventory makes of a container. -/
def seen (command : Command) (vmid : UInt64) (container : Container) : Option Record :=
  match command with
  | .delete .. =>
    (container.metadata.filter fun metadata => placed metadata container.node vmid).map fun metadata =>
      ⟨.box metadata.id, container.node, vmid⟩
  | .deleteSaved .. =>
    (container.saved.filter fun saved => saved.vmid = vmid ∧ saved.node = container.node).map fun saved =>
      ⟨.saved saved.id, container.node, vmid⟩

/-- The notes of the container name the target. -/
def Carries (container : Container) : Target → Prop
  | .box id => container.metadata.map (·.id) = some id
  | .saved id => container.saved.map (·.id) = some id

instance (container : Container) (target : Target) : Decidable (Carries container target) := by
  cases target <;> exact inferInstanceAs (Decidable (_ = _))

/-- The container that PVE finds at a place. -/
def State.found (s : State) (node : Text) (vmid : UInt64) : Option Container :=
  (s.cluster vmid).filter fun container => container.node = node

section Model
variable (calls : Nat → Command)

def State.goes (s : State) (command : Nat) (pc : Pc) : State :=
  { s with pcs := Function.update s.pcs command pc }

def State.confirms (s : State) (command : Nat) (record : Record) (wait : Bool) : State :=
  { s.goes command (.confirmed record wait) with
    confirmed := Function.update s.confirmed command (some record) }

def State.sends (s : State) (command : Nat) (record : Record) (force : Bool) (pc : Pc) : State :=
  { s.goes command pc with
    requests := Function.update s.requests command (some ⟨record.node, record.vmid, force⟩) }

def step (s : State) : Action → Option State
  | .creates vmid container =>
    if s.cluster vmid = none then some { s with cluster := Function.update s.cluster vmid (some container) } else none
  | .removes vmid => some { s with cluster := Function.update s.cluster vmid none }
  | .switches vmid status =>
    some { s with cluster := Function.update s.cluster vmid
                    ((s.cluster vmid).map fun container => { container with status }) }
  | .reads c vmid =>
    match s.pcs c, (s.cluster vmid).bind (seen (calls c) vmid) with
    | .listing, some record => some (s.goes c (.reading record))
    | _, _ => none
  | .selects c recovery =>
    match s.pcs c with
    | .reading record => some (s.goes c (.asking record ((calls c).waits || (calls c).ofBox && recovery)))
    | _ => none
  | .proceeds c =>
    match s.pcs c with
    | .asking record wait => if (calls c).unasked then some (s.confirms c record wait) else none
    | _ => none
  | .shows c =>
    match s.pcs c with
    | .asking record wait =>
      -- `pbox rm` reads the configuration again for the details, and only shows it
      if (calls c).unasked = false ∧ ((calls c).ofBox → (s.found record.node record.vmid).isSome) then
        some (s.goes c (.prompting record wait))
      else none
    | _ => none
  | .answers c yes =>
    match s.pcs c with
    | .prompting record wait => some (if yes then s.confirms c record wait else s.goes c .ended)
    | _ => none
  | .queues c =>
    match s.pcs c with
    | .confirmed record false => if (calls c).ofBox then some (s.sends c record true .ended) else none
    | _ => none
  | .checks c =>
    match s.pcs c with
    | .confirmed record true =>
      if (calls c).ofBox then
        (s.found record.node record.vmid).map fun container =>
          s.goes c (if container.status = STOPPED then .deleting record else .stopping record)
      else none
    | _ => none
  | .stops c =>
    match s.pcs c with
    | .stopping record => some (s.goes c (.stopped record))
    | _ => none
  | .rechecks c =>
    match s.pcs c with
    | .stopped record =>
      (s.found record.node record.vmid).map fun container =>
        s.goes c (if container.status = STOPPED then .deleting record else .ended)
    | _ => none
  | .deletes c =>
    match s.pcs c with
    | .deleting record => some (s.sends c record false .waiting)
    | .confirmed record _ => if (calls c).ofBox then none else some (s.sends c record false .waiting)
    | _ => none
  | .returns c =>
    match s.pcs c with
    | .waiting => some (s.goes c .ended)
    | _ => none
  | .fails c => some (s.goes c .ended)
  | .executes c =>
    match s.requests c with
    | some request =>
      match s.found request.node request.vmid with
      | some container =>
        if request.force ∨ container.status = STOPPED then
          some { s with cluster := Function.update s.cluster request.vmid none
                        requests := Function.update s.requests c none
                        destroyed := s.destroyed ++ [(c, container)] }
        else none
      | none => none
    | none => none
  | .refuses c => some { s with requests := Function.update s.requests c none }

/-- The cluster is arbitrary and no command has begun. -/
def Initial (s : State) : Prop :=
  (∀ c, s.pcs c = .listing ∧ s.requests c = none ∧ s.confirmed c = none) ∧ s.destroyed = []

def system : System State Action := ⟨Initial, step calls⟩

end Model

/-- The record that a command under way works on. -/
def Pc.record : Pc → Option Record
  | .reading record | .asking record _ | .prompting record _ | .confirmed record _ | .stopping record
  | .stopped record | .deleting record => some record
  | .listing | .waiting | .ended => none

/-- The record of a command that goes on without asking again. -/
def Pc.going : Pc → Option Record
  | .confirmed record _ | .stopping record | .stopped record | .deleting record => some record
  | _ => none

def Pc.early : Pc → Bool
  | .listing | .reading _ | .asking .. | .prompting .. => true
  | _ => false

/-- From the read of the container to the end of the destroy request. -/
def Underway (s : State) (command : Nat) (record : Record) : Prop :=
  (s.pcs command).record = some record ∨ (s.requests command).isSome ∧ s.confirmed command = some record

/-- No container with another identifier takes the place of a box that a command under way has read. -/
def Unreplaced (s : State) : Action → Prop
  | .creates vmid container => ∀ command record, Underway s command record →
      record.vmid = vmid → record.node = container.node → Carries container record.target
  | _ => True

/-- Every container destroyed for a command had the identifier that the command was confirmed for. -/
def Rightful (s : State) : Prop :=
  ∀ command container, (command, container) ∈ s.destroyed →
    ∃ record, s.confirmed command = some record ∧ Carries container record.target

structure Sound (s : State) : Prop where
  intact : ∀ command record, Underway s command record →
    ∀ container, s.found record.node record.vmid = some container → Carries container record.target
  early : ∀ command, (s.pcs command).early = true → s.requests command = none ∧ s.confirmed command = none
  going : ∀ command record, (s.pcs command).going = some record → s.confirmed command = some record
  sent : ∀ command request, s.requests command = some request →
    ∃ record, s.confirmed command = some record ∧ request.node = record.node ∧ request.vmid = record.vmid
  rightful : Rightful s

section Proofs
variable {calls : Nat → Command} {s t : State}

theorem initial_sound (initial : Initial s) : Sound s := by
  obtain ⟨blank, none_destroyed⟩ := initial
  refine ⟨fun c record under => ?_, fun c _ => (blank c).2, fun c record going => ?_, fun c request sent => ?_,
    fun c container gone => ?_⟩
  · rcases under with pc | ⟨sent, _⟩
    · rw [(blank c).1] at pc
      cases pc
    · rw [(blank c).2.1] at sent
      cases sent
  · rw [(blank c).1] at going
    cases going
  · rw [(blank c).2.1] at sent
    cases sent
  · rw [none_destroyed] at gone
    cases gone

theorem found_iff {node : Text} {vmid : UInt64} {container : Container} :
    s.found node vmid = some container ↔ s.cluster vmid = some container ∧ container.node = node := by
  unfold State.found
  simp [Option.filter_eq_some_iff]

/-- What discovery reads of a container is what its notes name. -/
theorem seen_carries {command : Command} {vmid : UInt64} {container : Container} {record : Record}
    (read : seen command vmid container = some record) :
    record.vmid = vmid ∧ record.node = container.node ∧ Carries container record.target := by
  unfold seen at read
  cases command with
  | delete confirmed wait =>
    obtain ⟨metadata, kept, rfl⟩ := Option.map_eq_some_iff.mp read
    refine ⟨rfl, rfl, ?_⟩
    unfold Carries
    rw [(Option.filter_eq_some_iff.mp kept).1, Option.map_some]
  | deleteSaved yes wait =>
    obtain ⟨saved, kept, rfl⟩ := Option.map_eq_some_iff.mp read
    refine ⟨rfl, rfl, ?_⟩
    unfold Carries
    rw [(Option.filter_eq_some_iff.mp kept).1, Option.map_some]

/-- A change of the cluster that brings no container with another identifier to a place in use. -/
theorem Sound.cluster (sound : Sound s) {cluster : UInt64 → Option Container}
    (kept : ∀ command record container, Underway s command record → cluster record.vmid = some container →
      container.node = record.node → (∃ before, s.found record.node record.vmid = some before ∧
        (Carries before record.target → Carries container record.target)) ∨ Carries container record.target) :
    Sound { s with cluster } := by
  obtain ⟨intact, early, going, sent, rightful⟩ := sound
  refine ⟨fun c record under container here => ?_, early, going, sent, rightful⟩
  obtain ⟨present, onNode⟩ := found_iff.mp here
  rcases kept c record container under present onNode with ⟨before, found, same⟩ | carries
  · exact same (intact c record under before found)
  · exact carries

/-- A removal brings no container to any place. -/
theorem Sound.removed (sound : Sound s) (vmid : UInt64) :
    Sound { s with cluster := Function.update s.cluster vmid none } := by
  refine sound.cluster fun c record container _ present onNode => .inl ⟨container, ?_, id⟩
  by_cases same : record.vmid = vmid
  · rw [same, Function.update_self] at present
    cases present
  · rw [Function.update_of_ne same] at present
    exact found_iff.mpr ⟨present, onNode⟩

/-- A command that moves on with the record it has, or with one that it has just read. -/
theorem Sound.goes (sound : Sound s) {c : Nat} {pc : Pc}
    (same : ∀ record, pc.record = some record → (s.pcs c).record = some record ∨
      ∀ container, s.found record.node record.vmid = some container → Carries container record.target)
    (early : pc.early = true → (s.pcs c).early = true)
    (going : ∀ record, pc.going = some record → s.confirmed c = some record) : Sound (s.goes c pc) := by
  obtain ⟨intact, earlier, agreed, sent, rightful⟩ := sound
  refine ⟨fun other record under container here => ?_, fun other begun => ?_, fun other record goes => ?_, sent,
    rightful⟩
  · rcases under with pc' | sent'
    · by_cases self : other = c
      · subst self
        simp only [State.goes, Function.update_self] at pc'
        rcases same record pc' with held | read
        · exact intact other record (.inl held) container here
        · exact read container here
      · simp only [State.goes, Function.update_of_ne self] at pc'
        exact intact other record (.inl pc') container here
    · exact intact other record (.inr sent') container here
  · by_cases self : other = c
    · subst self
      simp only [State.goes, Function.update_self] at begun
      exact earlier other (early begun)
    · simp only [State.goes, Function.update_of_ne self] at begun
      exact earlier other begun
  · by_cases self : other = c
    · subst self
      simp only [State.goes, Function.update_self] at goes
      exact going record goes
    · simp only [State.goes, Function.update_of_ne self] at goes
      exact agreed other record goes

/-- The user's decision, or the flag that stands for it. -/
theorem Sound.confirms (sound : Sound s) {c : Nat} {record : Record} (wait : Bool)
    (early : (s.pcs c).early = true) (held : (s.pcs c).record = some record) :
    Sound (s.confirms c record wait) := by
  obtain ⟨intact, earlier, agreed, sent, rightful⟩ := sound
  obtain ⟨unsent, unconfirmed⟩ := earlier c early
  have others {other : Nat} (different : other ≠ c) :
      (s.confirms c record wait).pcs other = s.pcs other ∧
        (s.confirms c record wait).confirmed other = s.confirmed other :=
    ⟨Function.update_of_ne different _ _, Function.update_of_ne different _ _⟩
  have own : (s.confirms c record wait).pcs c = .confirmed record wait ∧
      (s.confirms c record wait).confirmed c = some record :=
    ⟨Function.update_self _ _ _, Function.update_self _ _ _⟩
  refine ⟨fun other r under => ?_, fun other begun => ?_, fun other r going => ?_, fun other request pending => ?_,
    fun other container gone => ?_⟩
  · by_cases self : other = c
    · subst self
      unfold Underway at under
      rw [own.1, show (s.confirms other record wait).requests other = none from unsent] at under
      rcases under with same | ⟨none, _⟩
      · cases same
        exact intact other record (.inl held)
      · cases none
    · unfold Underway at under
      rw [(others self).1, (others self).2] at under
      exact intact other r under
  · by_cases self : other = c
    · subst self
      rw [own.1] at begun
      cases begun
    · rw [(others self).1] at begun
      rw [(others self).2]
      exact earlier other begun
  · by_cases self : other = c
    · subst self
      rw [own.1] at going
      cases going
      exact own.2
    · rw [(others self).1] at going
      rw [(others self).2]
      exact agreed other r going
  · have before : s.requests other = some request := pending
    have different : other ≠ c := by
      rintro rfl
      rw [unsent] at before
      cases before
    rw [(others different).2]
    exact sent other request before
  · obtain ⟨confirmed, known, carries⟩ := rightful other container gone
    have different : other ≠ c := by
      rintro rfl
      rw [unconfirmed] at known
      cases known
    exact ⟨confirmed, by rw [(others different).2, known], carries⟩

/-- The destroy request names the place of the confirmed record. -/
theorem Sound.sends (sound : Sound s) {c : Nat} {record : Record} {pc : Pc} (force : Bool)
    (going : (s.pcs c).going = some record) (after : pc = .waiting ∨ pc = .ended) :
    Sound (s.sends c record force pc) := by
  have confirmed := sound.going c record going
  have held : (s.pcs c).record = some record := by
    cases now : s.pcs c <;> rw [now] at going <;> cases going <;> rfl
  have moved : Sound (s.goes c pc) := by
    rcases after with rfl | rfl <;> exact sound.goes (by rintro _ ⟨⟩) (by rintro ⟨⟩) (by rintro _ ⟨⟩)
  obtain ⟨intact, early, agreed, sent, rightful⟩ := moved
  have others {other : Nat} (different : other ≠ c) :
      (s.sends c record force pc).requests other = s.requests other := Function.update_of_ne different _ _
  have quiet : ((s.goes c pc).pcs c).early = false := by
    rcases after with rfl | rfl <;> simp [State.goes, Pc.early]
  refine ⟨fun other r under => ?_, fun other begun => ?_, agreed, fun other request pending => ?_, rightful⟩
  · by_cases self : other = c
    · subst self
      rcases under with now | ⟨_, known⟩
      · exact intact other r (.inl now)
      · obtain rfl : record = r := Option.some.inj (confirmed.symm.trans known)
        exact sound.intact other record (.inl held)
    · rcases under with now | ⟨pending, known⟩
      · exact intact other r (.inl now)
      · rw [others self] at pending
        exact intact other r (.inr ⟨pending, known⟩)
  · by_cases self : other = c
    · subst self
      have now : ((s.goes other pc).pcs other).early = true := begun
      rw [quiet] at now
      cases now
    · obtain ⟨unsent, unconfirmed⟩ := early other begun
      exact ⟨(others self).trans unsent, unconfirmed⟩
  · by_cases self : other = c
    · subst self
      simp only [State.sends, Function.update_self, Option.some.injEq] at pending
      exact ⟨record, confirmed, by rw [← pending], by rw [← pending]⟩
    · rw [others self] at pending
      exact sent other request pending

/-- A request that is over. -/
theorem Sound.over (sound : Sound s) (c : Nat) :
    Sound { s with requests := Function.update s.requests c none } := by
  obtain ⟨intact, early, agreed, sent, rightful⟩ := sound
  have fewer {other : Nat} {request : Request}
      (pending : Function.update s.requests c none other = some request) : s.requests other = some request := by
    by_cases self : other = c
    · rw [self, Function.update_self] at pending
      cases pending
    · rwa [Function.update_of_ne self] at pending
  refine ⟨fun other r under => ?_, fun other begun => ?_, agreed, fun other request pending => ?_, rightful⟩
  · rcases under with now | ⟨pending, known⟩
    · exact intact other r (.inl now)
    · obtain ⟨request, some_request⟩ := Option.isSome_iff_exists.mp pending
      exact intact other r (.inr ⟨Option.isSome_iff_exists.mpr ⟨request, fewer some_request⟩, known⟩)
  · obtain ⟨unsent, unconfirmed⟩ := early other begun
    refine ⟨?_, unconfirmed⟩
    by_cases self : other = c
    · subst self
      exact Function.update_self _ _ _
    · exact (Function.update_of_ne self _ _).trans unsent
  · exact sent other request (fewer pending)

/-- PVE destroys what it finds at the place of the request. -/
theorem Sound.executes (sound : Sound s) {c : Nat} {request : Request} {container : Container}
    (pending : s.requests c = some request) (here : s.found request.node request.vmid = some container) :
    Rightful { s with destroyed := s.destroyed ++ [(c, container)] } := by
  intro other gone member
  rcases List.mem_append.mp member with before | last
  · exact sound.rightful other gone before
  · obtain ⟨rfl, rfl⟩ := Prod.mk.injEq .. ▸ List.mem_singleton.mp last
    obtain ⟨record, confirmed, onNode, numbered⟩ := sound.sent other request pending
    rw [onNode, numbered] at here
    exact ⟨record, confirmed, sound.intact other record (.inr ⟨by rw [pending]; rfl, confirmed⟩) gone here⟩

theorem step_sound {a : Action} (sound : Sound s) (unreplaced : Unreplaced s a) (taken : step calls s a = some t) :
    Sound t := by
  cases a with
  | creates vmid container =>
    simp only [step, Option.ite_none_right_eq_some, Option.some.injEq] at taken
    obtain ⟨_, rfl⟩ := taken
    refine sound.cluster fun c record other under present onNode => ?_
    by_cases same : record.vmid = vmid
    · rw [same, Function.update_self, Option.some.injEq] at present
      subst present
      exact .inr (unreplaced c record under same onNode.symm)
    · rw [Function.update_of_ne same] at present
      exact .inl ⟨other, found_iff.mpr ⟨present, onNode⟩, id⟩
  | removes vmid =>
    simp only [step, Option.some.injEq] at taken
    exact taken ▸ sound.removed vmid
  | switches vmid status =>
    simp only [step, Option.some.injEq] at taken
    subst taken
    refine sound.cluster fun c record other _ present onNode => ?_
    by_cases same : record.vmid = vmid
    · rw [same, Function.update_self] at present
      obtain ⟨before, was, rfl⟩ := Option.map_eq_some_iff.mp present
      refine .inl ⟨before, found_iff.mpr ⟨same ▸ was, onNode⟩, fun carries => ?_⟩
      cases target : record.target <;> rw [target] at carries <;> exact carries
    · rw [Function.update_of_ne same] at present
      exact .inl ⟨other, found_iff.mpr ⟨present, onNode⟩, id⟩
  | reads c vmid =>
    simp only [step] at taken
    split at taken
    next record now read =>
      cases taken
      obtain ⟨container, present, seen⟩ := Option.bind_eq_some_iff.mp read
      obtain ⟨numbered, onNode, carries⟩ := seen_carries seen
      refine sound.goes (fun _ same => .inr ?_) (fun _ => by rw [now]; rfl) (by rintro _ ⟨⟩)
      cases same
      intro other here
      rw [numbered] at here
      obtain rfl : container = other := Option.some.inj (present.symm.trans (found_iff.mp here).1)
      exact carries
    next => cases taken
  | selects c recovery =>
    simp only [step] at taken
    split at taken
    next record now =>
      cases taken
      exact sound.goes (fun _ same => .inl (by rw [now]; exact same)) (fun _ => by rw [now]; rfl) (by rintro _ ⟨⟩)
    next => cases taken
  | proceeds c =>
    simp only [step] at taken
    split at taken
    next record wait now =>
      split at taken
      · cases taken
        exact sound.confirms wait (by rw [now]; rfl) (by rw [now]; rfl)
      · cases taken
    next => cases taken
  | shows c =>
    simp only [step] at taken
    split at taken
    next record wait now =>
      split at taken
      · cases taken
        exact sound.goes (fun _ same => .inl (by rw [now]; exact same)) (fun _ => by rw [now]; rfl) (by rintro _ ⟨⟩)
      · cases taken
    next => cases taken
  | answers c yes =>
    simp only [step] at taken
    split at taken
    next record wait now =>
      cases yes with
      | true =>
        cases taken
        exact sound.confirms wait (by rw [now]; rfl) (by rw [now]; rfl)
      | false =>
        cases taken
        exact sound.goes (by rintro _ ⟨⟩) (by rintro ⟨⟩) (by rintro _ ⟨⟩)
    next => cases taken
  | queues c =>
    simp only [step] at taken
    split at taken
    next record now =>
      split at taken
      · cases taken
        exact sound.sends true (by rw [now]; rfl) (.inr rfl)
      · cases taken
    next => cases taken
  | checks c =>
    simp only [step] at taken
    split at taken
    next record now =>
      split at taken
      · obtain ⟨container, _, rfl⟩ := Option.map_eq_some_iff.mp taken
        have confirmed := sound.going c record (by rw [now]; rfl)
        split
        all_goals
          refine sound.goes (fun _ same => .inl (by rw [now]; exact same)) (by rintro ⟨⟩) ?_
          rintro _ ⟨⟩
          exact confirmed
      · cases taken
    next => cases taken
  | stops c =>
    simp only [step] at taken
    split at taken
    next record now =>
      cases taken
      have confirmed := sound.going c record (by rw [now]; rfl)
      refine sound.goes (fun _ same => .inl (by rw [now]; exact same)) (by rintro ⟨⟩) ?_
      rintro _ ⟨⟩
      exact confirmed
    next => cases taken
  | rechecks c =>
    simp only [step] at taken
    split at taken
    next record now =>
      obtain ⟨container, _, rfl⟩ := Option.map_eq_some_iff.mp taken
      have confirmed := sound.going c record (by rw [now]; rfl)
      split
      · refine sound.goes (fun _ same => .inl (by rw [now]; exact same)) (by rintro ⟨⟩) ?_
        rintro _ ⟨⟩
        exact confirmed
      · exact sound.goes (by rintro _ ⟨⟩) (by rintro ⟨⟩) (by rintro _ ⟨⟩)
    next => cases taken
  | deletes c =>
    simp only [step] at taken
    split at taken
    next record now =>
      cases taken
      exact sound.sends false (by rw [now]; rfl) (.inl rfl)
    next record wait now =>
      split at taken
      · cases taken
      · cases taken
        exact sound.sends false (by rw [now]; rfl) (.inl rfl)
    next => cases taken
  | returns c =>
    simp only [step] at taken
    split at taken
    · cases taken
      exact sound.goes (by rintro _ ⟨⟩) (by rintro ⟨⟩) (by rintro _ ⟨⟩)
    · cases taken
  | fails c =>
    cases taken
    exact sound.goes (by rintro _ ⟨⟩) (by rintro ⟨⟩) (by rintro _ ⟨⟩)
  | executes c =>
    simp only [step] at taken
    split at taken
    next request pending =>
      split at taken
      next container here =>
        split at taken
        · cases taken
          have left := (sound.removed request.vmid).over c
          exact ⟨left.intact, left.early, left.going, left.sent, sound.executes pending here⟩
        · cases taken
      next => cases taken
    next => cases taken
  | refuses c =>
    cases taken
    exact sound.over c

/-- In a run in which no other container takes the place of a box that a command under way has read, PVE
destroys nothing but what the users confirmed. -/
theorem destroys_confirmed (calls : Nat → Command) {s : State}
    (reached : (system calls).ReachableBy Unreplaced s) : Rightful s :=
  (reached.invariant (fun _ initial => initial_sound initial)
    fun _ _ _ sound unreplaced taken => step_sound sound unreplaced taken).rightful

end Proofs

section Sample

def boxMetadata (id : PboxId) : PboxMetadata := .new id 9000

theorem oldId_accepted : Accepted "pbx_t3yzd9y3".toList :=
  ⟨by decide, by decide, List.all_eq_true.mp (by decide)⟩

def oldId : PboxId := ⟨"pbx_t3yzd9y3".toList, oldId_accepted⟩
def newId : PboxId := ⟨"pbx_00000001".toList, by decide, by decide, List.all_eq_true.mp (by decide)⟩

def boxContainer (id : PboxId) : Container := ⟨"pve".toList, "running".toList, some (boxMetadata id), none⟩

def sampleCalls (_ : Nat) : Command := .delete true false

def sampleStart : State where
  cluster vmid := if vmid = 9000 then some (boxContainer oldId) else none
  pcs _ := .listing
  requests _ := none
  confirmed _ := none
  destroyed := []

theorem sampleStart_initial : Initial sampleStart := ⟨fun _ => ⟨rfl, rfl, rfl⟩, rfl⟩

/-- The box goes and a new one gets its VMID while the command is under way. -/
def reusedRun : List Action :=
  [.reads 0 9000, .selects 0 false, .removes 9000, .creates 9000 (boxContainer newId), .proceeds 0, .queues 0,
    .executes 0]

/-- Another box is destroyed than the one confirmed. -/
theorem other_box_destroyed : ∃ s, (system sampleCalls).Reachable s ∧
    s.confirmed 0 = some ⟨.box oldId, "pve".toList, 9000⟩ ∧ (0, boxContainer newId) ∈ s.destroyed ∧
    ¬Carries (boxContainer newId) (.box oldId) := by
  obtain ⟨s, ran⟩ := Option.isSome_iff_exists.mp
    (show ((system sampleCalls).run sampleStart reusedRun).isSome = true by decide)
  have last : ((system sampleCalls).run sampleStart reusedRun).map (fun s => (s.confirmed 0, s.destroyed)) =
      some (some ⟨.box oldId, "pve".toList, 9000⟩, [(0, boxContainer newId)]) := by decide
  rw [ran, Option.map_some, Option.some.injEq, Prod.mk.injEq] at last
  refine ⟨s, System.reachable_of_run (.start sampleStart_initial) ran, last.1, ?_, by decide⟩
  rw [last.2]
  exact List.mem_singleton_self _

/-- The same command on a cluster that stays as it is. -/
def quietRun : List Action := [.reads 0 9000, .selects 0 false, .proceeds 0, .queues 0, .executes 0]

def creates : Action → Bool
  | .creates .. => true
  | _ => false

theorem quietRun_confirmed : ∃ s, (system sampleCalls).ReachableBy Unreplaced s ∧
    s.destroyed = [(0, boxContainer oldId)] ∧ Rightful s := by
  obtain ⟨s, ran⟩ := Option.isSome_iff_exists.mp
    (show ((system sampleCalls).runBy (fun _ a => !creates a) sampleStart quietRun).isSome = true by decide)
  have last : ((system sampleCalls).runBy (fun _ a => !creates a) sampleStart quietRun).map (·.destroyed) =
      some [(0, boxContainer oldId)] := by decide
  have reached : (system sampleCalls).ReachableBy Unreplaced s := by
    refine System.reachableBy_of_runBy (fun s a quiet => ?_) (.start sampleStart_initial) ran
    cases a with
    | creates => cases quiet
    | _ => trivial
  rw [ran, Option.map_some, Option.some.injEq] at last
  exact ⟨s, reached, last, destroys_confirmed sampleCalls reached⟩

end Sample

end Pbox.Cli.Deletion
