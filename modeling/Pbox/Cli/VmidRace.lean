import Pbox.Core.Vmid
import Pbox.Cli.ProvenanceRace
import Pbox.Cli.Discovery
import Pbox.Lib.Transition
import Mathlib.Data.List.Nodup

/-! Containers that are created at the same time. Each call takes the lowest number that a listing shows free
and tries another when PVE says that it is taken. The listing may be old by then, or lack something; what keeps
the numbers apart is that PVE creates a container under a free number only. -/

namespace Pbox.Cli.VmidRace
open Pbox.Lib.Strings Pbox.Lib.Numerals Pbox.Lib.Transition Pbox.Core.Id Pbox.Core.Vmid Pbox.Core.Metadata
open Pbox.Cli.Discovery (SavedEnvironment MARKER)
open Pbox.Cli.ProvenanceRace (CLONE_MARKER)

/-- `reason` is the phrase that belongs to the status; the other errors are known by the text they display. -/
inductive PveError where
  | http (status : Nat) (reason message : Text)
  | other (text : Text)

def PveError.text : PveError → Text
  | .http status reason message =>
    "PVE API returned HTTP ".toList ++ showNat status ++ ' ' :: reason ++ ": ".toList ++ message
  | .other text => text

def contains (pattern text : Text) : Bool := (find pattern text).isSome

def isVmidConflict : PveError → Bool
  | .http status _ message =>
    status = 409 || contains "vmid".toList (message.map Char.toLower) && contains "already".toList (message.map Char.toLower)
  | .other _ => false

/-- The two functions that choose a number. -/
inductive Kind where
  | create
  | clone
  deriving DecidableEq

/-- The errors after which a call tries again. -/
def retries (kind : Kind) (error : PveError) : Bool :=
  match kind with
  | .create => isVmidConflict error
  | .clone => isVmidConflict error || contains "locked (disk)".toList error.text

def VMID_CREATE_ATTEMPTS : Nat := 8

section Notes

/-- The serialisers behind the notes of a container. -/
structure Writer where
  codec : Codec
  saved : SavedEnvironment → Except JsonError Text

/-- What the notes are written from: a new box, a copy that is saved, a box cloned from one. -/
inductive Notes where
  | created (id : PboxId) (node image : Text)
  | saved (environment : SavedEnvironment)
  | cloned (id : PboxId) (saved : SavedEnvironment) (pending : Except JsonError Text)

variable (w : Writer)

def encode (metadata : PboxMetadata) : Except Text Text :=
  (encodeMetadata w.codec metadata).mapError fun _ => "encode pbox metadata".toList

def describe (vmid : UInt64) : Notes → Except Text Text
  | .created id node image =>
    (encode w { PboxMetadata.new id vmid with node := some node, image := some image }).map fun marker =>
      "Managed by `pbox`.\n".toList ++ marker
  | .saved environment =>
    (w.saved { environment with vmid }).map fun json => "Independent pbox saved environment.\n".toList ++ MARKER ++ json
  | .cloned id saved pending =>
    match encode w { PboxMetadata.new id vmid with
        node := some saved.node
        image := saved.image
        snapshot := some (saved.name ++ " (".toList ++ saved.id ++ [')'])
        recipes := saved.recipes
        capabilities := saved.capabilities } with
    | .error error => .error error
    | .ok marker => pending.map fun json => marker ++ '\n' :: CLONE_MARKER ++ json

/-- Notes whose metadata names this number. -/
inductive Names (vmid : Nat) : Text → Prop
  | box (metadata : PboxMetadata) (marker before after : Text) (same : metadata.vmid.toNat = vmid)
      (encoded : encodeMetadata w.codec metadata = .ok marker) : Names vmid (before ++ marker ++ after)
  | saved (environment : SavedEnvironment) (json before : Text) (same : environment.vmid.toNat = vmid)
      (encoded : w.saved environment = .ok json) : Names vmid (before ++ MARKER ++ json)

end Notes

/-- What a call is for. The pattern comes from the settings. -/
structure Spec where
  kind : Kind
  pattern : VmidPattern
  notes : Notes
  parsed : ∃ text, VmidPattern.parse text = .ok pattern

/-- What a call has sent, and the errors it has got. -/
inductive Event where
  | submitted (vmid : Nat)
  | failed (error : PveError)

inductive Pc where
  | listing (attempt : Nat) (occupied : List Nat)
  | ready (attempt : Nat) (occupied : List Nat)
  | sent (attempt : Nat) (occupied : List Nat) (vmid : Nat)
  | waiting (vmid : Nat)
  | returned (result : Except Text Nat)

structure Call where
  spec : Spec
  pc : Pc
  log : List Event

/-- A container and the call that has asked for it. -/
structure Container where
  vmid : Nat
  notes : Text
  maker : Option Nat

/-- A request that PVE has not decided yet. -/
structure Request where
  call : Nat
  vmid : Nat
  notes : Text
  deriving DecidableEq

structure World where
  containers : List Container
  requests : List Request
  calls : Nat → Option Call

inductive Act where
  | start (c : Nat) (spec : Spec)
  | list (c : Nat) (found : List Nat)
  | listFails (c : Nat) (error : Text)
  | deadline (c : Nat)
  | submit (c : Nat)
  | accept (request : Request)
  | answer (c : Nat)
  | refuse (request : Request) (error : PveError)
  | fail (c : Nat) (error : PveError)
  | taskEnds (c : Nat) (failed : Option Text)
  | foreign (vmid : Nat) (notes : Text)

section Steps
variable (w : Writer) (refuses : Kind → PveError → Bool)

def World.free (s : World) (vmid : Nat) : Bool := s.containers.all fun container => container.vmid ≠ vmid

def World.set (s : World) (c : Nat) (call : Call) : World :=
  { s with calls := fun other => if other = c then some call else s.calls other }

/-- Where a call goes on after an error. -/
def afterError (kind : Kind) (attempt : Nat) (occupied : List Nat) (vmid : Nat) (error : PveError) : Pc :=
  match kind with
  | .create =>
    if isVmidConflict error && attempt + 1 < VMID_CREATE_ATTEMPTS then .listing (attempt + 1) (vmid :: occupied)
    else .returned (.error error.text)
  | .clone =>
    if isVmidConflict error || contains "locked (disk)".toList error.text then .listing 0 []
    else .returned (.error error.text)

def Call.fails (call : Call) (attempt : Nat) (occupied : List Nat) (vmid : Nat) (error : PveError) : Call :=
  { call with
    pc := afterError call.spec.kind attempt occupied vmid error
    log := call.log ++ [.failed error] }

/-- The number and the notes that a call sends. -/
def choose (spec : Spec) (occupied : List Nat) : Except Text (Nat × Text) :=
  match spec.pattern.allocateLowest occupied with
  | .error error => .error error
  | .ok vmid => (describe w vmid.toUInt64 spec.notes).map fun notes => (vmid, notes)

/-- PVE creates nothing when it refuses. After any other error the request may still be decided. -/
def step (s : World) : Act → Option World
  | .start c spec =>
    match s.calls c with
    | some _ => none
    | none => some (s.set c ⟨spec, .listing 0 [], []⟩)
  | .list c found =>
    match s.calls c with
    | some ⟨spec, .listing attempt occupied, log⟩ => some (s.set c ⟨spec, .ready attempt (found ++ occupied), log⟩)
    | _ => none
  | .listFails c error =>
    match s.calls c with
    | some ⟨spec, .listing _ _, log⟩ => some (s.set c ⟨spec, .returned (.error error), log⟩)
    | _ => none
  | .deadline c =>
    match s.calls c with
    | some ⟨spec, .listing _ _, log⟩ =>
      if spec.kind = .clone then
        some (s.set c ⟨spec, .returned (.error "could not allocate a free VMID for the full clone".toList), log⟩)
      else none
    | _ => none
  | .submit c =>
    match s.calls c with
    | some ⟨spec, .ready attempt occupied, log⟩ =>
      match choose w spec occupied with
      | .error error => some (s.set c ⟨spec, .returned (.error error), log⟩)
      | .ok (vmid, notes) =>
        some { s.set c ⟨spec, .sent attempt occupied vmid, log ++ [.submitted vmid]⟩ with
          requests := s.requests ++ [⟨c, vmid, notes⟩] }
    | _ => none
  | .accept request =>
    if request ∈ s.requests ∧ s.free request.vmid = true then
      some { s with
        containers := s.containers ++ [⟨request.vmid, request.notes, some request.call⟩]
        requests := s.requests.filter (· ≠ request) }
    else none
  | .answer c =>
    match s.calls c with
    | some ⟨spec, .sent _ _ vmid, log⟩ =>
      if s.containers.any fun container => container.maker = some c && container.vmid = vmid then
        match spec.kind with
        | .create => some (s.set c ⟨spec, .returned (.ok vmid), log⟩)
        | .clone => some (s.set c ⟨spec, .waiting vmid, log⟩)
      else none
    | _ => none
  | .refuse request error =>
    match s.calls request.call with
    | some ⟨spec, .sent attempt occupied vmid, log⟩ =>
      if request ∈ s.requests ∧ request.vmid = vmid ∧ refuses spec.kind error = true then
        some { s.set request.call (Call.fails ⟨spec, .sent attempt occupied vmid, log⟩ attempt occupied vmid error) with
          requests := s.requests.filter (· ≠ request) }
      else none
    | _ => none
  | .fail c error =>
    match s.calls c with
    | some ⟨spec, .sent attempt occupied vmid, log⟩ =>
      if refuses spec.kind error = false then
        some (s.set c (Call.fails ⟨spec, .sent attempt occupied vmid, log⟩ attempt occupied vmid error))
      else none
    | _ => none
  | .taskEnds c failed =>
    match s.calls c with
    | some ⟨spec, .waiting vmid, log⟩ =>
      match failed with
      | some error => some (s.set c ⟨spec, .returned (.error error), log⟩)
      | none => some (s.set c ⟨spec, .returned (.ok vmid), log⟩)
    | _ => none
  | .foreign vmid notes =>
    if s.free vmid then some { s with containers := s.containers ++ [⟨vmid, notes, none⟩] } else none

/-- Containers of others may be there at the start, under different numbers. -/
structure Initial (s : World) : Prop where
  distinct : (s.containers.map Container.vmid).Nodup
  foreign : ∀ container ∈ s.containers, container.maker = none
  requests : s.requests = []
  calls : ∀ c, s.calls c = none

def system : System World Act where
  init := Initial
  step := step w refuses

end Steps

/-- The containers that a call has asked for. -/
def World.mine (s : World) (c : Nat) : List Container := s.containers.filter fun container => container.maker = some c

/-- No request follows an error that is no refusal. -/
def Final (refuses : PveError → Bool) (log : List Event) : Prop :=
  log.Pairwise fun earlier later =>
    ∀ error vmid, earlier = .failed error → later = .submitted vmid → refuses error = true

structure Sound (w : Writer) (refuses : Kind → PveError → Bool) (s : World) : Prop where
  once : ∀ c, (s.mine c).length ≤ 1
  own : ∀ c call vmid, s.calls c = some call → call.pc = .returned (.ok vmid) → ∃ container ∈ s.containers,
    container.maker = some c ∧ container.vmid = vmid ∧ call.spec.pattern.contains vmid = true ∧
      Names w vmid container.notes
  apart : ∀ c d first second vmid vmid', s.calls c = some first → s.calls d = some second →
    first.pc = .returned (.ok vmid) → second.pc = .returned (.ok vmid') → c ≠ d → vmid ≠ vmid'
  final : ∀ c call, s.calls c = some call → Final (refuses call.spec.kind) call.log

section Choice
variable {w : Writer} {spec : Spec}

theorem encode_ok {metadata : PboxMetadata} {marker : Text} (ok : encode w metadata = .ok marker) :
    encodeMetadata w.codec metadata = .ok marker := by
  unfold encode at ok
  cases encoded : encodeMetadata w.codec metadata with
  | error error => rw [encoded] at ok; cases ok
  | ok text => rw [encoded] at ok; cases ok; rfl

theorem map_ok {α β : Type} {x : Except Text α} {f : α → β} {b : β} (ok : x.map f = .ok b) :
    ∃ a, x = .ok a ∧ f a = b := by
  cases x with
  | error => cases ok
  | ok a => cases ok; exact ⟨a, rfl, rfl⟩

theorem describe_names {vmid : UInt64} {notes : Notes} {text : Text} (ok : describe w vmid notes = .ok text) :
    Names w vmid.toNat text := by
  cases notes with
  | created id node image =>
    obtain ⟨marker, encoded, rfl⟩ := map_ok ok
    rw [← List.append_nil ("Managed by `pbox`.\n".toList ++ marker)]
    exact .box _ marker _ _ rfl (encode_ok encoded)
  | saved environment =>
    obtain ⟨json, encoded, rfl⟩ := map_ok ok
    exact .saved _ json _ rfl encoded
  | cloned id saved pending =>
    simp only [describe] at ok
    split at ok
    next => cases ok
    next marker encoded =>
      obtain ⟨json, _, rfl⟩ := map_ok ok
      rw [List.append_assoc]
      exact .box _ marker [] _ rfl (encode_ok encoded)

/-- A container that a call can have asked for. -/
def Fits (w : Writer) (spec : Spec) (vmid : Nat) (notes : Text) : Prop :=
  spec.pattern.contains vmid = true ∧ Names w vmid notes

theorem choose_fits {occupied : List Nat} {vmid : Nat} {notes : Text} (ok : choose w spec occupied = .ok (vmid, notes)) :
    Fits w spec vmid notes := by
  obtain ⟨text, parsed⟩ := spec.parsed
  obtain ⟨range, top⟩ := parse_range parsed
  unfold choose at ok
  split at ok
  next => cases ok
  next found =>
    obtain ⟨text, described, same⟩ := map_ok ok
    cases same
    have inside := (allocateLowest_ok range found).1
    refine ⟨inside, ?_⟩
    have names := describe_names described
    rw [VmidPattern.contains, Bool.and_eq_true, decide_eq_true_iff, decide_eq_true_iff] at inside
    rwa [Nat.toUInt64, UInt64.toNat_ofNat', Nat.mod_eq_of_lt (by unfold u64Max at top; omega)] at names

end Choice

section Runs
variable {w : Writer} {spec : Spec} {s t : World} {a : Act} {c : Nat} {call : Call}

/-- The undecided requests of a call. -/
def World.asked (s : World) (c : Nat) : List Request := s.requests.filter fun request => request.call = c

/-- What there is of a call at each point: its request, or the container made of it. -/
inductive Own (w : Writer) (spec : Spec) : Pc → List Container → List Request → Prop
  | listing {attempt : Nat} {occupied : List Nat} : Own w spec (.listing attempt occupied) [] []
  | ready {attempt : Nat} {occupied : List Nat} : Own w spec (.ready attempt occupied) [] []
  | asked {attempt : Nat} {occupied : List Nat} {request : Request} (fits : Fits w spec request.vmid request.notes) :
      Own w spec (.sent attempt occupied request.vmid) [] [request]
  | created {attempt : Nat} {occupied : List Nat} {container : Container}
      (fits : Fits w spec container.vmid container.notes) :
      Own w spec (.sent attempt occupied container.vmid) [container] []
  | waiting {container : Container} (fits : Fits w spec container.vmid container.notes) :
      Own w spec (.waiting container.vmid) [container] []
  | returned {container : Container} (fits : Fits w spec container.vmid container.notes) :
      Own w spec (.returned (.ok container.vmid)) [container] []
  | failed {error : Text} {mine : List Container} {asked : List Request} (few : mine.length + asked.length ≤ 1) :
      Own w spec (.returned (.error error)) mine asked

/-- A call goes on only after refusals. -/
structure Logged (call : Call) : Prop where
  final : Final (retries call.spec.kind) call.log
  refused : (∀ result, call.pc ≠ .returned result) →
    ∀ error, Event.failed error ∈ call.log → retries call.spec.kind error = true

structure Inv (w : Writer) (s : World) : Prop where
  distinct : (s.containers.map Container.vmid).Nodup
  unstarted : ∀ c, s.calls c = none → s.mine c = [] ∧ s.asked c = []
  own : ∀ c call, s.calls c = some call → Own w call.spec call.pc (s.mine c) (s.asked c)
  logged : ∀ c call, s.calls c = some call → Logged call

theorem Own.length_le {pc : Pc} {mine : List Container} {asked : List Request} (own : Own w spec pc mine asked) :
    mine.length + asked.length ≤ 1 := by
  cases own with
  | failed few => exact few
  | listing | ready => exact Nat.zero_le _
  | asked | created | waiting | returned => exact Nat.le_refl _

/-- A step that concerns one call. -/
theorem Inv.update (inv : Inv w s) (distinct : (t.containers.map Container.vmid).Nodup) (here : t.calls c = some call)
    (others : ∀ d, d ≠ c → t.calls d = s.calls d ∧ t.mine d = s.mine d ∧ t.asked d = s.asked d)
    (own : Own w call.spec call.pc (t.mine c) (t.asked c)) (logged : Logged call) : Inv w t := by
  refine ⟨distinct, fun d none => ?_, fun d other found => ?_, fun d other found => ?_⟩
  · by_cases same : d = c
    · rw [same, here] at none
      cases none
    · obtain ⟨calls, mine, asked⟩ := others d same
      rw [mine, asked]
      exact inv.unstarted d (calls ▸ none)
  · by_cases same : d = c
    · subst same
      rw [here, Option.some.injEq] at found
      exact found ▸ own
    · obtain ⟨calls, mine, asked⟩ := others d same
      rw [mine, asked]
      exact inv.own d other (calls ▸ found)
  · by_cases same : d = c
    · subst same
      rw [here, Option.some.injEq] at found
      exact found ▸ logged
    · exact inv.logged d other ((others d same).1 ▸ found)

theorem set_self : (s.set c call).calls c = some call := if_pos rfl

theorem set_other {d : Nat} (different : d ≠ c) : (s.set c call).calls d = s.calls d := if_neg different

/-- A step of a call alone. -/
theorem Inv.set (inv : Inv w s) (own : Own w call.spec call.pc (s.mine c) (s.asked c)) (logged : Logged call) :
    Inv w (s.set c call) :=
  inv.update inv.distinct set_self (fun _ different => ⟨set_other different, rfl, rfl⟩) own logged

theorem mine_append (s : World) (container : Container) (requests : List Request) (d : Nat) :
    World.mine { s with containers := s.containers ++ [container], requests } d =
      s.mine d ++ if container.maker = some d then [container] else [] := by
  unfold World.mine
  rw [List.filter_append]
  by_cases maker : container.maker = some d <;> simp [maker]

theorem asked_append (s : World) (request : Request) (calls : Nat → Option Call) (d : Nat) :
    World.asked { s with requests := s.requests ++ [request], calls } d =
      s.asked d ++ if request.call = d then [request] else [] := by
  unfold World.asked
  rw [List.filter_append]
  by_cases own : request.call = d <;> simp [own]

theorem asked_remove (s : World) (request : Request) (containers : List Container) (calls : Nat → Option Call) (d : Nat) :
    World.asked ⟨containers, s.requests.filter (· ≠ request), calls⟩ d = (s.asked d).filter (· ≠ request) := by
  unfold World.asked
  rw [List.filter_filter, List.filter_filter]
  exact List.filter_congr fun other _ => Bool.and_comm _ _

theorem asked_remove_other {request : Request} {containers : List Container} {calls : Nat → Option Call} {d : Nat}
    (different : d ≠ request.call) :
    World.asked ⟨containers, s.requests.filter (· ≠ request), calls⟩ d = s.asked d := by
  rw [asked_remove, List.filter_eq_self]
  intro other member
  have own := (List.mem_filter.mp member).2
  refine decide_eq_true ?_
  rintro rfl
  exact different (of_decide_eq_true own).symm

section Logs
variable {pc pc' : Pc} {log : List Event}

/-- A call that has not returned has got refusals only, and goes on with the same log. -/
theorem Logged.goes (logged : Logged ⟨spec, pc, log⟩) (goesOn : ∀ result, pc ≠ .returned result) :
    Logged ⟨spec, pc', log⟩ := ⟨logged.final, fun _ => logged.refused goesOn⟩

theorem Logged.submits (logged : Logged ⟨spec, pc, log⟩) (goesOn : ∀ result, pc ≠ .returned result) (vmid : Nat) :
    Logged ⟨spec, pc', log ++ [.submitted vmid]⟩ := by
  refine ⟨List.pairwise_append.mpr ⟨logged.final, List.pairwise_singleton _ _, ?_⟩, fun _ error member => ?_⟩
  · rintro earlier member _ _ error _ rfl _
    exact logged.refused goesOn error member
  · rcases List.mem_append.mp member with before | now
    · exact logged.refused goesOn error before
    · cases List.mem_singleton.mp now

theorem Logged.fails {error : PveError} (logged : Logged ⟨spec, pc, log⟩) (goesOn : ∀ result, pc ≠ .returned result)
    (refused : (∀ result, pc' ≠ .returned result) → retries spec.kind error = true) :
    Logged ⟨spec, pc', log ++ [.failed error]⟩ := by
  refine ⟨List.pairwise_append.mpr ⟨logged.final, List.pairwise_singleton _ _, ?_⟩, fun later other member => ?_⟩
  · rintro earlier _ last now _ _ _ rfl
    cases List.mem_singleton.mp now
  · rcases List.mem_append.mp member with before | now
    · exact logged.refused goesOn other before
    · cases List.mem_singleton.mp now
      exact refused later

end Logs

section Errors
variable {attempt vmid : Nat} {occupied : List Nat} {error : PveError}

/-- A call that goes on after an error looks at a listing again. -/
theorem afterError_cases (kind : Kind) (attempt : Nat) (occupied : List Nat) (vmid : Nat) (error : PveError) :
    (retries kind error = true ∧
      ∃ attempt' occupied', afterError kind attempt occupied vmid error = .listing attempt' occupied') ∨
      ∃ text, afterError kind attempt occupied vmid error = .returned (.error text) := by
  unfold afterError retries
  cases kind with
  | create =>
    dsimp only
    split
    next again => exact .inl ⟨(Bool.and_eq_true_iff.mp again).1, _, _, rfl⟩
    next => exact .inr ⟨_, rfl⟩
  | clone =>
    dsimp only
    split
    next again => exact .inl ⟨again, _, _, rfl⟩
    next => exact .inr ⟨_, rfl⟩

theorem own_afterError (kind : Kind) : Own w spec (afterError kind attempt occupied vmid error) [] [] := by
  rcases afterError_cases kind attempt occupied vmid error with ⟨_, _, _, again⟩ | ⟨_, ends⟩
  · rw [again]
    exact .listing
  · rw [ends]
    exact .failed (Nat.zero_le _)

theorem refused_of_goesOn {kind : Kind}
    (goesOn : ∀ result, afterError kind attempt occupied vmid error ≠ .returned result) : retries kind error = true := by
  rcases afterError_cases kind attempt occupied vmid error with ⟨retried, _⟩ | ⟨_, ends⟩
  · exact retried
  · exact absurd ends (goesOn _)

theorem afterError_final {kind : Kind} (final : retries kind error = false) :
    ∃ text, afterError kind attempt occupied vmid error = .returned (.error text) := by
  rcases afterError_cases kind attempt occupied vmid error with ⟨retried, _⟩ | ends
  · rw [final] at retried
    cases retried
  · exact ends

end Errors

section Actions
variable {log : List Event} {attempt vmid : Nat} {occupied : List Nat}

theorem inv_listed (inv : Inv w s) (found : s.calls c = some ⟨spec, .listing attempt occupied, log⟩) {next : Pc}
    (goes : (∃ attempt' occupied', next = .ready attempt' occupied') ∨ ∃ text, next = .returned (.error text)) :
    Inv w (s.set c ⟨spec, next, log⟩) := by
  have own := inv.own c _ found
  refine inv.set ?_ ((inv.logged c _ found).goes fun _ => Pc.noConfusion)
  dsimp only at own ⊢
  rcases goes with ⟨_, _, rfl⟩ | ⟨_, rfl⟩
  · generalize s.mine c = mine, s.asked c = asked at own
    cases own
    exact .ready
  · exact .failed own.length_le

theorem inv_submits (inv : Inv w s) (found : s.calls c = some ⟨spec, .ready attempt occupied, log⟩) {notes : Text}
    (chosen : choose w spec occupied = .ok (vmid, notes)) :
    Inv w { s.set c ⟨spec, .sent attempt occupied vmid, log ++ [.submitted vmid]⟩ with
      requests := s.requests ++ [⟨c, vmid, notes⟩] } := by
  have own := inv.own c _ found
  refine inv.update inv.distinct set_self (fun d different => ⟨set_other different, rfl, ?_⟩) ?_
    ((inv.logged c _ found).submits (fun _ => Pc.noConfusion) vmid)
  · exact (asked_append s _ _ d).trans (by rw [if_neg different.symm, List.append_nil])
  · have asks : World.asked { s with
        requests := s.requests ++ [⟨c, vmid, notes⟩]
        calls := (s.set c ⟨spec, .sent attempt occupied vmid, log ++ [.submitted vmid]⟩).calls } c =
        s.asked c ++ [⟨c, vmid, notes⟩] := by
      rw [asked_append, if_pos rfl]
    refine asks ▸ ?_
    show Own w spec (.sent attempt occupied vmid) (s.mine c) _
    dsimp only at own
    generalize s.mine c = mine, s.asked c = asked at own
    cases own
    exact @Own.asked w spec attempt occupied ⟨c, vmid, notes⟩ (choose_fits chosen)

theorem mem_asked {request : Request} (pending : request ∈ s.requests) : request ∈ s.asked request.call :=
  List.mem_filter.mpr ⟨pending, decide_eq_true rfl⟩

theorem remove_self (request : Request) : [request].filter (· ≠ request) = [] := by simp

theorem inv_accepts (inv : Inv w s) {request : Request} (pending : request ∈ s.requests)
    (free : s.free request.vmid = true) : Inv w { s with
      containers := s.containers ++ [⟨request.vmid, request.notes, some request.call⟩]
      requests := s.requests.filter (· ≠ request) } := by
  have asked := mem_asked pending
  have distinct : ((s.containers ++ [(⟨request.vmid, request.notes, some request.call⟩ : Container)]).map
      Container.vmid).Nodup := by
    rw [List.map_append]
    refine inv.distinct.append (List.nodup_singleton _) (List.disjoint_singleton.mpr fun member => ?_)
    obtain ⟨container, there, same⟩ := List.mem_map.mp member
    exact absurd same (of_decide_eq_true (List.all_eq_true.mp free container there))
  cases found : s.calls request.call with
  | none =>
    rw [(inv.unstarted _ found).2] at asked
    cases asked
  | some call =>
    refine inv.update distinct found (fun d different => ⟨rfl, ?_, asked_remove_other different⟩) ?_ (inv.logged _ _ found)
    · rw [mine_append, if_neg (fun same => different (Option.some.inj same).symm), List.append_nil]
    · rw [mine_append, if_pos rfl, asked_remove]
      have own := inv.own _ _ found
      generalize s.mine request.call = mine, s.asked request.call = undecided at own asked
      generalize call.pc = pc at own
      cases own with
      | asked fits =>
        obtain rfl := List.mem_singleton.mp asked
        rw [remove_self]
        exact @Own.created w call.spec _ _ ⟨request.vmid, request.notes, some request.call⟩ fits
      | failed few =>
        have some := List.length_pos_of_mem asked
        obtain rfl : mine = [] := List.eq_nil_of_length_eq_zero (by omega)
        obtain ⟨only, rfl⟩ := List.length_eq_one_iff.mp (show undecided.length = 1 by omega)
        obtain rfl := List.mem_singleton.mp asked
        rw [remove_self]
        exact .failed (Nat.le_refl _)
      | listing | ready | created | waiting | returned => cases asked

theorem inv_answers (inv : Inv w s) (found : s.calls c = some ⟨spec, .sent attempt occupied vmid, log⟩)
    (made : s.containers.any (fun container => container.maker = some c && container.vmid = vmid) = true) {next : Pc}
    (goes : next = .returned (.ok vmid) ∨ next = .waiting vmid) : Inv w (s.set c ⟨spec, next, log⟩) := by
  obtain ⟨container, there, matched⟩ := List.any_eq_true.mp made
  rw [Bool.and_eq_true, decide_eq_true_iff, decide_eq_true_iff] at matched
  have mine : container ∈ s.mine c := List.mem_filter.mpr ⟨there, decide_eq_true matched.1⟩
  have own := inv.own c _ found
  refine inv.set ?_ ((inv.logged c _ found).goes fun _ => Pc.noConfusion)
  dsimp only at own ⊢
  generalize s.mine c = mine', s.asked c = asked at own mine
  cases own with
  | asked => cases mine
  | created fits =>
    rcases goes with rfl | rfl
    · exact .returned fits
    · exact .waiting fits

theorem inv_refuses (inv : Inv w s) {request : Request} {error : PveError}
    (found : s.calls request.call = some ⟨spec, .sent attempt occupied request.vmid, log⟩)
    (pending : request ∈ s.requests) : Inv w ⟨s.containers, s.requests.filter (· ≠ request),
      (s.set request.call (Call.fails ⟨spec, .sent attempt occupied request.vmid, log⟩ attempt occupied request.vmid
        error)).calls⟩ := by
  have asked := mem_asked pending
  have own := inv.own _ _ found
  refine inv.update inv.distinct set_self (fun d different => ⟨set_other different, rfl, asked_remove_other different⟩) ?_
    ((inv.logged _ _ found).fails (fun _ => Pc.noConfusion) refused_of_goesOn)
  rw [asked_remove]
  show Own w spec (afterError spec.kind attempt occupied request.vmid error) (s.mine request.call) _
  dsimp only at own
  generalize s.mine request.call = mine, s.asked request.call = undecided at own asked
  generalize request.vmid = vmid at own
  cases own with
  | asked =>
    obtain rfl := List.mem_singleton.mp asked
    rw [remove_self]
    exact own_afterError spec.kind
  | created => cases asked

theorem inv_fails (inv : Inv w s) {error : PveError}
    (found : s.calls c = some ⟨spec, .sent attempt occupied vmid, log⟩) (final : retries spec.kind error = false) :
    Inv w (s.set c (Call.fails ⟨spec, .sent attempt occupied vmid, log⟩ attempt occupied vmid error)) := by
  refine inv.set ?_ ((inv.logged c _ found).fails (fun _ => Pc.noConfusion) refused_of_goesOn)
  obtain ⟨text, ends⟩ := @afterError_final attempt vmid occupied error spec.kind final
  show Own w spec (afterError spec.kind attempt occupied vmid error) _ _
  rw [ends]
  exact .failed (inv.own c _ found).length_le

theorem inv_ends (inv : Inv w s) (found : s.calls c = some ⟨spec, .waiting vmid, log⟩) {next : Pc}
    (goes : next = .returned (.ok vmid) ∨ ∃ text, next = .returned (.error text)) :
    Inv w (s.set c ⟨spec, next, log⟩) := by
  have own := inv.own c _ found
  refine inv.set ?_ ((inv.logged c _ found).goes fun _ => Pc.noConfusion)
  dsimp only at own ⊢
  rcases goes with rfl | ⟨_, rfl⟩
  · generalize s.mine c = mine, s.asked c = asked at own
    cases own with
    | waiting fits => exact .returned fits
  · exact .failed own.length_le

theorem inv_foreign (inv : Inv w s) {notes : Text} (free : s.free vmid = true) :
    Inv w { s with containers := s.containers ++ [⟨vmid, notes, none⟩] } := by
  have mine (d : Nat) : World.mine { s with containers := s.containers ++ [⟨vmid, notes, none⟩] } d = s.mine d := by
    rw [mine_append, if_neg (fun same => nomatch same), List.append_nil]
  refine ⟨?_, fun d none => ?_, fun d call found => ?_, inv.logged⟩
  · rw [List.map_append]
    refine inv.distinct.append (List.nodup_singleton _) (List.disjoint_singleton.mpr fun member => ?_)
    obtain ⟨container, there, same⟩ := List.mem_map.mp member
    exact absurd same (of_decide_eq_true (List.all_eq_true.mp free container there))
  · rw [mine]
    exact inv.unstarted d none
  · rw [mine]
    exact inv.own d call found

theorem inv_step (inv : Inv w s) (taken : step w retries s a = some t) : Inv w t := by
  cases a with
  | start c spec =>
    simp only [step] at taken
    split at taken
    next => cases taken
    next none =>
      cases taken
      obtain ⟨mine, asked⟩ := inv.unstarted c none
      refine inv.set ?_ ⟨List.Pairwise.nil, fun _ _ member => nomatch member⟩
      rw [mine, asked]
      exact .listing
  | list c found =>
    simp only [step] at taken
    split at taken
    next there => cases taken; exact inv_listed inv there (.inl ⟨_, _, rfl⟩)
    next => cases taken
  | listFails c error =>
    simp only [step] at taken
    split at taken
    next there => cases taken; exact inv_listed inv there (.inr ⟨_, rfl⟩)
    next => cases taken
  | deadline c =>
    simp only [step] at taken
    split at taken
    next there =>
      split at taken
      next => cases taken; exact inv_listed inv there (.inr ⟨_, rfl⟩)
      next => cases taken
    next => cases taken
  | submit c =>
    simp only [step] at taken
    split at taken
    next spec attempt occupied log there =>
      split at taken
      next =>
        cases taken
        refine inv.set (.failed (inv.own c _ there).length_le) ((inv.logged c _ there).goes fun _ => Pc.noConfusion)
      next chosen => cases taken; exact inv_submits inv there chosen
    next => cases taken
  | accept request =>
    simp only [step] at taken
    split at taken
    next can => cases taken; exact inv_accepts inv can.1 can.2
    next => cases taken
  | answer c =>
    simp only [step] at taken
    split at taken
    next there =>
      split at taken
      next made =>
        split at taken
        next => cases taken; exact inv_answers inv there made (.inl rfl)
        next => cases taken; exact inv_answers inv there made (.inr rfl)
      next => cases taken
    next => cases taken
  | refuse request error =>
    simp only [step] at taken
    split at taken
    next there =>
      split at taken
      next can =>
        obtain ⟨pending, rfl, _⟩ := can
        cases taken
        exact inv_refuses inv there pending
      next => cases taken
    next => cases taken
  | fail c error =>
    simp only [step] at taken
    split at taken
    next there =>
      split at taken
      next final => cases taken; exact inv_fails inv there final
      next => cases taken
    next => cases taken
  | taskEnds c failed =>
    simp only [step] at taken
    split at taken
    next there =>
      split at taken
      next => cases taken; exact inv_ends inv there (.inr ⟨_, rfl⟩)
      next => cases taken; exact inv_ends inv there (.inl rfl)
    next => cases taken
  | foreign vmid notes =>
    simp only [step] at taken
    split at taken
    next free => cases taken; exact inv_foreign inv free
    next => cases taken

end Actions

theorem initial_inv (initial : Initial s) : Inv w s where
  distinct := initial.distinct
  unstarted c _ := by
    refine ⟨List.filter_eq_nil_iff.mpr fun container there => ?_, ?_⟩
    · rw [initial.foreign container there]
      exact Bool.false_ne_true
    · rw [World.asked, initial.requests]
      rfl
  own c call found := nomatch (initial.calls c).symm.trans found
  logged c call found := nomatch (initial.calls c).symm.trans found

theorem returned_own (inv : Inv w s) {vmid : Nat} (found : s.calls c = some call) (ok : call.pc = .returned (.ok vmid)) :
    ∃ container ∈ s.containers, container.maker = some c ∧ container.vmid = vmid ∧
      Fits w call.spec vmid container.notes := by
  have own := inv.own c call found
  rw [ok] at own
  generalize mineIs : s.mine c = mine at own
  generalize s.asked c = asked at own
  cases own with
  | @returned container fits =>
    have member : container ∈ s.mine c := mineIs ▸ List.mem_cons_self
    obtain ⟨there, maker⟩ := List.mem_filter.mp member
    exact ⟨container, there, of_decide_eq_true maker, rfl, fits⟩

end Runs

/-- Whatever the listings show, each call creates one container at most and returns its number, no number is
returned twice, and no call asks again after an error that is no refusal. -/
theorem creations_sound (w : Writer) (s : World) (reached : (system w retries).Reachable s) : Sound w retries s := by
  have inv : Inv w s := reached.invariant (fun _ initial => initial_inv initial)
    (fun _ _ _ inv taken => inv_step inv taken)
  refine ⟨fun c => ?_, fun c call vmid found ok => ?_, fun c d first second vmid vmid' one two ok ok' different => ?_,
    fun c call found => (inv.logged c call found).final⟩
  · cases found : s.calls c with
    | none =>
      rw [(inv.unstarted c found).1]
      exact Nat.zero_le _
    | some call =>
      have few := (inv.own c call found).length_le
      omega
  · obtain ⟨container, there, maker, same, inside, names⟩ := returned_own inv found ok
    exact ⟨container, there, maker, same, inside, names⟩
  · rintro rfl
    obtain ⟨container, there, maker, same, _⟩ := returned_own inv one ok
    obtain ⟨container', there', maker', same', _⟩ := returned_own inv two ok'
    have equal := List.inj_on_of_nodup_map inv.distinct there there' (same.trans same'.symm)
    rw [equal, maker'] at maker
    exact different (Option.some.inj maker).symm

def sampleWriter : Writer where
  codec := ⟨fun _ => .ok [1], fun _ => .error [], fun _ => .error [], fun _ => ['a'], fun _ => none⟩
  saved _ := .ok "{}".toList

def sampleBox : PboxId := ⟨"pbx_0a1b2c3d".toList, by decide, by decide, List.all_eq_true.mp (by decide)⟩

def sampleCopy : SavedEnvironment :=
  ⟨true, "snap_1".toList, "base".toList, "pve".toList, 0, "pbx_00000000".toList, none, [], [], [], []⟩

/-- A call with the pattern `90xx`. -/
def sampleSpec (kind : Kind) (notes : Notes) : Spec :=
  ⟨kind, ⟨90, 2, 9000, 9099⟩, notes, "90xx".toList, by decide⟩

def newBox : Spec := sampleSpec .create (.created sampleBox "pve".toList "debian".toList)

def fullClone : Spec := sampleSpec .clone (.saved sampleCopy)

/-- A container of somebody else's, under a number of the pattern. -/
def sampleWorld : World := ⟨[⟨9001, [], none⟩], [], fun _ => none⟩

theorem sampleWorld_initial : Initial sampleWorld :=
  ⟨List.nodup_singleton _, fun _ member => List.mem_singleton.mp member ▸ rfl, rfl, fun _ => rfl⟩

/-- What a call sends. -/
def requestOf (c : Nat) (spec : Spec) (vmid : Nat) : Request :=
  ⟨c, vmid, ((describe sampleWriter vmid.toUInt64 spec.notes).toOption).getD []⟩

/-- Two calls want the same number. The one that PVE refuses looks again and takes the next that is free. -/
def racing : List Act :=
  [.start 0 newBox, .start 1 fullClone, .list 0 [9001], .list 1 [9001], .submit 0, .submit 1,
    .accept (requestOf 1 fullClone 9000), .refuse (requestOf 0 newBox 9000) (.http 409 "Conflict".toList []),
    .list 0 [9000, 9001], .submit 0, .accept (requestOf 0 newBox 9002), .answer 0, .answer 1, .taskEnds 1 none]

theorem racing_sound : ∃ s, (system sampleWriter retries).run sampleWorld racing = some s ∧
    s.containers.map Container.vmid = [9001, 9000, 9002] ∧ Sound sampleWriter retries s := by
  have runs : ((system sampleWriter retries).run sampleWorld racing).isSome = true := by decide
  have numbers : ((system sampleWriter retries).run sampleWorld racing).map (·.containers.map Container.vmid) =
      some [9001, 9000, 9002] := by decide
  obtain ⟨s, ends⟩ := Option.isSome_iff_exists.mp runs
  rw [ends, Option.map_some, Option.some.injEq] at numbers
  exact ⟨s, ends, numbers, creations_sound sampleWriter s (System.reachable_of_run (.start sampleWorld_initial) ends)⟩

def lockedDisk : PveError := .http 500 "Internal Server Error".toList "CT is locked (disk)".toList

/-- PVE answers the clone that the source is locked, and the call asks again. -/
def lockedRun : List Act :=
  [.start 0 fullClone, .list 0 [9001], .submit 0, .fail 0 lockedDisk, .list 0 [9001], .submit 0]

theorem locked_asks_again : ¬∀ (w : Writer) (s : World),
    (system w fun _ => isVmidConflict).Reachable s → Sound w (fun _ => isVmidConflict) s := by
  intro always
  have runs : ((system sampleWriter fun _ => isVmidConflict).run sampleWorld lockedRun).isSome = true := by decide
  obtain ⟨s, ends⟩ := Option.isSome_iff_exists.mp runs
  have sound := always sampleWriter s (System.reachable_of_run (.start sampleWorld_initial) ends)
  have last : s.calls 0 =
      some ⟨fullClone, .sent 0 [9001] 9000, [.submitted 9000, .failed lockedDisk, .submitted 9000]⟩ := by
    have after : ((system sampleWriter fun _ => isVmidConflict).run sampleWorld lockedRun).bind (·.calls 0) =
        some ⟨fullClone, .sent 0 [9001] 9000, [.submitted 9000, .failed lockedDisk, .submitted 9000]⟩ := rfl
    rwa [ends] at after
  have final := sound.final 0 _ last
  have after := List.pairwise_cons.mp (List.pairwise_cons.mp final).2
  have refused := after.1 (.submitted 9000) (by simp) lockedDisk 9000 rfl rfl
  exact absurd refused (by decide)

end Pbox.Cli.VmidRace
