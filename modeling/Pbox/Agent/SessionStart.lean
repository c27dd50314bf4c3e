import Pbox.Agent.Registry
import Mathlib.Logic.Function.Basic

/-! The start of a terminal session that nobody attaches to. Three tasks take part: the call, which waits on a
one-shot channel, the task that runs the PTY and reports on that channel whether it started, and the owner,
which takes the session out of the registry when the PTY task has ended. -/

namespace Pbox.Agent.SessionStart
open Pbox.Lib.Strings Pbox.Lib.Maps Pbox.Lib.Transition Pbox.Agent.Session Pbox.Agent.Registry

/-- How far `run_pty_command` has come for a session. While it is `failing` it has reported and not yet ended. -/
inductive Worker where
  | unspawned
  | starting
  | failing
  | running
  | over
  deriving DecidableEq

/-- The one-shot channel of a session. What comes for a session that `attach` has inserted is not waited for. -/
inductive Ready where
  | pending
  | sent (result : Except Status Unit)
  | dropped

/-- A call of `start`, with the session it has created. -/
inductive Call where
  | waiting (session : Nat)
  | returned (created : Option Nat) (result : Except Status Unit)
  | cancelled

structure Startup where
  registry : Registry
  workers : Nat → Worker
  ready : Nat → Ready
  calls : Nat → Option Call

inductive Act where
  | start (c : Nat) (request : ExecRequest)
  | registry (a : Registry.Action)
  | fails (session : Nat) (status : Status)
  | starts (session : Nat)
  | panics (session : Nat)
  | ends (session : Nat)
  | answer (c : Nat)
  | cancel (c : Nat)

/-- What the call makes of the channel. -/
def answerOf : Ready → Option (Except Status Unit)
  | .pending => none
  | .sent result => some result
  | .dropped => some (.error (.of .internal "terminal owner stopped during startup"))

/-- Whether the PTY task lets the registry take this step: the owner waits for it before the removal. -/
def permits (s : Startup) : Registry.Action → Prop
  | .start _ => False
  | .processEnds session | .remove session => s.workers session = .over
  | _ => True

instance (s : Startup) (a : Registry.Action) : Decidable (permits s a) := by
  cases a <;> unfold permits <;> infer_instance

def spawned (workers : Nat → Worker) : Registry.Action → Nat → Worker
  | .spawn session => Function.update workers session .starting
  | _ => workers

def step (s : Startup) : Act → Option Startup
  | .start c request =>
    match s.calls c with
    | some _ => none
    | none =>
      match prepare s.registry request true with
      | .error status => some { s with calls := Function.update s.calls c (some (.returned none (.error status))) }
      | .ok (after, session, _) =>
        some { s with registry := after, calls := Function.update s.calls c (some (.waiting session.id)) }
  | .registry a =>
    if permits s a then
      (Registry.step s.registry a).map fun registry => { s with registry, workers := spawned s.workers a }
    else none
  | .fails session status =>
    match s.workers session with
    | .starting =>
      some { s with
        workers := Function.update s.workers session .failing
        ready := Function.update s.ready session (.sent (.error status)) }
    | _ => none
  | .starts session =>
    match s.workers session with
    | .starting =>
      some { s with
        workers := Function.update s.workers session .running
        ready := Function.update s.ready session (.sent (.ok ())) }
    | _ => none
  | .panics session =>
    match s.workers session with
    | .starting =>
      some { s with
        workers := Function.update s.workers session .over
        ready := Function.update s.ready session .dropped }
    | _ => none
  | .ends session =>
    match s.workers session with
    | .failing | .running => some { s with workers := Function.update s.workers session .over }
    | _ => none
  | .answer c =>
    match s.calls c with
    | some (.waiting session) =>
      (answerOf (s.ready session)).map fun result =>
        { s with calls := Function.update s.calls c (some (.returned (some session) result)) }
    | _ => none
  | .cancel c =>
    match s.calls c with
    | some (.waiting _) => some { s with calls := Function.update s.calls c (some .cancelled) }
    | _ => none

def initial (slots : Nat) : Startup where
  registry := Registry.initial slots
  workers _ := .unspawned
  ready _ := .pending
  calls _ := none

def system (slots : Nat) : System Startup Act where
  init s := s = initial slots
  step := step

/-- A call has failed after it had created this session. -/
def Failed (s : Startup) (session : Nat) : Prop :=
  ∃ c status, s.calls c = some (.returned (some session) (.error status))

/-- No session of a failed call is registered, so another attempt meets at most a session of somebody else. -/
structure Cleared (s : Startup) : Prop where
  gone : ∀ id, Failed s id → ∀ name session, Assoc.find s.registry.names name = some session → session.id ≠ id
  retry : ∀ id, Failed s id → ∀ request message,
    prepare s.registry request true = .error ⟨.alreadyExists, message⟩ →
    ∃ first session, normalise request = .ok first ∧
      Assoc.find s.registry.names first.sessionName = some session ∧ session.id ≠ id

/-- A call takes a failure from its channel only when the owner has removed the session. -/
def Late (s : Startup) : Act → Prop
  | .answer c => ∀ session status, s.calls c = some (.waiting session) →
      answerOf (s.ready session) = some (.error status) →
      ∀ seat ∈ s.registry.seats, seat.session = session → seat.stage.live = false
  | _ => True

section Runs
variable {slots : Nat} {s t : Startup} {a : Act}

/-- The session that a call has created. -/
def Call.created : Call → Option Nat
  | .waiting session => some session
  | .returned created _ => created
  | .cancelled => none

structure Inv (slots : Nat) (s : Startup) : Prop where
  registry : Registry.Inv slots s.registry
  numbered : ∀ c call id, s.calls c = some call → call.created = some id → id < s.registry.next

theorem cleared_of_gone (gone : ∀ id, Failed s id → ∀ name session,
    Assoc.find s.registry.names name = some session → session.id ≠ id) : Cleared s := by
  refine ⟨gone, fun id failed request message refused => ?_⟩
  obtain ⟨first, session, normal, found⟩ := prepare_exists refused
  exact ⟨first, session, normal, found, gone id failed _ _ found⟩

/-- All that a step can do to the registry and the calls. -/
inductive Stepped (s : Startup) : Act → Startup → Prop
  | refused {c : Nat} {request : ExecRequest} {status : Status} : Stepped s (.start c request)
      { s with calls := Function.update s.calls c (some (.returned none (.error status))) }
  | created {c : Nat} {request : ExecRequest} {after : Registry} {session : Session} {created : Bool}
      (ok : prepare s.registry request true = .ok (after, session, created)) : Stepped s (.start c request)
      { s with registry := after, calls := Function.update s.calls c (some (.waiting session.id)) }
  | registry {a : Registry.Action} {registry : Registry} (taken : Registry.step s.registry a = some registry) :
      Stepped s (.registry a) { s with registry, workers := spawned s.workers a }
  | worked {a : Act} {workers : Nat → Worker} {ready : Nat → Ready} (other : ∀ c, a ≠ .answer c) :
      Stepped s a { s with workers, ready }
  | answered {c session : Nat} {result : Except Status Unit} (waits : s.calls c = some (.waiting session))
      (got : answerOf (s.ready session) = some result) : Stepped s (.answer c)
      { s with calls := Function.update s.calls c (some (.returned (some session) result)) }
  | cancelled {c : Nat} : Stepped s (.cancel c) { s with calls := Function.update s.calls c (some .cancelled) }

theorem stepped (taken : step s a = some t) : Stepped s a t := by
  cases a with
  | start c request =>
    simp only [step] at taken
    split at taken
    next => cases taken
    next =>
      split at taken
      next => cases taken; exact .refused
      next ok => cases taken; exact .created ok
  | registry a =>
    simp only [step] at taken
    split at taken
    next =>
      obtain ⟨registry, moved, rfl⟩ := Option.map_eq_some_iff.mp taken
      exact .registry moved
    next => cases taken
  | fails | starts | panics | ends =>
    simp only [step] at taken
    split at taken
    all_goals cases taken
    all_goals exact .worked (fun _ => Act.noConfusion)
  | answer c =>
    simp only [step] at taken
    split at taken
    next session waits =>
      obtain ⟨result, got, rfl⟩ := Option.map_eq_some_iff.mp taken
      exact .answered waits got
    next => cases taken
  | cancel c =>
    simp only [step] at taken
    split at taken
    next => cases taken; exact .cancelled
    next => cases taken

theorem inv_step (inv : Inv slots s) (taken : step s a = some t) : Inv slots t := by
  -- the numbers of the other calls stay below a bound that only grows
  have others {c c' id : Nat} {call call' : Call} {next : Nat} (grows : s.registry.next ≤ next)
      (own : call.created = some id → id < next)
      (found : Function.update s.calls c (some call) c' = some call') (is : call'.created = some id) : id < next := by
    by_cases same : c' = c
    · subst same
      rw [Function.update_self, Option.some.injEq] at found
      exact own (found ▸ is)
    · rw [Function.update_of_ne same] at found
      exact Nat.lt_of_lt_of_le (inv.numbered c' call' id found is) grows
  cases stepped taken with
  | refused => exact ⟨inv.registry, fun c' call id => others (Nat.le_refl _) fun is => nomatch is⟩
  | @created c request after session created ok =>
    obtain ⟨called, own, next⟩ := prepare_create ok
    refine ⟨called ▸ inv_call inv.registry request true, fun c' call id => others ?_ ?_⟩
    · show s.registry.next ≤ after.next
      omega
    · intro is
      show id < after.next
      have same : session.id = id := Option.some.inj is
      omega
  | registry moved =>
    exact ⟨Registry.inv_step inv.registry moved, fun c call id found is =>
      Nat.lt_of_lt_of_le (inv.numbered c call id found is) (next_le moved)⟩
  | worked => exact ⟨inv.registry, inv.numbered⟩
  | @answered c session result waits =>
    exact ⟨inv.registry, fun c' call id => others (Nat.le_refl _) fun is =>
      inv.numbered c _ id waits is⟩
  | cancelled => exact ⟨inv.registry, fun c' call id => others (Nat.le_refl _) fun is => nomatch is⟩

/-- A step keeps the failed calls' sessions out of the registry exactly when no call fails too early. -/
theorem cleared_iff_late (inv : Inv slots s) (cleared : Cleared s) (taken : step s a = some t) :
    Cleared t ↔ Late s a := by
  -- a step by which no other call fails
  have keeps (failed : ∀ id, Failed t id → Failed s id)
      (found : ∀ name session, Assoc.find t.registry.names name = some session →
        Assoc.find s.registry.names name = some session ∨ session.id = s.registry.next) : Cleared t := by
    refine cleared_of_gone fun id fails name session there => ?_
    have before := failed id fails
    rcases found name session there with old | new
    · exact cleared.gone id before name session old
    · obtain ⟨c, status, returned⟩ := before
      have small := inv.numbered c _ id returned rfl
      omega
  have unchanged {names : Assoc Text Session} : ∀ name session, Assoc.find names name = some session →
      Assoc.find names name = some session ∨ session.id = s.registry.next := fun _ _ there => .inl there
  have updated {c id : Nat} {call : Call} (own : ∀ status, call ≠ .returned (some id) (.error status))
      (fails : ∃ c' status, Function.update s.calls c (some call) c' = some (.returned (some id) (.error status))) :
      Failed s id := by
    obtain ⟨c', status, returned⟩ := fails
    by_cases same : c' = c
    · subst same
      rw [Function.update_self, Option.some.injEq] at returned
      exact absurd returned (own status)
    · rw [Function.update_of_ne same] at returned
      exact ⟨c', status, returned⟩
  cases stepped taken with
  | refused =>
    exact ⟨fun _ => trivial, fun _ => keeps (fun id => updated (fun _ same => by cases same)) unchanged⟩
  | @created c request after session created ok =>
    obtain ⟨rfl, _, _⟩ := prepare_create ok
    refine ⟨fun _ => trivial, fun _ => keeps (fun id => updated (fun _ same => by cases same)) ?_⟩
    exact fun name session there => @found_before s.registry _ (.start request) name session rfl there
  | registry moved =>
    exact ⟨fun _ => trivial, fun _ => keeps (fun _ fails => fails) fun _ _ there => found_before moved there⟩
  | worked other =>
    refine ⟨fun _ => ?_, fun _ => keeps (fun _ fails => fails) unchanged⟩
    cases a with
    | answer c => exact absurd rfl (other c)
    | _ => trivial
  | cancelled =>
    exact ⟨fun _ => trivial, fun _ => keeps (fun id => updated (fun _ same => by cases same)) unchanged⟩
  | @answered c session result waits got =>
    constructor
    · rintro after session' status waits' failed seat member rfl
      rw [waits, Option.some.injEq, Call.waiting.injEq] at waits'
      rw [waits', failed, Option.some.injEq] at got
      by_contra live
      obtain ⟨registered, found, same⟩ := inv.registry.held seat member (Bool.not_eq_false _ ▸ live)
      refine after.gone seat.session ⟨c, status, ?_⟩ seat.name registered found same
      show Function.update s.calls c _ c = _
      rw [Function.update_self, ← got, waits']
    · intro late
      refine cleared_of_gone fun id fails name registered found same => ?_
      obtain ⟨c', status, returned⟩ := fails
      by_cases own : c' = c
      · subst own
        have is : Call.returned (some session) result = .returned (some id) (.error status) :=
          Option.some.inj ((Function.update_self c' _ s.calls).symm.trans returned)
        obtain ⟨is, failed⟩ := Call.returned.inj is
        obtain ⟨seat, member, held, _, live⟩ := inv.registry.owned name registered found
        have dead := late session status waits (failed ▸ got) seat member
          (held.trans (same.trans (Option.some.inj is).symm))
        rw [dead] at live
        cases live
      · have before : Failed s id := ⟨c', status, (Function.update_of_ne own _ s.calls).symm.trans returned⟩
        exact cleared.gone id before name registered found same

end Runs

theorem initial_inv (slots : Nat) : Inv slots (initial slots) :=
  ⟨Registry.initial_inv slots, fun _ _ _ found => nomatch found⟩

theorem initial_cleared (slots : Nat) : Cleared (initial slots) :=
  cleared_of_gone fun _ ⟨_, _, returned⟩ => nomatch returned

/-- What `spawn` says of a program that is not there. -/
def missing : Status := .of .internal "spawn PTY command: No such file or directory (os error 2)"

/-- The owner is done before the call looks. -/
def lateAnswer : List Act :=
  [.start 0 shell, .registry (.spawn 0), .fails 0 missing, .ends 0, .registry (.processEnds 0), .registry (.remove 0),
    .answer 0, .start 1 shell]

theorem lateAnswer_runs : ((system 2).run (initial 2) lateAnswer).isSome = true := by decide

/-- `Late`, as a check. -/
def isLate (s : Startup) : Act → Bool
  | .answer c =>
    match s.calls c with
    | some (.waiting session) => s.registry.seats.all fun seat => seat.session ≠ session || !seat.stage.live
    | _ => true
  | _ => true

theorem late_of_isLate (s : Startup) (a : Act) (checked : isLate s a = true) : Late s a := by
  cases a with
  | answer c =>
    intro session status waits _ seat member same
    simp only [isLate, waits, List.all_eq_true, Bool.or_eq_true, decide_eq_true_eq, Bool.not_eq_true'] at checked
    exact (checked seat member).resolve_left (not_not_intro same)
  | _ => trivial

/-- The call looks first, and another call for the same name is refused. -/
def earlyAnswer : List Act := [.start 0 shell, .registry (.spawn 0), .fails 0 missing, .answer 0, .start 1 shell]

theorem earlyAnswer_runs : ((system 2).run (initial 2) earlyAnswer).isSome = true := by decide

end Pbox.Agent.SessionStart
