import Pbox.Lib.Transition

/-! Taking a snapshot of a source box and repairing the source: `create`, `restore_source` and
`snapshot repair-source`, one call to PVE or to the box's agent a step. A call is answered, or it
fails after part or all of its effect, or the command dies in it. What was there before the command
is known to later ones only by `/etc/pbox-snapshot/prior-state` in the source. -/

namespace Pbox.Cli.SnapshotRepair
open Pbox.Lib.Transition

/-- The directory `/etc/pbox-snapshot` of the source and the file `prior-state` in it. -/
inductive Stage where
  | absent
  | unrecorded
  | garbled
  | recorded (running : Bool)
  deriving DecidableEq

structure Source where
  running : Bool
  stage : Stage
  deriving DecidableEq

inductive CreatePc where
  | examining
  | starting
  | connecting
  | marking
  | preparing
  | stopping
  | verifying
  | copying
  | undoing
  deriving DecidableEq

/-- `restore_source`; the last step knows whether the cleanup succeeded. -/
inductive RestorePc where
  | checking
  | starting
  | connecting
  | cleaning
  | stopping (cleaned : Bool)
  deriving DecidableEq

inductive RepairPc where
  | examining
  | starting
  | connecting
  | recovering
  deriving DecidableEq

/-- Which command has called `restore_source`. -/
inductive Caller where
  | create
  | repair
  deriving DecidableEq

inductive Process where
  | create (pc : CreatePc) (wasRunning : Bool)
  | repair (pc : RepairPc) (wasRunning : Bool)
  | restore (caller : Caller) (running : Bool) (pc : RestorePc)
  | ended
  | repaired
  deriving DecidableEq

/-- The calls, as far as they differ in what they do to the source. `start` and `stop` include the
wait for their task, and `work` is anything that leaves the source's state and record alone. -/
inductive Call where
  | look
  | reach
  | work
  | read
  | start
  | stop
  | mark (wasRunning : Bool)
  | clean

def Process.call : Process → Option Call
  | .create .examining _ => some .look
  | .create .starting _ => some .start
  | .create .connecting _ => some .reach
  | .create .marking wasRunning => some (.mark wasRunning)
  | .create .preparing _ => some .work
  | .create .stopping _ => some .stop
  | .create .verifying _ => some .look
  | .create .copying _ => some .work
  | .create .undoing _ => some .stop
  | .repair .examining _ => some .look
  | .repair .starting _ => some .start
  | .repair .connecting _ => some .reach
  | .repair .recovering _ => some .read
  | .restore _ _ .checking => some .look
  | .restore _ _ .starting => some .start
  | .restore _ _ .connecting => some .reach
  | .restore _ _ .cleaning => some .clean
  | .restore _ _ (.stopping _) => some .stop
  | .ended | .repaired => none

/-- The source after a call that succeeds. -/
def Call.answer (source : Source) : Call → Option Source
  | .look | .work => some source
  | .reach => if source.running then some source else none
  | .read => if source.stage = .garbled then none else some source
  | .start => some { source with running := true }
  | .stop => some { source with running := false }
  | .mark wasRunning => if source.stage = .absent then some { source with stage := .recorded wasRunning } else none
  | .clean => some { source with stage := .absent }

/-- The source after a call that fails or is never answered: the scripts for the record may stop
after the `mkdir`, inside the write, or inside the `rm -rf`. -/
def Call.effects (source : Source) : Call → List Source
  | .look | .reach | .work | .read => [source]
  | .start => [source, { source with running := true }]
  | .stop => [source, { source with running := false }]
  | .mark wasRunning =>
    if source.stage = .absent then
      [source, { source with stage := .unrecorded }, { source with stage := .garbled },
        { source with stage := .recorded wasRunning }]
    else [source]
  | .clean =>
    if source.stage = .absent then [source]
    else [source, { source with stage := .unrecorded }, { source with stage := .absent }]

/-- What `restore_source` returns to. -/
def returns (caller : Caller) (ok : Bool) : Process :=
  match caller with
  | .create => .ended
  | .repair => if ok then .repaired else .ended

/-- The end of `restore_source`, which stops the source also after a failed cleanup. -/
def afterCleaning (caller : Caller) (running cleaned : Bool) : Process :=
  if running then returns caller cleaned else .restore caller running (.stopping cleaned)

/-- What `repair-source` reads: the record, or else what it found the source doing. -/
def prior (source : Source) (wasRunning : Bool) : Bool :=
  match source.stage with
  | .recorded running => running
  | _ => wasRunning

/-- The next step after a call that succeeded on this source. -/
def Process.succeeded (source : Source) : Process → Process
  | .create .examining _ => .create (if source.running then .connecting else .starting) source.running
  | .create .starting wasRunning => .create .connecting wasRunning
  | .create .connecting wasRunning => .create .marking wasRunning
  | .create .marking wasRunning => .create .preparing wasRunning
  | .create .preparing wasRunning => .create .stopping wasRunning
  | .create .stopping wasRunning => .create .verifying wasRunning
  | .create .verifying wasRunning =>
    if source.running then .restore .create wasRunning .checking else .create .copying wasRunning
  | .create .copying wasRunning => .restore .create wasRunning .checking
  | .create .undoing _ => .ended
  | .repair .examining _ => .repair (if source.running then .connecting else .starting) source.running
  | .repair .starting wasRunning => .repair .connecting wasRunning
  | .repair .connecting wasRunning => .repair .recovering wasRunning
  | .repair .recovering wasRunning => .restore .repair (prior source wasRunning) .checking
  | .restore caller running .checking => .restore caller running (if source.running then .connecting else .starting)
  | .restore caller running .starting => .restore caller running .connecting
  | .restore caller running .connecting => .restore caller running .cleaning
  | .restore caller running .cleaning => afterCleaning caller running true
  | .restore caller _ (.stopping cleaned) => returns caller cleaned
  | .ended => .ended
  | .repaired => .repaired

/-- The next step after a call that failed. Only once it owns the record does `create` restore the
source; before, it stops what it has started. -/
def Process.failed : Process → Process
  | .create .connecting wasRunning | .create .marking wasRunning =>
    if wasRunning then .ended else .create .undoing wasRunning
  | .create .preparing wasRunning | .create .stopping wasRunning | .create .verifying wasRunning
  | .create .copying wasRunning => .restore .create wasRunning .checking
  | .restore caller running .connecting | .restore caller running .cleaning => afterCleaning caller running false
  | _ => .ended

/-- `wasRunning` is the source before `create` began, and `repairs` lists the source as each
`repair-source` found it, the last one first; no step reads them. -/
structure Machine where
  source : Source
  process : Process
  wasRunning : Bool
  repairs : List Source

inductive Action where
  | succeeds
  | fails (after : Source)
  | dies (after : Source)
  | repairs

def step (s : Machine) : Action → Option Machine
  | .succeeds =>
    (s.process.call.bind (Call.answer s.source)).map fun after =>
      { s with source := after, process := s.process.succeeded s.source }
  | .fails after =>
    if s.process.call.any fun call => after ∈ call.effects s.source then
      some { s with source := after, process := s.process.failed }
    else none
  | .dies after =>
    if s.process.call.any fun call => after ∈ call.effects s.source then
      some { s with source := after, process := .ended }
    else none
  | .repairs =>
    if s.process = .ended ∨ s.process = .repaired then
      some { s with process := .repair .examining false, repairs := s.source :: s.repairs }
    else none

def system : System Machine Action where
  init s := s.process = .create .examining false ∧ s.source.running = s.wasRunning ∧ s.repairs = []
  step := step

/-- What a successful repair should leave of the source. -/
structure Restored (s : Machine) : Prop where
  clean : s.source.stage = .absent
  running : s.source.running = s.wasRunning

/-- A repair can find out what the source was doing: the record says so, or there is none and the
source does not run on although it was stopped. -/
def Recoverable (wasRunning : Bool) (source : Source) : Prop :=
  match source.stage with
  | .recorded running => running = wasRunning
  | .garbled => True
  | .absent | .unrecorded => source.running = true → wasRunning = true

section Invariant

/-- A source that was running runs on until a record says that it did. -/
def Kept (wasRunning : Bool) (source : Source) : Prop :=
  wasRunning = true → (∀ running, source.stage ≠ .recorded running) → source.running = true

/-- What the last repair has found. -/
def Found (s : Machine) (property : Source → Prop) : Prop :=
  ∃ found earlier, s.repairs = found :: earlier ∧ property found

/-- The state that `restore_source` has been asked for. -/
def Intended (s : Machine) (running : Bool) : Caller → Prop
  | .create => running = s.wasRunning
  | .repair => Found s fun found => found.stage ≠ .garbled ∧ running = prior found found.running

/-- What holds at each place of `restore_source`. -/
def Restoring (source : Source) (running : Bool) : RestorePc → Prop
  | .checking | .starting => source.running = true ∨ source.stage = .recorded running
  | .connecting | .cleaning => source.running = true
  | .stopping cleaned => running = false ∧ (cleaned = true → source.stage = .absent)

/-- What holds at each place of the commands. -/
def Here (s : Machine) : Prop :=
  match s.process with
  | .create .examining _ => s.source.running = s.wasRunning
  | .create .starting wasRunning => wasRunning = false ∧ s.wasRunning = false
  | .create .connecting wasRunning | .create .marking wasRunning =>
    wasRunning = s.wasRunning ∧ s.source.running = true
  | .create .undoing _ => s.wasRunning = false
  | .create _ wasRunning => wasRunning = s.wasRunning ∧ s.source.stage = .recorded s.wasRunning
  | .repair .examining _ => Found s fun found => s.source = found
  | .repair .starting wasRunning => Found s fun found => s.source = found ∧ wasRunning = found.running
  | .repair _ wasRunning => Found s fun found =>
    s.source = { found with running := true } ∧ wasRunning = found.running
  | .restore caller running pc => Intended s running caller ∧ Restoring s.source running pc
  | .ended => True
  | .repaired => Found s fun found =>
    found.stage ≠ .garbled ∧ s.source.stage = .absent ∧ s.source.running = prior found found.running

/-- Every repair so far could find out what the source was doing. -/
def Met (s : Machine) : Prop := ∀ found ∈ s.repairs, Recoverable s.wasRunning found

structure Inv (s : Machine) : Prop where
  kept : Met s → Kept s.wasRunning s.source
  found : ∀ found earlier, s.repairs = found :: earlier →
    (∀ before ∈ earlier, Recoverable s.wasRunning before) → Kept s.wasRunning found
  here : Here s

variable {s t : Machine}

/-- What a repair reads is right exactly when the source is recoverable. -/
theorem prior_iff {wasRunning : Bool} {found : Source} (kept : Kept wasRunning found)
    (readable : found.stage ≠ .garbled) :
    prior found found.running = wasRunning ↔ Recoverable wasRunning found := by
  have unrecorded (none : ∀ running, found.stage ≠ .recorded running) :
      found.running = wasRunning ↔ (found.running = true → wasRunning = true) := by
    constructor
    · intro same running
      exact same ▸ running
    · intro resumed
      have kept := fun was => kept was none
      cases running : found.running <;> cases was : wasRunning <;> simp_all
  unfold prior Recoverable
  cases stage : found.stage with
  | recorded running => exact Iff.rfl
  | garbled => exact absurd stage readable
  | absent => exact unrecorded (by simp [stage])
  | unrecorded => exact unrecorded (by simp [stage])

/-- The last repair, if all of them could be right, works with what the source was doing. -/
theorem agreed (inv : Inv s) (met : Met s) {running : Bool}
    (found : Found s fun found => found.stage ≠ .garbled ∧ running = prior found found.running) :
    running = s.wasRunning := by
  obtain ⟨source, earlier, repairs, readable, rfl⟩ := found
  have before : ∀ before ∈ earlier, Recoverable s.wasRunning before := fun before member =>
    met before (by rw [repairs]; exact List.mem_cons_of_mem _ member)
  exact (prior_iff (inv.found source earlier repairs before) readable).mpr
    (met source (by rw [repairs]; exact List.mem_cons_self))

/-- The source is shut down only with a record, or when it was stopped before. -/
theorem stops (inv : Inv s) (met : Met s) (call : s.process.call = some .stop) :
    s.wasRunning = false ∨ s.source.stage = .recorded s.wasRunning := by
  have here := inv.here
  unfold Here at here
  cases process : s.process with
  | create pc wasRunning =>
    rw [process] at call here
    cases pc with
    | stopping => exact .inr here.2
    | undoing => exact .inl here
    | _ => simp [Process.call] at call
  | restore caller running pc =>
    rw [process] at call here
    cases pc with
    | stopping cleaned =>
      obtain ⟨value, stopped, _⟩ := here
      cases caller with
      | create => exact .inl (value.symm.trans stopped)
      | repair => exact .inl ((agreed inv met value).symm.trans stopped)
    | _ => simp [Process.call] at call
  | repair pc wasRunning =>
    rw [process] at call
    cases pc <;> simp [Process.call] at call
  | ended => simp [process, Process.call] at call
  | repaired => simp [process, Process.call] at call

/-- The record is written and removed only in a running source. -/
theorem marks (inv : Inv s) {call : Call} (made : s.process.call = some call)
    (marking : call = .clean ∨ ∃ wasRunning, call = .mark wasRunning) : s.source.running = true := by
  have here := inv.here
  unfold Here at here
  cases process : s.process with
  | create pc wasRunning =>
    rw [process] at made here
    cases pc with
    | marking => exact here.2
    | _ => rcases marking with rfl | ⟨_, rfl⟩ <;> simp [Process.call] at made
  | restore caller running pc =>
    rw [process] at made here
    cases pc with
    | cleaning => exact here.2
    | _ => rcases marking with rfl | ⟨_, rfl⟩ <;> simp [Process.call] at made
  | repair pc wasRunning =>
    rw [process] at made
    cases pc <;> rcases marking with rfl | ⟨_, rfl⟩ <;> simp [Process.call] at made
  | ended => simp [process, Process.call] at made
  | repaired => simp [process, Process.call] at made

/-- No call, whether it is answered or not, loses what the source was doing. -/
theorem kept_effect (inv : Inv s) (met : Met s) {call : Call} {after : Source}
    (made : s.process.call = some call) (effect : after ∈ call.effects s.source) :
    Kept s.wasRunning after := by
  have kept := inv.kept met
  have running (marking : call = .clean ∨ ∃ wasRunning, call = .mark wasRunning) :
      s.source.running = true := marks inv made marking
  cases call with
  | look | reach | work | read =>
    rw [List.mem_singleton.mp effect]
    exact kept
  | start =>
    simp only [Call.effects, List.mem_cons, List.not_mem_nil, or_false] at effect
    rcases effect with rfl | rfl
    · exact kept
    · exact fun _ _ => rfl
  | stop =>
    simp only [Call.effects, List.mem_cons, List.not_mem_nil, or_false] at effect
    rcases effect with rfl | rfl
    · exact kept
    · rcases stops inv met made with was | recorded
      · intro running
        rw [was] at running
        cases running
      · exact fun _ none => absurd recorded (none _)
  | mark wasRunning =>
    have on := running (.inr ⟨_, rfl⟩)
    intro _ _
    simp only [Call.effects] at effect
    split at effect <;> simp only [List.mem_cons, List.not_mem_nil, or_false] at effect
    · rcases effect with rfl | rfl | rfl | rfl <;> exact on
    · exact effect ▸ on
  | clean =>
    have on := running (.inl rfl)
    intro _ _
    simp only [Call.effects] at effect
    split at effect <;> simp only [List.mem_cons, List.not_mem_nil, or_false] at effect
    · exact effect ▸ on
    · rcases effect with rfl | rfl | rfl <;> exact on

theorem answer_effect {call : Call} {source after : Source} (answer : call.answer source = some after) :
    after ∈ call.effects source := by
  cases call with
  | look | work | start | stop =>
    cases answer
    simp [Call.effects]
  | reach =>
    simp only [Call.answer, Option.ite_none_right_eq_some, Option.some.injEq] at answer
    simp [Call.effects, answer.2]
  | read =>
    simp only [Call.answer, Option.ite_none_left_eq_some, Option.some.injEq] at answer
    simp [Call.effects, answer.2]
  | mark wasRunning =>
    simp only [Call.answer, Option.ite_none_right_eq_some, Option.some.injEq] at answer
    simp [Call.effects, answer.1, ← answer.2]
  | clean =>
    cases answer
    cases source with
    | mk running stage => cases stage <;> simp [Call.effects]

theorem here_ended (ended : s.process = .ended) : Here s := by
  unfold Here
  rw [ended]
  trivial

theorem here_afterCleaning {caller : Caller} {running cleaned : Bool}
    (process : s.process = afterCleaning caller running cleaned) (on : s.source.running = true)
    (clean : cleaned = true → s.source.stage = .absent) (value : Intended s running caller) : Here s := by
  cases running with
  | false =>
    unfold Here
    rw [process]
    exact ⟨value, rfl, clean⟩
  | true =>
    cases caller with
    | create => exact here_ended process
    | repair =>
      cases cleaned with
      | false => exact here_ended process
      | true =>
        obtain ⟨found, earlier, repairs, readable, same⟩ := value
        unfold Here
        rw [process]
        exact ⟨found, earlier, repairs, readable, clean rfl, on.trans same⟩

section Answered
variable {source after : Source} {wasRunning was : Bool} {repairs : List Source} {call : Call}

theorem create_succeeds {pc : CreatePc} (here : Here { source, process := .create pc was, wasRunning, repairs })
    (made : (Process.create pc was).call = some call) (answer : call.answer source = some after) :
    Here { source := after, process := (Process.create pc was).succeeded source, wasRunning, repairs } := by
  cases pc with
  | examining =>
    cases made
    cases answer
    cases running : source.running with
    | true =>
      simp only [Here, Process.succeeded, running] at here ⊢
      exact ⟨here, trivial⟩
    | false =>
      simp only [Here, Process.succeeded, running] at here ⊢
      exact ⟨rfl, here.symm⟩
  | starting =>
    cases made
    cases answer
    exact ⟨here.1.trans here.2.symm, rfl⟩
  | connecting =>
    cases made
    simp only [Call.answer, Option.ite_none_right_eq_some, Option.some.injEq] at answer
    exact answer.2 ▸ here
  | marking =>
    cases made
    simp only [Call.answer, Option.ite_none_right_eq_some, Option.some.injEq] at answer
    obtain ⟨_, rfl⟩ := answer
    exact ⟨here.1, by rw [here.1]⟩
  | preparing =>
    cases made
    cases answer
    exact here
  | stopping =>
    cases made
    cases answer
    exact here
  | verifying =>
    cases made
    cases answer
    cases running : source.running with
    | true =>
      simp only [Here, Process.succeeded, running] at here ⊢
      exact ⟨here.1, .inl running⟩
    | false =>
      simp only [Here, Process.succeeded, running] at here ⊢
      exact here
  | copying =>
    cases made
    cases answer
    exact ⟨here.1, .inr (by rw [here.1]; exact here.2)⟩
  | undoing => exact here_ended rfl

theorem repair_succeeds {pc : RepairPc} (here : Here { source, process := .repair pc was, wasRunning, repairs })
    (made : (Process.repair pc was).call = some call) (answer : call.answer source = some after) :
    Here { source := after, process := (Process.repair pc was).succeeded source, wasRunning, repairs } := by
  cases pc with
  | examining =>
    cases made
    cases answer
    obtain ⟨found, earlier, same, here⟩ := here
    cases here
    cases running : source.running with
    | true =>
      simp only [Here, Process.succeeded, running]
      exact ⟨source, earlier, same, by rw [← running], running.symm⟩
    | false =>
      simp only [Here, Process.succeeded, running]
      exact ⟨source, earlier, same, rfl, running.symm⟩
  | starting =>
    cases made
    cases answer
    obtain ⟨found, earlier, same, rfl, was⟩ := here
    exact ⟨source, earlier, same, rfl, was⟩
  | connecting =>
    cases made
    simp only [Call.answer, Option.ite_none_right_eq_some, Option.some.injEq] at answer
    exact answer.2 ▸ here
  | recovering =>
    cases made
    simp only [Call.answer, Option.ite_none_left_eq_some, Option.some.injEq] at answer
    obtain ⟨readable, rfl⟩ := answer
    obtain ⟨found, earlier, same, rfl, rfl⟩ := here
    exact ⟨⟨found, earlier, same, readable, rfl⟩, .inl rfl⟩

theorem restore_succeeds {caller : Caller} {running : Bool} {pc : RestorePc}
    (here : Here { source, process := .restore caller running pc, wasRunning, repairs })
    (made : (Process.restore caller running pc).call = some call) (answer : call.answer source = some after) :
    Here { source := after, process := (Process.restore caller running pc).succeeded source, wasRunning, repairs } := by
  cases pc with
  | checking =>
    cases made
    cases answer
    cases on : source.running with
    | true =>
      simp only [Here, Process.succeeded, on] at here ⊢
      exact ⟨here.1, on⟩
    | false =>
      simp only [Here, Process.succeeded, on] at here ⊢
      exact here
  | starting =>
    cases made
    cases answer
    exact ⟨here.1, rfl⟩
  | connecting =>
    cases made
    simp only [Call.answer, Option.ite_none_right_eq_some, Option.some.injEq] at answer
    exact answer.2 ▸ here
  | cleaning =>
    cases made
    cases answer
    exact here_afterCleaning rfl here.2 (fun _ => rfl) here.1
  | stopping cleaned =>
    cases made
    cases answer
    obtain ⟨value, stopped, clean⟩ := here
    cases caller with
    | create => exact here_ended rfl
    | repair =>
      cases cleaned with
      | false => exact here_ended rfl
      | true =>
        obtain ⟨found, earlier, same, readable, right⟩ := value
        exact ⟨found, earlier, same, readable, clean rfl, stopped.symm.trans right⟩

end Answered

theorem here_succeeds (inv : Inv s) {call : Call} {after : Source} (made : s.process.call = some call)
    (answer : call.answer s.source = some after) :
    Here { s with source := after, process := s.process.succeeded s.source } := by
  obtain ⟨source, process, wasRunning, repairs⟩ := s
  cases process with
  | ended => cases made
  | repaired => cases made
  | create pc was => exact create_succeeds inv.here made answer
  | repair pc was => exact repair_succeeds inv.here made answer
  | restore caller running pc => exact restore_succeeds inv.here made answer

theorem here_fails (inv : Inv s) {call : Call} {after : Source} (made : s.process.call = some call)
    (effect : after ∈ call.effects s.source) : Here { s with source := after, process := s.process.failed } := by
  obtain ⟨source, process, wasRunning, repairs⟩ := s
  have here := inv.here
  cases process with
  | ended => cases made
  | repaired => cases made
  | repair pc was => exact here_ended rfl
  | create pc was =>
    cases pc with
    | examining => exact here_ended rfl
    | starting => exact here_ended rfl
    | undoing => exact here_ended rfl
    | connecting | marking =>
      cases was with
      | true => exact here_ended rfl
      | false => exact here.1.symm
    | preparing | verifying | copying =>
      cases made
      cases List.mem_singleton.mp effect
      exact ⟨here.1, .inr (by rw [here.1]; exact here.2)⟩
    | stopping =>
      cases made
      have stage : after.stage = source.stage := by
        simp only [Call.effects, List.mem_cons, List.not_mem_nil, or_false] at effect
        rcases effect with rfl | rfl <;> rfl
      exact ⟨here.1, .inr (by rw [here.1, stage]; exact here.2)⟩
  | restore caller running pc =>
    cases pc with
    | checking => exact here_ended rfl
    | starting => exact here_ended rfl
    | stopping cleaned => exact here_ended rfl
    | connecting =>
      cases made
      cases List.mem_singleton.mp effect
      exact here_afterCleaning rfl here.2 (fun wrong => absurd wrong Bool.false_ne_true) here.1
    | cleaning =>
      have on : after.running = true := by
        cases made
        have before : source.running = true := here.2
        simp only [Call.effects] at effect
        split at effect <;> simp only [List.mem_cons, List.not_mem_nil, or_false] at effect
        · exact effect ▸ before
        · rcases effect with rfl | rfl | rfl <;> exact before
      exact here_afterCleaning rfl on (fun wrong => absurd wrong Bool.false_ne_true) here.1

theorem unanswered {after : Source}
    (made : (s.process.call.any fun call => decide (after ∈ call.effects s.source)) = true) :
    ∃ call, s.process.call = some call ∧ after ∈ call.effects s.source := by
  obtain ⟨call, found, effect⟩ := (Option.any_eq_true _ _).mp made
  exact ⟨call, found, of_decide_eq_true effect⟩

/-- A call changes the source, not what is known of it. -/
theorem inv_call (inv : Inv s) {call : Call} {after : Source} {process : Process}
    (made : s.process.call = some call) (effect : after ∈ call.effects s.source)
    (here : Here { s with source := after, process }) : Inv { s with source := after, process } where
  kept met := kept_effect inv met made effect
  found := inv.found
  here := here

theorem inv_step {action : Action} (inv : Inv s) (taken : step s action = some t) : Inv t := by
  cases action with
  | succeeds =>
    obtain ⟨after, answered, rfl⟩ := Option.map_eq_some_iff.mp taken
    obtain ⟨call, made, answer⟩ := Option.bind_eq_some_iff.mp answered
    exact inv_call inv made (answer_effect answer) (here_succeeds inv made answer)
  | fails after =>
    simp only [step, Option.ite_none_right_eq_some, Option.some.injEq] at taken
    obtain ⟨made, rfl⟩ := taken
    obtain ⟨call, made, effect⟩ := unanswered made
    exact inv_call inv made effect (here_fails inv made effect)
  | dies after =>
    simp only [step, Option.ite_none_right_eq_some, Option.some.injEq] at taken
    obtain ⟨made, rfl⟩ := taken
    obtain ⟨call, made, effect⟩ := unanswered made
    exact inv_call inv made effect (here_ended rfl)
  | repairs =>
    simp only [step, Option.ite_none_right_eq_some, Option.some.injEq] at taken
    obtain ⟨_, rfl⟩ := taken
    refine ⟨?_, ?_, ⟨_, _, rfl, rfl⟩⟩
    · intro met
      exact inv.kept fun found member => met found (List.mem_cons_of_mem _ member)
    · rintro found earlier ⟨⟩ before
      exact inv.kept before

theorem initial_inv (start : system.init s) : Inv s := by
  obtain ⟨process, running, repairs⟩ := start
  refine ⟨?_, ?_, ?_⟩
  · intro _ was _
    exact running.trans was
  · intro found earlier some
    rw [repairs] at some
    cases some
  · unfold Here
    rw [process]
    exact running

end Invariant

section Samples

/-- A stopped source that `create` is called for. -/
def stopped : Machine where
  source := { running := false, stage := .absent }
  process := .create .examining false
  wasRunning := false
  repairs := []

theorem stopped_initial : system.init stopped := ⟨rfl, rfl, rfl⟩

/-- The command dies while it copies, and a repair follows. -/
def copyDies : List Action :=
  List.replicate 7 .succeeds ++ [.dies ⟨false, .recorded false⟩, .repairs] ++ List.replicate 8 .succeeds

/-- The command dies when the source has started, before it has written the record. -/
def startDies : List Action :=
  [.succeeds, .dies ⟨true, .absent⟩, .repairs] ++ List.replicate 6 .succeeds

theorem copyDies_runs : (system.run stopped copyDies).isSome = true := by decide

theorem startDies_runs : (system.run stopped startDies).isSome = true := by decide

end Samples

end Pbox.Cli.SnapshotRepair
