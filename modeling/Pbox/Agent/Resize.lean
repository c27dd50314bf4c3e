import Pbox.Agent.SessionSteps

/-! The size of a session's PTY against the size of its screen. An attached viewer changes the
screen and queues the resize of the PTY in one locked section; `attach` queues it after the
section, without waiting for room. The two sizes meet again as long as no such late request
overtakes, or misses, the one that carries the size of the screen. -/

namespace Pbox.Agent.Resize
open Pbox.Lib.Channel Pbox.Lib.Transition Pbox.Agent.Session Pbox.Agent.Terminal
  Pbox.Agent.SessionRun Pbox.Agent.SessionSteps

/-- The size of the PTY once the feeding task has taken every queued request. -/
def settledSize (pty : Nat × Nat) (queue : List ExecRequest) : Nat × Nat :=
  queue.foldl forwardResize pty

/-- An `attach` call whose resize request is still to come carries the given size. -/
def Carries (tasks : Nat → Option Task) (v : Nat) (size : Nat × Nat) : Prop :=
  ∃ carried : Size, tasks v = some (.resizing carried) ∧ (carried.rows, carried.cols) = size

section Statement
variable {Screen : Type} (vt : Vt100 Screen)

def screenSize (s : Run Screen) : Nat × Nat := vt.size s.state.screen.screen

/-- The input queue is consumed, and no attach or resize is under way. -/
structure Quiet (s : Run Screen) : Prop where
  consumed : s.input.queue = [] ∧ s.dropped = []
  attached : ∀ v size, s.tasks v ≠ some (.resizing size)
  resized : ∀ v request, s.tasks v ≠ some (.permitted request)

/-- The PTY, the screen and the recorded size agree. -/
def Agree (s : Run Screen) : Prop :=
  s.pty = screenSize vt s ∧ s.pty = (s.state.info.rows, s.state.info.cols)

/-- The late request of an `attach` leaves the right size behind: the request that gets into the
queue, or the last size before it if the queue refuses it, is the size of the screen, or another
call still carries that size. -/
def Orderly (s : Run Screen) : Action → Prop
  | .requestResize v => s.dropped = [] → ∀ size, s.tasks v = some (.resizing size) →
    (if s.input.Room then (size.rows, size.cols) else settledSize s.pty s.input.queue) =
        screenSize vt s ∨
      ∃ w ≠ v, Carries s.tasks w (screenSize vt s)
  | _ => True

structure InvAt (state : State Screen) (tasks : Nat → Option Task) (queue dropped : List ExecRequest)
    (pty : Nat × Nat) : Prop where
  recorded : (state.info.rows, state.info.cols) = vt.size state.screen.screen
  covered : dropped = [] → settledSize pty queue = vt.size state.screen.screen ∨
    ∃ v, Carries tasks v (vt.size state.screen.screen)

abbrev Inv (s : Run Screen) : Prop := InvAt vt s.state s.tasks s.input.queue s.dropped s.pty

end Statement

theorem settledSize_append (pty : Nat × Nat) (queue : List ExecRequest) (request : ExecRequest) :
    settledSize pty (queue ++ [request]) = forwardResize (settledSize pty queue) request := by
  unfold settledSize
  rw [List.foldl_append, List.foldl_cons, List.foldl_nil]

/-- Accepted sizes fit into the numbers of the PTY. -/
theorem resizePty_size (size : Size) : resizePty size.rows size.cols = (size.rows, size.cols) := by
  have rows := size.tall.2
  have cols := size.wide.2
  unfold resizePty
  rw [Nat.min_eq_left (by omega), Nat.min_eq_left (by omega)]

theorem forwardResize_size {request : ExecRequest} (size : Size) (pty : Nat × Nat)
    (same : request.terminalRows = size.rows ∧ request.terminalCols = size.cols) :
    forwardResize pty request = (size.rows, size.cols) := by
  unfold forwardResize
  rw [same.1, same.2, if_pos ⟨size.tall.1, size.wide.1⟩, resizePty_size]

theorem forwardResize_other {request : ExecRequest} (pty : Nat × Nat)
    (other : ¬(0 < request.terminalRows ∧ 0 < request.terminalCols)) :
    forwardResize pty request = pty := if_neg other

variable {Screen : Type} {vt : Vt100 Screen}

section Steps
variable {state : State Screen} {tasks : Nat → Option Task} {queue dropped : List ExecRequest}
  {pty : Nat × Nat}

/-- A call that carries a size goes on doing so while another task moves. -/
theorem carries_update {v w : Nat} {size : Nat × Nat} {task : Task} (carries : Carries tasks w size)
    (different : w ≠ v) : Carries (Function.update tasks v (some task)) w size := by
  obtain ⟨carried, held, same⟩ := carries
  exact ⟨carried, by rw [Function.update_of_ne different, held], same⟩

/-- A request that asks for no resize may enter the queue anywhere. -/
theorem inv_offer {input : Channel ExecRequest} {request : ExecRequest}
    (inv : InvAt vt state tasks input.queue dropped pty)
    (other : ¬(0 < request.terminalRows ∧ 0 < request.terminalCols)) :
    InvAt vt state tasks (input.offer request).queue dropped pty where
  recorded := inv.recorded
  covered kept := by
    rw [Channel.offer_queue]
    split_ifs
    · rw [settledSize_append, forwardResize_other _ other]
      exact inv.covered kept
    · exact inv.covered kept

/-- A task other than a carrying one moves. -/
theorem inv_tasks (v : Nat) (task : Task) (inv : InvAt vt state tasks queue dropped pty)
    (idle : ∀ size, tasks v ≠ some (.resizing size)) :
    InvAt vt state (Function.update tasks v (some task)) queue dropped pty where
  recorded := inv.recorded
  covered kept := by
    rcases inv.covered kept with settled | ⟨w, carries⟩
    · exact .inl settled
    · obtain ⟨carried, held, same⟩ := carries
      have different : w ≠ v := fun here => idle carried (here ▸ held)
      exact .inr ⟨w, carries_update ⟨carried, held, same⟩ different⟩

theorem inv_attach {v : Nat} (created : Bool) {size : Size} (sized : vt.Sized) :
    InvAt vt (state.attach vt created size v).1 (Function.update tasks v (some (.resizing size)))
      queue dropped pty where
  recorded := (sized.setSize _ _ _).symm
  covered _ := .inr ⟨v, size, Function.update_self .., (sized.setSize _ _ _).symm⟩

/-- The late request of an `attach`, when it is in order. -/
theorem inv_request {input : Channel ExecRequest} {v : Nat} {size : Size}
    (inv : InvAt vt state tasks input.queue dropped pty)
    (orderly : dropped = [] →
      (if input.Room then (size.rows, size.cols) else settledSize pty input.queue) =
          vt.size state.screen.screen ∨
        ∃ w ≠ v, Carries tasks w (vt.size state.screen.screen)) :
    InvAt vt state (Function.update tasks v (some .attached))
      (input.offer (resizeRequest size)).queue dropped pty where
  recorded := inv.recorded
  covered kept := by
    rcases orderly kept with settled | ⟨w, different, carries⟩
    · left
      rw [Channel.offer_queue]
      split_ifs at settled ⊢ with room
      · rw [settledSize_append, forwardResize_size size _ ⟨rfl, rfl⟩, settled]
      · exact settled
    · exact .inr ⟨w, carries_update carries different⟩

/-- The screen changes and the request enters the queue in one section. -/
theorem inv_commit {input filled : Channel ExecRequest} {v : Nat} {request : ExecRequest}
    {resize : Option Size} (sized : vt.Sized) (inv : InvAt vt state tasks input.queue dropped pty)
    (held : tasks v = some (.permitted request)) (asked : resizeOf request = .ok resize)
    (sent : input.fill request = some filled) :
    InvAt vt (state.attachment vt resize) (Function.update tasks v (some .attached)) filled.queue
      (if input.closed then dropped ++ [request] else dropped) pty := by
  obtain ⟨_, queue, _⟩ := Channel.fill_some sent
  by_cases closed : input.closed = true
  · refine ⟨?_, fun kept => ?_⟩
    · cases resize with
      | none => exact inv.recorded
      | some size => exact (sized.setSize _ _ _).symm
    · rw [if_pos closed] at kept
      simp at kept
  · rw [if_neg closed] at queue
    rw [queue, if_neg closed]
    cases resize with
    | none =>
      have moved := inv_tasks v .attached inv (by simp [held])
      refine ⟨moved.recorded, fun kept => ?_⟩
      rw [settledSize_append, forwardResize_other _ (resizeOf_none asked)]
      exact moved.covered kept
    | some size =>
      refine ⟨(sized.setSize _ _ _).symm, fun _ => .inl ?_⟩
      rw [settledSize_append, forwardResize_size size _ (resizeOf_some asked)]
      exact (sized.setSize _ _ _).symm

/-- A permit of `Sessions::send` is filled. -/
theorem inv_typed {input filled : Channel ExecRequest} {request : ExecRequest}
    (inv : InvAt vt state tasks input.queue dropped pty) (sent : input.fill request = some filled)
    (other : ¬(0 < request.terminalRows ∧ 0 < request.terminalCols)) :
    InvAt vt state tasks filled.queue (if input.closed then dropped ++ [request] else dropped) pty := by
  obtain ⟨_, queue, _⟩ := Channel.fill_some sent
  refine ⟨inv.recorded, fun kept => ?_⟩
  split_ifs at kept queue with closed
  · simp at kept
  · rw [queue, settledSize_append, forwardResize_other _ other]
    exact inv.covered kept

theorem inv_consume {input : Channel ExecRequest} {request : ExecRequest} {rest : List ExecRequest}
    (inv : InvAt vt state tasks input.queue dropped pty) (queue : input.queue = request :: rest) :
    InvAt vt state tasks rest dropped (forwardResize pty request) where
  recorded := inv.recorded
  covered kept := by
    have before := inv.covered kept
    rw [queue] at before
    exact before

/-- The feeding task stops and drops what is queued. -/
theorem inv_feedStops (inv : InvAt vt state tasks queue dropped pty) :
    InvAt vt state tasks [] (dropped ++ queue) pty where
  recorded := inv.recorded
  covered kept := by
    obtain ⟨none, empty⟩ := List.append_eq_nil_iff.mp kept
    rw [← empty]
    exact inv.covered none

/-- A publication keeps the size of the screen; its replies are plain input. -/
theorem inv_publish {gone : Nat → Bool} {event : Delivery} {input : Channel ExecRequest}
    (sized : vt.Sized) (inv : InvAt vt state tasks input.queue dropped pty) :
    InvAt vt (state.publish vt gone event).1 tasks
      (if (state.publish vt gone event).2.1.isEmpty then input
        else input.offer (inputRequest (state.publish vt gone event).2.1)).queue dropped pty := by
  have same := absorb_size sized state.screen (state.headless gone) event
  have moved : InvAt vt (state.publish vt gone event).1 tasks input.queue dropped pty := by
    refine ⟨inv.recorded.trans same.symm, fun kept => ?_⟩
    show _ = vt.size (absorb vt state.screen (state.headless gone) event).2.screen ∨
      ∃ v, Carries tasks v (vt.size (absorb vt state.screen (state.headless gone) event).2.screen)
    rw [same]
    exact inv.covered kept
  split_ifs
  · exact moved
  · exact inv_offer moved (by simp [inputRequest])

end Steps

theorem initial_inv {request first : ExecRequest} (sized : vt.Sized)
    (normal : normalise request = .ok first) (createdUnix : Nat) (creating : Bool) :
    Inv vt (initial vt first createdUnix creating) := by
  obtain ⟨size, rows, cols⟩ := normalise_size normal
  refine ⟨(sized.new _ _ _).symm, fun _ => .inl ?_⟩
  show resizePty first.terminalRows first.terminalCols = _
  rw [rows, cols, resizePty_size, ← rows, ← cols]
  exact (sized.new _ _ _).symm

theorem inv_step {s t : Run Screen} {a : Action} (sized : vt.Sized) (inv : Inv vt s)
    (meets : Orderly vt s a) (taken : step vt s a = some t) : Inv vt t := by
  cases runStep taken with
  | @attach _ created => exact inv_attach created sized
  | requestResize held => exact inv_request inv (fun kept => meets kept _ held)
  | publish => exact inv_publish sized inv
  | commit held asked filled => exact inv_commit sized inv held asked filled
  | @read v request _ _ held _ _ _ reserved =>
    have moved := inv_tasks v (.permitted request) inv (by simp [held])
    rw [← (Channel.reserve_some reserved).2.1] at moved
    exact moved
  | @reject v _ _ _ held | @leave v held => exact inv_tasks v .detached inv (by simp [held])
  | heartbeat => exact inv_offer inv (by simp [inputRequest])
  | typeReserve reserved =>
    unfold Inv at inv
    rw [← (Channel.reserve_some reserved).2.1] at inv
    exact inv
  | typeSend _ filled => exact inv_typed inv filled (by simp [inputRequest])
  | typeDrop _ released =>
    unfold Inv at inv
    rw [← (Channel.release_some released).1] at inv
    exact inv
  | consume _ received => exact inv_consume inv (Channel.receive_some received).1
  | feedStops => exact inv_feedStops inv
  | finish | skipClosed => exact ⟨inv.recorded, inv.covered⟩
  | spawn | deliver | skipTakeover | publishDone | workerEnds | close | receive | disconnect =>
    exact inv

/-- In every run in which the late requests come in order, a quiet session has one size. -/
theorem orderly_quiet_agrees (vt : Vt100 Screen) (sized : vt.Sized) (first : ExecRequest)
    (createdUnix : Nat) (creating : Bool) (s : Run Screen)
    (reached : (system vt first createdUnix creating).ReachableBy (Orderly vt) s) (quiet : Quiet s) :
    Agree vt s := by
  have inv : Inv vt s := reached.invariant
    (fun _ start => by
      obtain ⟨⟨request, normal⟩, rfl⟩ := start
      exact initial_inv sized normal createdUnix creating)
    (fun _ _ _ inv meets taken => inv_step sized inv meets taken)
  have same : s.pty = screenSize vt s := by
    rcases inv.covered quiet.consumed.2 with settled | ⟨v, size, held, _⟩
    · rw [quiet.consumed.1] at settled
      exact settled
    · exact absurd held (quiet.attached v size)
  exact ⟨same, same.trans inv.recorded.symm⟩

/-- The first disjunct of `Orderly`, as a check. -/
def inOrder (s : Run ((Nat × Nat) × Bytes)) : Action → Bool
  | .requestResize v =>
    match s.tasks v with
    | some (.resizing size) =>
      (if s.input.Room then (size.rows, size.cols) else settledSize s.pty s.input.queue) ==
        screenSize transcript s
    | _ => true
  | _ => true

theorem orderly_of_inOrder (s : Run ((Nat × Nat) × Bytes)) (a : Action) (checked : inOrder s a = true) :
    Orderly transcript s a := by
  cases a with
  | requestResize v =>
    intro _ size held
    simp only [inOrder, held, beq_iff_eq] at checked
    exact .inl checked
  | _ => trivial

/-- Two viewers attach one after the other. -/
def inTurn : List Action :=
  [.attach 0 true 24 80, .requestResize 0, .spawn, .attach 1 false 30 90, .requestResize 1, .consume,
    .consume]

theorem inTurn_runs :
    ((system transcript shell 0 true).runBy inOrder (initial transcript shell 0 true)
      inTurn).isSome = true := by decide

def settled : Run ((Nat × Nat) × Bytes) :=
  ((system transcript shell 0 true).runBy inOrder (initial transcript shell 0 true) inTurn).get
    inTurn_runs

/-- Two calls that have queued their requests are all the tasks there are. -/
theorem settled_tasks (v : Nat) :
    settled.tasks v = if v = 0 ∨ v = 1 then some .attached else none := by
  have all : settled.tasks = Function.update (Function.update (Function.update (Function.update
      (fun _ => none) 0 (some (.resizing ⟨24, 80, by decide, by decide⟩))) 0 (some .attached)) 1
      (some (.resizing ⟨30, 90, by decide, by decide⟩))) 1 (some .attached) := rfl
  rw [all]
  simp only [Function.update_apply]
  grind

theorem settled_quiet : Quiet settled where
  consumed := ⟨by decide, by decide⟩
  attached v size := by
    rw [settled_tasks]
    split <;> simp
  resized v request := by
    rw [settled_tasks]
    split <;> simp

theorem settled_agrees : Agree transcript settled :=
  orderly_quiet_agrees transcript transcript_sized shell 0 true settled
    (System.reachableBy_of_runBy orderly_of_inOrder (.start ⟨⟨shell, shell_normal⟩, rfl⟩)
      (Option.some_get _).symm)
    settled_quiet

/-- The second viewer's request overtakes the first one's. -/
def overtaking : List Action :=
  [.attach 0 true 24 80, .spawn, .attach 1 false 30 90, .requestResize 1, .requestResize 0, .consume,
    .consume]

theorem overtaking_runs :
    ((system transcript shell 0 true).run (initial transcript shell 0 true) overtaking).isSome = true := by
  decide

def overtaken : Run ((Nat × Nat) × Bytes) :=
  ((system transcript shell 0 true).run (initial transcript shell 0 true) overtaking).get
    overtaking_runs

theorem overtaken_reachable : (system transcript shell 0 true).Reachable overtaken :=
  System.reachable_of_run (.start ⟨⟨shell, shell_normal⟩, rfl⟩) (Option.some_get _).symm

/-- Two calls that have queued their requests are all the tasks there are. -/
theorem overtaken_tasks (v : Nat) :
    overtaken.tasks v = if v = 0 ∨ v = 1 then some .attached else none := by
  have all : overtaken.tasks = Function.update (Function.update (Function.update (Function.update
      (fun _ => none) 0 (some (.resizing ⟨24, 80, by decide, by decide⟩))) 1
      (some (.resizing ⟨30, 90, by decide, by decide⟩))) 1 (some .attached)) 0 (some .attached) := rfl
  rw [all]
  simp only [Function.update_apply]
  grind

theorem overtaken_quiet : Quiet overtaken where
  consumed := ⟨by decide, by decide⟩
  attached v size := by
    rw [overtaken_tasks]
    split <;> simp
  resized v request := by
    rw [overtaken_tasks]
    split <;> simp

/-- A quiet session whose PTY has another size than its screen. -/
theorem overtaking_disagrees :
    ¬∀ s, (system transcript shell 0 true).Reachable s → Quiet s → Agree transcript s := by
  intro agrees
  have same := (agrees overtaken overtaken_reachable overtaken_quiet).1
  revert same
  decide

end Pbox.Agent.Resize
