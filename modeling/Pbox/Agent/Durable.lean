import Pbox.Agent.SessionClock

/-! A named session lives until it is closed, its child exits or the supervisor shuts down, as long as no
time limit runs out because of a viewer that does not read or a program that does not take its input. -/

namespace Pbox.Agent.Durable
open Pbox.Lib.Channel Pbox.Lib.Transition Pbox.Agent.Session Pbox.Agent.Terminal Pbox.Agent.SessionClock
open Pbox.Agent.SessionRun (inputRequest resizeRequest)

section Statement
variable {Screen : Type}

/-- What may end a session. -/
def Permitted (s : Run Screen) : Prop := s.closed = true ∨ s.exited = true ∨ s.shutdown = true

/-- The time that passes takes no write to the end of its limit, and no five minutes to theirs while the
owner waits for a viewer. -/
structure Timely (s : Run Screen) (time : Nat) : Prop where
  write : ∀ eof since, s.forward = .writing eof since → s.now + time < since + EXEC_STDIN_WRITE_TIMEOUT
  finish : ∀ since, s.forward = .finishing since → s.now + time < since + EXEC_STDIN_WRITE_TIMEOUT
  idle : ∀ event rest seen since, s.owner = .publishing event rest seen → s.forward = .waiting since →
    s.now + time < since + EXEC_STREAM_IDLE_TIMEOUT
  send : ∀ event rest seen deadline, s.owner = .publishing event rest seen → s.reader.deadline = some deadline →
    s.now + time < deadline

/-- The terminal itself does not fail, and no limit runs out in that way. -/
def Definite (s : Run Screen) : Action → Prop
  | .pass time => Timely s time
  | .readFails _ | .writeFails _ | .resizeFails _ => False
  | _ => True

structure Inv (s : Run Screen) : Prop where
  alive : s.killed = false ∧ ∃ inputFinished, s.worker = .waiting inputFinished
  unasked : s.close = false
  owner : s.owner = .selecting ∨ ∃ event rest seen, s.owner = .publishing event rest seen
  output : s.output.closed = false ∧ s.notified = false
  reader : ∀ deadline, s.reader.deadline = some deadline → s.now < deadline
  unfailing : ∀ error since, s.reader ≠ .failing error since
  forward : ∀ error, s.forward ≠ .failed error
  input : ∀ request ∈ s.input.queue, checkProtocol request.protocolVersion = .ok ()
  slots : s.input.capacity = 32 ∧ s.input.reserved = 0
  room : s.output.capacity = 16 ∧ s.output.reserved = 0
  fed : s.forward = .finished ∨ s.input.closed = false
  deadline : ∀ deadline, s.forward.deadline = some deadline → s.now < deadline
  tick : s.nextTick ≤ s.now + HEARTBEAT
  heart : ∀ since, s.forward = .waiting since → s.input.queue = [] → s.nextTick ≤ since + HEARTBEAT

def Sound (s : Run Screen) : Prop := Permitted s ∨ Inv s

end Statement

section Proofs
variable {Screen : Type} {vt : Vt100 Screen} {s t : Run Screen}

/-- The queue is open while something is done with it. -/
theorem Inv.unclosed (inv : Inv s) (unfinished : s.forward ≠ .finished) : s.input.closed = false :=
  inv.fed.resolve_left unfinished

theorem Inv.waits (inv : Inv s) {since : Nat} (waiting : s.forward = .waiting since) : s.input.closed = false :=
  inv.unclosed (by rw [waiting]; rintro ⟨⟩)

theorem offer_mem {input : Channel ExecRequest} {request other : ExecRequest}
    (member : other ∈ (input.offer request).queue) : other ∈ input.queue ∨ other = request := by
  rw [Channel.offer_queue] at member
  split at member
  · simpa using member
  · exact .inl member

/-- A full queue is not empty. -/
theorem offer_nonempty {input : Channel ExecRequest} (request : ExecRequest)
    (slots : input.capacity = 32 ∧ input.reserved = 0) (unclosed : input.closed = false) :
    (input.offer request).queue ≠ [] := by
  rw [Channel.offer_queue]
  split
  · simp
  next full =>
    intro empty
    exact full ⟨unclosed, by rw [empty, slots.1, slots.2]; decide⟩

theorem offer_slots {input : Channel ExecRequest} {request : ExecRequest}
    (slots : input.capacity = 32 ∧ input.reserved = 0) :
    (input.offer request).capacity = 32 ∧ (input.offer request).reserved = 0 := by
  unfold Channel.offer Channel.trySend
  split <;> exact slots

/-- A request is queued, or refused by a full queue. -/
theorem Inv.offers (inv : Inv s) {request : ExecRequest} (current : checkProtocol request.protocolVersion = .ok ()) :
    Inv { s with input := s.input.offer request } :=
  { inv with
    input := fun other member => by
      rcases offer_mem member with before | rfl
      · exact inv.input other before
      · exact current
    slots := offer_slots inv.slots
    fed := by
      rw [Channel.offer_closed]
      exact inv.fed
    heart := fun since waiting empty => (offer_nonempty request inv.slots (inv.waits waiting) empty).elim }

/-! The steps of the tasks. -/

theorem ownerStep_inv {a : TaskAction} (inv : Inv s) (taken : ownerStep vt s a = some t) : Inv t := by
  obtain ⟨inputFinished, waiting⟩ := inv.alive.2
  cases a with
  | closes =>
    simp only [ownerStep, inv.unasked] at taken
    split at taken
    next asked => cases asked
    next asked => cases asked
    next => cases taken
  | ticks =>
    simp only [ownerStep] at taken
    split at taken
    next selecting =>
      simp only [Option.ite_none_right_eq_some, Option.some.injEq] at taken
      obtain ⟨due, rfl⟩ := taken
      have offered := inv.offers (show checkProtocol (inputRequest []).protocolVersion = .ok () from rfl)
      exact { offered with
        tick := Nat.add_le_add_right due HEARTBEAT
        heart := fun since waiting empty =>
          (offer_nonempty (inputRequest []) inv.slots (inv.waits waiting) empty).elim }
    next => cases taken
  | receives =>
    simp only [ownerStep] at taken
    split at taken
    next event output selecting received =>
      cases taken
      obtain ⟨_, reserved, unclosed, capacity⟩ := Channel.receive_some received
      have published (event : Delivery) (rest : List Nat) (seen : Nat) (state : State Screen) (s : Run Screen)
          (inv : Inv s) (same : output.closed = s.output.closed ∧ output.capacity = s.output.capacity ∧
            output.reserved = s.output.reserved) :
          Inv { s with state, output, owner := .publishing event rest seen } :=
        { inv with
          owner := .inr ⟨event, rest, seen, rfl⟩
          output := ⟨same.1.trans inv.output.1, inv.output.2⟩
          room := ⟨same.2.1.trans inv.room.1, same.2.2.trans inv.room.2⟩ }
      split
      · exact published _ _ _ _ s inv ⟨unclosed, capacity, reserved⟩
      · exact published _ _ _ _ _ (inv.offers rfl) ⟨unclosed, capacity, reserved⟩
    next => cases taken
  | seesEnd =>
    simp only [ownerStep, waiting] at taken
    split at taken
    next ended => cases ended
    next => cases taken
  | finishes =>
    simp only [ownerStep, waiting] at taken
    split at taken
    next ended => cases ended
    next => cases taken
  | delivers =>
    simp only [ownerStep] at taken
    split at taken
    next event v rest seen publishing =>
      split at taken
      next viewer here =>
        obtain ⟨room, _, rfl⟩ := Option.map_eq_some_iff.mp taken
        exact { inv with owner := .inr ⟨event, rest, seen, rfl⟩ }
      next => cases taken
    next => cases taken
  | skips =>
    simp only [ownerStep] at taken
    split at taken
    next event v rest seen publishing =>
      simp only [Option.ite_none_right_eq_some, Option.some.injEq] at taken
      obtain ⟨_, rfl⟩ := taken
      exact { inv with owner := .inr ⟨event, rest, seen, rfl⟩ }
    next => cases taken
  | skipsTakeover =>
    simp only [ownerStep] at taken
    split at taken
    next event v rest seen publishing =>
      simp only [Option.ite_none_right_eq_some, Option.some.injEq] at taken
      obtain ⟨_, rfl⟩ := taken
      exact { inv with owner := .inr ⟨event, rest, seen, rfl⟩ }
    next => cases taken
  | returns =>
    simp only [ownerStep] at taken
    split at taken
    next => exact Option.some.inj taken ▸ { inv with owner := .inl rfl }
    next => cases taken
  | _ => cases taken

theorem readerStep_inv {a : TaskAction} (inv : Inv s) (taken : readerStep s a = some t) : Inv t := by
  cases a with
  | sends =>
    simp only [readerStep] at taken
    split at taken
    next event eof since sending =>
      obtain ⟨output, sent, rfl⟩ := Option.map_eq_some_iff.mp taken
      obtain ⟨_, _, reserved, unclosed, capacity⟩ := Channel.trySend_some sent
      exact { inv with
        output := ⟨unclosed.trans inv.output.1, inv.output.2⟩
        room := ⟨capacity.trans inv.room.1, reserved.trans inv.room.2⟩
        reader := fun deadline known => by split at known <;> cases known
        unfailing := fun error since => by split <;> rintro ⟨⟩ }
    next error since failing => exact (inv.unfailing error since failing).elim
    next => cases taken
  | sendRefused =>
    simp only [readerStep, inv.output.1] at taken
    split at taken
    next => cases taken
    next => cases taken
    next => cases taken
  | sendExpires =>
    simp only [readerStep] at taken
    split at taken
    next event eof since sending =>
      simp only [Option.ite_none_right_eq_some, Option.some.injEq] at taken
      have early := inv.reader _ (by rw [sending]; rfl)
      exact (Nat.not_le_of_lt early taken.1.2.2).elim
    next error since failing => exact (inv.unfailing error since failing).elim
    next => cases taken
  | _ => cases taken

/-- After a request has been taken the limits start anew. -/
theorem forwards_deadline {now : Nat} {request : ExecRequest} {deadline : Nat}
    (known : (forwards now request).deadline = some deadline) : now < deadline := by
  unfold forwards at known
  split at known
  · cases known
    exact Nat.lt_add_of_pos_right (by decide)
  · split at known
    · cases known
      exact Nat.lt_add_of_pos_right (by decide)
    · cases known
      exact Nat.lt_add_of_pos_right (by decide)

theorem forwards_waiting {now since : Nat} {request : ExecRequest} (waiting : forwards now request = .waiting since) :
    since = now := by
  unfold forwards at waiting
  split at waiting
  · cases waiting
  · split at waiting
    · cases waiting
    · cases waiting
      rfl

theorem forwards_unfailed (now : Nat) (request : ExecRequest) (error : Status) :
    forwards now request ≠ .failed error := by
  unfold forwards
  split
  · rintro ⟨⟩
  · split <;> rintro ⟨⟩

theorem forwardStep_inv {a : TaskAction} (inv : Inv s) (taken : forwardStep s a = some t) : Inv t := by
  have early (deadline : Nat) (known : s.forward.deadline = some deadline) : ¬deadline ≤ s.now :=
    Nat.not_le_of_lt (inv.deadline deadline known)
  cases a with
  | takes =>
    simp only [forwardStep] at taken
    split at taken
    next since request input waiting received =>
      obtain ⟨queued, reserved, unclosed, capacity⟩ := Channel.receive_some received
      have current := inv.input request (by rw [queued]; exact List.mem_cons_self)
      rw [current] at taken
      cases taken
      exact { inv with
        forward := forwards_unfailed s.now request
        input := fun other member => inv.input other (by rw [queued]; exact List.mem_cons_of_mem _ member)
        slots := ⟨capacity.trans inv.slots.1, reserved.trans inv.slots.2⟩
        fed := .inr (unclosed.trans (inv.waits waiting))
        deadline := fun _ known => forwards_deadline known
        heart := fun _ again _ => by rw [forwards_waiting again]; exact inv.tick }
    next => cases taken
  | idleExpires =>
    simp only [forwardStep] at taken
    split at taken
    next since waiting =>
      simp only [Option.ite_none_right_eq_some] at taken
      exact (early _ (by rw [waiting]; rfl) taken.1.2).elim
    next => cases taken
  | writeExpires =>
    simp only [forwardStep] at taken
    split at taken
    next eof since writing =>
      simp only [Option.ite_none_right_eq_some] at taken
      exact (early _ (by rw [writing]; rfl) taken.1).elim
    next since finishing =>
      simp only [Option.ite_none_right_eq_some] at taken
      exact (early _ (by rw [finishing]; rfl) taken.1).elim
    next => cases taken
  | _ => cases taken

theorem workerStep_sound {a : TaskAction} (inv : Inv s) (taken : workerStep s a = some t) : Sound t := by
  cases a with
  | seesInput =>
    simp only [workerStep] at taken
    split at taken
    next => exact .inr (Option.some.inj taken ▸ { inv with alive := ⟨inv.alive.1, true, rfl⟩ })
    next error _ failed => exact (inv.forward error failed).elim
    next => cases taken
  | seesExit =>
    simp only [workerStep] at taken
    split at taken
    next =>
      simp only [Option.ite_none_right_eq_some, Option.some.injEq] at taken
      obtain ⟨exited, rfl⟩ := taken
      exact .inl (.inr (.inl exited))
    next => cases taken
  | seesClosed =>
    simp only [workerStep, inv.output.1] at taken
    split at taken
    next => cases taken
    next => cases taken
  | seesFailure =>
    simp only [workerStep, inv.output.2] at taken
    split at taken
    next => cases taken
    next => cases taken
  | _ => cases taken

theorem taskStep_sound {a : TaskAction} (inv : Inv s) (taken : taskStep vt s a = some t) : Sound t := by
  unfold taskStep at taken
  split at taken
  all_goals first
    | exact .inr (ownerStep_inv inv taken)
    | exact .inr (readerStep_inv inv taken)
    | exact .inr (forwardStep_inv inv taken)
    | exact workerStep_sound inv taken

/-! The clock. -/

theorem quiet_none (silent : quiet vt s = true) (a : TaskAction) : taskStep vt s a = none := by
  have member : a ∈ TaskAction.all := by cases a <;> decide
  exact Option.isNone_iff_eq_none.mp (List.all_eq_true.mp silent a member)

/-- A reader that waits for room beside a quiet owner waits for a publication. -/
theorem publishing_of_full (inv : Inv s) (silent : quiet vt s = true) {deadline : Nat}
    (known : s.reader.deadline = some deadline) : ∃ event rest seen, s.owner = .publishing event rest seen := by
  rcases inv.owner with selecting | publishing
  · have empty : s.output.queue = [] := by
      have unreceived := quiet_none silent .receives
      simp only [taskStep, ownerStep, selecting] at unreceived
      split at unreceived
      next => cases unreceived
      next nothing =>
        cases received : s.output.receive with
        | none => exact Channel.receive_eq_none.mp received
        | some taken => exact (nothing taken.1 taken.2 rfl received).elim
    have room : s.output.Room := ⟨inv.output.1, by rw [empty, inv.room.1, inv.room.2]; decide⟩
    have unsent := quiet_none silent .sends
    cases reader : s.reader with
    | reading => rw [reader] at known; cases known
    | done => rw [reader] at known; cases known
    | failing error since => exact (inv.unfailing error since reader).elim
    | sending event eof since =>
      simp only [taskStep, readerStep, reader, Option.map_eq_none_iff] at unsent
      have sendable : (s.output.trySend event).isSome := Channel.trySend_isSome.mpr room
      rw [unsent] at sendable
      cases sendable
  · exact publishing

/-- A task that waits for input beside a quiet owner has nothing to take. -/
theorem queue_empty (silent : quiet vt s = true) {since : Nat} (waiting : s.forward = .waiting since) :
    s.input.queue = [] := by
  have untaken := quiet_none silent .takes
  simp only [taskStep, forwardStep, waiting] at untaken
  split at untaken
  next request input _ received =>
    split at untaken
    · cases untaken
    · cases untaken
  next nothing =>
    cases received : s.input.receive with
    | none => exact Channel.receive_eq_none.mp received
    | some taken => exact (nothing since taken.1 taken.2 rfl received).elim

theorem pass_inv {time : Nat} (inv : Inv s) (silent : quiet vt s = true)
    (waits : s.waitsUntil (s.now + time) = true) (timely : Timely s time) : Inv { s with now := s.now + time } where
  alive := inv.alive
  unasked := inv.unasked
  owner := inv.owner
  output := inv.output
  reader deadline known := by
    obtain ⟨event, rest, seen, publishing⟩ := publishing_of_full inv silent known
    exact timely.send event rest seen deadline publishing known
  unfailing := inv.unfailing
  forward := inv.forward
  input := inv.input
  slots := inv.slots
  room := inv.room
  fed := inv.fed
  deadline deadline known := by
    cases forward : s.forward with
    | finished => rw [forward] at known; cases known
    | failed error => exact (inv.forward error forward).elim
    | writing eof since =>
      rw [forward] at known
      cases known
      exact timely.write eof since forward
    | finishing since =>
      rw [forward] at known
      cases known
      exact timely.finish since forward
    | waiting since =>
      rw [forward] at known
      cases known
      rcases inv.owner with selecting | ⟨event, rest, seen, publishing⟩
      · have soon : s.now + time ≤ s.nextTick := by
          simp only [Run.waitsUntil, Run.tick, selecting, Bool.and_eq_true, Option.all_some, decide_eq_true_eq] at waits
          exact waits.2
        -- the next heartbeat comes before four more minutes are over
        calc s.now + time ≤ s.nextTick := soon
          _ ≤ since + HEARTBEAT := inv.heart since forward (queue_empty silent forward)
          _ < since + EXEC_STREAM_IDLE_TIMEOUT := Nat.add_lt_add_left (by decide) since
      · exact timely.idle event rest seen since publishing forward
  tick := inv.tick.trans (Nat.add_le_add_right (Nat.le_add_right _ _) HEARTBEAT)
  heart := inv.heart

/-! The steps of the others. -/

theorem types_inv {request : ExecRequest} (inv : Inv s) (taken : step vt s (.types request) = some t) : Inv t := by
  obtain ⟨resize, admitted, sent⟩ := Option.bind_eq_some_iff.mp taken
  obtain ⟨input, queued, rfl⟩ := Option.map_eq_some_iff.mp sent
  obtain ⟨_, queue, reserved, unclosed, capacity⟩ := Channel.trySend_some queued
  have current : checkProtocol request.protocolVersion = .ok () := by
    unfold admissible at admitted
    split at admitted
    next current _ _ => exact current
    next => cases admitted
  exact { inv with
    input := fun other member => by
      rw [queue, List.mem_append, List.mem_singleton] at member
      rcases member with before | rfl
      · exact inv.input other before
      · exact current
    slots := ⟨capacity.trans inv.slots.1, reserved.trans inv.slots.2⟩
    fed := inv.fed.imp_right unclosed.trans
    heart := fun since waiting empty => by
      rw [queue] at empty
      exact (List.append_ne_nil_of_right_ne_nil _ (List.cons_ne_nil request []) empty).elim }

/-- The task that feeds the terminal is over, for good. -/
theorem Inv.finished (inv : Inv s) : Inv (s.fed .finished) :=
  { inv with
    forward := fun error => nofun
    input := fun _ member => by cases member
    slots := inv.slots
    fed := .inl rfl
    deadline := fun _ known => by cases known
    heart := fun _ waiting => by cases waiting }

/-- The terminal takes the input that was being written. -/
theorem accepts_inv (inv : Inv s) (taken : step vt s .accepts = some t) : Inv t := by
  simp only [step] at taken
  split at taken
  next eof since writing =>
    cases taken
    have unclosed := inv.unclosed (by rw [writing]; rintro ⟨⟩)
    have later (limit : Nat) (some : 0 < limit) : s.now < s.now + limit := Nat.lt_add_of_pos_right some
    cases eof with
    | true =>
      exact { inv with
        forward := fun error => nofun
        fed := .inr unclosed
        deadline := fun _ known => by cases known; exact later _ (by decide)
        heart := fun _ waiting => by cases waiting }
    | false =>
      exact { inv with
        forward := fun error => nofun
        fed := .inr unclosed
        deadline := fun _ known => by cases known; exact later _ (by decide)
        heart := fun _ waiting _ => by cases waiting; exact inv.tick }
  next since finishing => exact Option.some.inj taken ▸ inv.finished
  next => cases taken

theorem step_sound {a : Action} (inv : Inv s) (definite : Definite s a) (taken : step vt s a = some t) : Sound t := by
  cases a with
  | task action => exact taskStep_sound inv taken
  | pass time =>
    simp only [step, Option.ite_none_right_eq_some, Option.some.injEq, Bool.and_eq_true] at taken
    obtain ⟨⟨silent, waits⟩, rfl⟩ := taken
    exact .inr (pass_inv inv silent waits definite)
  | attach v created rows cols =>
    simp only [step] at taken
    split at taken
    next =>
      simp only [Option.ite_none_right_eq_some, Option.some.injEq] at taken
      obtain ⟨_, rfl⟩ := taken
      exact .inr { inv with }
    next => cases taken
  | requestResize size => exact .inr (Option.some.inj taken ▸ inv.offers rfl)
  | types request => exact .inr (types_inv inv taken)
  | reject v request =>
    simp only [step] at taken
    split at taken
    next => exact .inr (Option.some.inj taken ▸ { inv with })
    next => cases taken
  | reads v =>
    obtain ⟨output, _, read⟩ := Option.bind_eq_some_iff.mp taken
    obtain ⟨rest, _, rfl⟩ := Option.map_eq_some_iff.mp read
    exact .inr { inv with }
  | disconnects v =>
    obtain ⟨output, _, rfl⟩ := Option.map_eq_some_iff.mp taken
    exact .inr { inv with }
  | closeRequest => exact .inl (Option.some.inj taken ▸ .inl rfl)
  | shutDown => exact .inl (Option.some.inj taken ▸ .inr (.inr rfl))
  | prints bytes eof =>
    simp only [step] at taken
    split at taken
    next =>
      cases taken
      exact .inr { inv with
        reader := fun _ known => by cases known; exact Nat.lt_add_of_pos_right (by decide)
        unfailing := fun _ _ => nofun }
    next => cases taken
  | hangsUp =>
    simp only [step] at taken
    split at taken
    next =>
      cases taken
      exact .inr { inv with
        reader := fun _ known => by cases known
        unfailing := fun _ _ => nofun }
    next => cases taken
  | accepts => exact .inr (accepts_inv inv taken)
  | exits =>
    simp only [step] at taken
    split at taken
    next => cases taken
    next => exact .inl (Option.some.inj taken ▸ .inr (.inl rfl))
  | ends =>
    obtain ⟨inputFinished, waiting⟩ := inv.alive.2
    simp only [step, waiting] at taken
    cases taken
  | readFails error => exact definite.elim
  | writeFails error => exact definite.elim
  | resizeFails error => exact definite.elim

/-- What has happened is not undone. -/
theorem taskStep_permitted {a : TaskAction} (permitted : Permitted s) (taken : taskStep vt s a = some t) :
    Permitted t := by
  cases a <;> simp only [taskStep, ownerStep, readerStep, forwardStep, workerStep] at taken <;>
    grind [Run.fed, Run.kill, Permitted, Option.map_eq_some_iff]

theorem step_permitted {a : Action} (permitted : Permitted s) (taken : step vt s a = some t) : Permitted t := by
  cases a with
  | task action => exact taskStep_permitted permitted taken
  | _ => simp only [step] at taken; grind [Run.fed, Permitted, Option.map_eq_some_iff, Option.bind_eq_some_iff]

theorem initial_inv (first : ExecRequest) (createdUnix : Nat) : Inv (initial vt first createdUnix) where
  alive := ⟨rfl, false, rfl⟩
  unasked := rfl
  owner := .inl rfl
  output := ⟨rfl, rfl⟩
  reader _ known := by cases known
  unfailing _ _ := nofun
  forward error := forwards_unfailed 0 first error
  input _ member := by cases member
  slots := ⟨rfl, rfl⟩
  room := ⟨rfl, rfl⟩
  fed := .inr rfl
  deadline _ known := forwards_deadline known
  tick := Nat.zero_le _
  heart _ _ _ := Nat.zero_le _

end Proofs

section Result
variable {Screen : Type}

/-- The agent kills the process group only after a close request, the exit of the child or a shutdown. -/
theorem killed_permitted (vt : Vt100 Screen) (first : ExecRequest) (createdUnix : Nat) {s : Run Screen}
    (reached : (system vt first createdUnix).ReachableBy Definite s) (killed : s.killed = true) :
    s.closed = true ∨ s.exited = true ∨ s.shutdown = true := by
  have sound : Sound s := by
    refine reached.invariant (fun s start => ?_) fun s a t sound definite taken => ?_
    · obtain ⟨_, rfl⟩ := start
      exact .inr (initial_inv first createdUnix)
    · rcases sound with permitted | inv
      · exact .inl (step_permitted permitted taken)
      · exact step_sound inv definite taken
  rcases sound with permitted | inv
  · exact permitted
  · rw [inv.alive.1] at killed
    cases killed

end Result

section Sample

/-- The program prints, and the owner takes the event. -/
def printing : List Action := [.prints (ascii "x") false, .task .sends, .task .receives]

/-- It reaches the only viewer. -/
def shown : List Action := printing ++ [.task .delivers, .task .returns]

/-- A viewer is attached and reads nothing. The 65th event finds its queue full, and five minutes later the
input task, which has had no heartbeat, gives up. -/
def stalled : List Action :=
  [.attach 0 true 24 80, .task .ticks, .task .takes] ++ (List.replicate 64 shown).flatten ++ printing ++
    [.pass EXEC_STREAM_IDLE_TIMEOUT, .task .idleExpires, .task .seesInput]

theorem stalled_viewer_kills : ∃ s, (system transcript shell 0).Reachable s ∧ s.killed = true ∧
    ¬(s.closed = true ∨ s.exited = true ∨ s.shutdown = true) := by
  have last : ((system transcript shell 0).run (initial transcript shell 0) stalled).map
      (fun s => (s.killed, s.closed, s.exited, s.shutdown)) = some (true, false, false, false) := by decide +kernel
  obtain ⟨s, ran, flags⟩ := Option.map_eq_some_iff.mp last
  simp only [Prod.mk.injEq] at flags
  have start : (system transcript shell 0).init (initial transcript shell 0) := ⟨⟨shell, shell_normal⟩, rfl⟩
  refine ⟨s, System.reachable_of_run (.start start) ran, flags.1, ?_⟩
  simp [flags]

/-- The same viewer for two minutes, and then a close request. -/
def patient : List Action :=
  [.attach 0 true 24 80, .task .ticks, .task .takes, .pass HEARTBEAT, .task .ticks, .task .takes] ++
    (List.replicate 64 shown).flatten ++ printing ++ [.pass HEARTBEAT, .closeRequest, .task .closes, .task .seesClosed]

def timely (s : Run ((Nat × Nat) × Bytes)) : Action → Bool
  | .pass time => s.forward.deadline.all (s.now + time < ·) && s.reader.deadline.all (s.now + time < ·)
  | .readFails _ | .writeFails _ | .resizeFails _ => false
  | _ => true

theorem timely_sound (s : Run ((Nat × Nat) × Bytes)) (a : Action) (checked : timely s a = true) : Definite s a := by
  cases a with
  | pass time =>
    simp only [timely, Bool.and_eq_true, Option.all_eq_true, decide_eq_true_eq] at checked
    exact ⟨fun _ _ writing => checked.1 _ (by rw [writing]; rfl),
      fun _ finishing => checked.1 _ (by rw [finishing]; rfl),
      fun _ _ _ _ _ waiting => checked.1 _ (by rw [waiting]; rfl), fun _ _ _ _ _ known => checked.2 _ known⟩
  | readFails => cases checked
  | writeFails => cases checked
  | resizeFails => cases checked
  | _ => trivial

theorem patient_viewer_closed : ∃ s, (system transcript shell 0).ReachableBy Definite s ∧ s.killed = true ∧
    (s.closed = true ∨ s.exited = true ∨ s.shutdown = true) := by
  have last : ((system transcript shell 0).runBy timely (initial transcript shell 0) patient).map (·.killed) =
      some true := by decide +kernel
  obtain ⟨s, ran, killed⟩ := Option.map_eq_some_iff.mp last
  have start : (system transcript shell 0).init (initial transcript shell 0) := ⟨⟨shell, shell_normal⟩, rfl⟩
  have reached := System.reachableBy_of_runBy timely_sound (.start start) ran
  exact ⟨s, reached, killed, killed_permitted transcript shell 0 reached killed⟩

end Sample

end Pbox.Agent.Durable
