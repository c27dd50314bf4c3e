import Pbox.Agent.ExecOutput
import Pbox.Lib.FixedBuffer

/-! `send_output` by itself: what becomes of the bytes that its reads return. One buffer takes the output of several
reads on a terminal, as long as they are small and come within a moment of each other. -/

namespace Pbox.Agent.SendOutput
open Pbox.Lib.Strings Pbox.Lib.FixedBuffer Pbox.Lib.Transition Pbox.Agent.Session Pbox.Agent.ExecStream
  Pbox.Agent.ExecOutput

def EIO : Int := 5

structure ReadError where
  rawOsError : Option Int
  message : Text
  deriving DecidableEq

def ReadError.isEio (error : ReadError) : Bool := error.rawOsError == some EIO

/-- Where the task stands. It is refused when a consumer has gone away or does not take an event in time. -/
inductive Pc where
  | reading
  | coalescing (size : Nat)
  | sending (size : Nat) (eof : Bool)
  | reporting (error : Status)
  | ended
  | refused
  deriving DecidableEq

/-- `events` is what the task has sent, `returned` everything that its reads have returned. -/
structure Task where
  buffer : Buffer UInt8 bufferSize
  pc : Pc
  events : List Delivery
  failure : Bool
  returned : Bytes

inductive Action where
  | returns (data : Bytes)
  | eof
  | fails (error : ReadError)
  | deadline
  | sends
  | refuses
  deriving DecidableEq

section Step
variable (pty : Bool) (stream : Stream)

/-- Where a read puts its bytes, if the task reads. -/
def Pc.offset : Pc → Option Nat
  | .reading => some 0
  | .coalescing size => some size
  | _ => none

/-- After a read: small output of a terminal waits for more. -/
def afterRead (size : Nat) : Pc :=
  if pty = true ∧ size < PTY_OUTPUT_COALESCE_SIZE then .coalescing size else .sending size false

def report (error : ReadError) : Pc := .reporting ⟨.internal, error.message⟩

def step (task : Task) : Action → Option Task
  | .returns data => task.pc.offset.bind fun offset =>
    if fits : offset + data.length ≤ bufferSize then
      -- A read of nothing is the end of the file.
      if data = [] then none
      else some { task with
        buffer := task.buffer.write offset data fits
        pc := afterRead pty (offset + data.length)
        returned := task.returned ++ data }
    else none
  | .eof =>
    match task.pc with
    | .reading => some { task with pc := .ended }
    | .coalescing size => some { task with pc := .sending size true }
    | _ => none
  | .fails error =>
    match task.pc with
    | .reading => some { task with pc := if pty && error.isEio then .ended else report error }
    | .coalescing size => some { task with pc := if error.isEio then .sending size true else report error }
    | _ => none
  | .deadline =>
    match task.pc with
    | .coalescing size => some { task with pc := .sending size false }
    | _ => none
  | .sends =>
    match task.pc with
    | .sending size eof => some { task with
        pc := if eof then .ended else .reading
        events := task.events ++ [.ok ⟨some (stream.event (task.buffer.front size))⟩] }
    | .reporting error => some { task with
        pc := .ended
        events := task.events ++ [.error error]
        failure := true }
    | _ => none
  | .refuses =>
    match task.pc with
    | .sending _ _ | .reporting _ => some { task with pc := .refused, failure := true }
    | _ => none

/-- Without a reader there is nothing to do. -/
def start (reader : Bool) : Task where
  buffer := Buffer.fill bufferSize 0
  pc := if reader then .reading else .ended
  events := []
  failure := false
  returned := []

def system (reader : Bool) : System Task Action where
  init task := task = start reader
  step := step pty stream

end Step

/-- Whether the task is through with its output: it ends, or has an error to report. -/
def Pc.closed : Pc → Bool
  | .reporting _ => true
  | .ended => true
  | _ => false

/-- The events of a stream are data of its kind, none of them empty or larger than the buffer. -/
def Framed (stream : Stream) (events : List Delivery) : Prop :=
  ∀ event, .ok event ∈ events →
    ∃ chunk : Bytes, event = ⟨some (stream.event chunk)⟩ ∧ chunk ≠ [] ∧ chunk.length ≤ bufferSize

/-- Everything that was read has been sent, in order, by the time the task is through with its output. -/
structure Complete (stream : Stream) (task : Task) : Prop where
  framed : Framed stream task.events
  whole : task.pc.closed = true → payload stream task.events = task.returned

/-- A read that fails while the task waits for more output, other than by the end of a terminal. -/
def Drops (task : Task) : Action → Prop
  | .fails error => (∃ size, task.pc = .coalescing size) ∧ error.isEio = false
  | _ => False

instance (task : Task) : (action : Action) → Decidable (Drops task action)
  | .fails error => match place : task.pc with
    | .coalescing size => decidable_of_iff (error.isEio = false)
        ⟨fun other => ⟨⟨size, place⟩, other⟩, fun drops => drops.2⟩
    | .reading | .sending _ _ | .reporting _ | .ended | .refused =>
      isFalse fun drops => by
        obtain ⟨size, waiting⟩ := drops.1
        rw [place] at waiting
        cases waiting
  | .returns _ | .eof | .deadline | .sends | .refuses => isFalse id

/-- What the task has read and not sent yet. -/
def Pc.pending (pc : Pc) (buffer : Buffer UInt8 bufferSize) : Bytes :=
  match pc with
  | .coalescing size => buffer.front size
  | .sending size _ => buffer.front size
  | _ => []

/-- How much of the buffer counts, where some of it does. -/
def Pc.filled : Pc → Option Nat
  | .coalescing size => some size
  | .sending size _ => some size
  | _ => none

structure Inv (stream : Stream) (task : Task) : Prop where
  framed : Framed stream task.events
  filled : ∀ size, task.pc.filled = some size → 0 < size ∧ size ≤ bufferSize
  balance : task.pc.closed = false → task.pc ≠ .refused →
    payload stream task.events ++ task.pc.pending task.buffer = task.returned

variable {pty : Bool} {stream : Stream} {task after : Task} {action : Action}

theorem payload_sent (events : List Delivery) (event : Delivery) :
    payload stream (events ++ [event]) = payload stream events ++ chunkOf stream event := by
  unfold payload
  rw [List.flatMap_append, List.flatMap_singleton]

theorem Framed.sent {events : List Delivery} {chunk : Bytes} (framed : Framed stream events) (solid : chunk ≠ [])
    (fits : chunk.length ≤ bufferSize) : Framed stream (events ++ [.ok ⟨some (stream.event chunk)⟩]) := by
  intro event member
  cases List.mem_append.mp member with
  | inl earlier => exact framed event earlier
  | inr last =>
    have same := List.mem_singleton.mp last
    rw [Except.ok.injEq] at same
    exact ⟨chunk, same, solid, fits⟩

theorem Framed.reported {events : List Delivery} (error : Status) (framed : Framed stream events) :
    Framed stream (events ++ [.error error]) := by
  intro event member
  cases List.mem_append.mp member with
  | inl earlier => exact framed event earlier
  | inr last => cases List.mem_singleton.mp last

theorem Pc.pending_offset {pc : Pc} {offset : Nat} (reads : pc.offset = some offset)
    (buffer : Buffer UInt8 bufferSize) : pc.pending buffer = buffer.front offset := by
  cases pc with
  | reading =>
    cases reads
    rfl
  | coalescing size =>
    cases reads
    rfl
  | _ => cases reads

theorem Pc.reads_open {pc : Pc} {offset : Nat} (reads : pc.offset = some offset) :
    pc.closed = false ∧ pc ≠ .refused := by
  cases pc with
  | reading => exact ⟨rfl, nofun⟩
  | coalescing size => exact ⟨rfl, nofun⟩
  | _ => cases reads

theorem afterRead_filled (size : Nat) : (afterRead pty size).filled = some size := by
  unfold afterRead
  split <;> rfl

theorem afterRead_pending (size : Nat) (buffer : Buffer UInt8 bufferSize) :
    (afterRead pty size).pending buffer = buffer.front size := by
  unfold afterRead
  split <;> rfl

theorem afterRead_closed (size : Nat) : (afterRead pty size).closed = false := by
  unfold afterRead
  split <;> rfl

/-- What a step can do: a read returns bytes; output ends or fails while nothing waits; bytes that wait are put up for
sending, or are thrown away; an event or an error is sent, or is not taken. -/
inductive Takes (pty : Bool) (stream : Stream) (task : Task) : Action → Task → Prop
  | returns {data : Bytes} {offset : Nat} (reads : task.pc.offset = some offset) (solid : data ≠ [])
      (fits : offset + data.length ≤ bufferSize) :
      Takes pty stream task (.returns data) { task with
        buffer := task.buffer.write offset data fits
        pc := afterRead pty (offset + data.length)
        returned := task.returned ++ data }
  | stops {action : Action} {pc : Pc} (place : task.pc = .reading) (shut : pc.closed = true) :
      Takes pty stream task action { task with pc := pc }
  | settles {action : Action} {size : Nat} (eof : Bool) (place : task.pc = .coalescing size)
      (harmless : ¬ Drops task action) : Takes pty stream task action { task with pc := .sending size eof }
  | drops {error : ReadError} {size : Nat} (place : task.pc = .coalescing size) (other : error.isEio = false) :
      Takes pty stream task (.fails error) { task with pc := report error }
  | sends {size : Nat} {eof : Bool} (place : task.pc = .sending size eof) :
      Takes pty stream task .sends { task with
        pc := if eof then .ended else .reading
        events := task.events ++ [.ok ⟨some (stream.event (task.buffer.front size))⟩] }
  | reports {error : Status} (place : task.pc = .reporting error) :
      Takes pty stream task .sends { task with
        pc := .ended, events := task.events ++ [.error error], failure := true }
  | refuses : Takes pty stream task .refuses { task with pc := .refused, failure := true }

theorem step_returns {data : Bytes} (taken : step pty stream task (.returns data) = some after) :
    Takes pty stream task (.returns data) after := by
  obtain ⟨offset, reads, body⟩ := Option.bind_eq_some_iff.mp taken
  split at body
  next fits =>
    split at body
    next => cases body
    next solid =>
      cases body
      exact .returns reads solid fits
  next => cases body

theorem step_fails {error : ReadError} (taken : step pty stream task (.fails error) = some after) :
    Takes pty stream task (.fails error) after := by
  cases place : task.pc with
  | reading =>
    simp only [step, place, Option.some.injEq] at taken
    subst taken
    apply Takes.stops place
    split <;> rfl
  | coalescing size =>
    simp only [step, place, Option.some.injEq] at taken
    subst taken
    cases eio : error.isEio with
    | false => exact .drops place eio
    | true =>
      apply Takes.settles true place
      intro drops
      rw [drops.2] at eio
      cases eio
  | _ => simp [step, place] at taken

theorem step_takes (taken : step pty stream task action = some after) : Takes pty stream task action after := by
  cases action with
  | returns data => exact step_returns taken
  | fails error => exact step_fails taken
  | eof =>
    cases place : task.pc with
    | reading =>
      simp only [step, place, Option.some.injEq] at taken
      subst taken
      exact .stops place rfl
    | coalescing size =>
      simp only [step, place, Option.some.injEq] at taken
      subst taken
      exact .settles true place id
    | _ => simp [step, place] at taken
  | deadline =>
    cases place : task.pc with
    | coalescing size =>
      simp only [step, place, Option.some.injEq] at taken
      subst taken
      exact .settles false place id
    | _ => simp [step, place] at taken
  | sends =>
    cases place : task.pc with
    | sending size eof =>
      simp only [step, place, Option.some.injEq] at taken
      subst taken
      exact .sends place
    | reporting error =>
      simp only [step, place, Option.some.injEq] at taken
      subst taken
      exact .reports place
    | _ => simp [step, place] at taken
  | refuses =>
    cases place : task.pc with
    | sending size eof =>
      simp only [step, place, Option.some.injEq] at taken
      subst taken
      exact .refuses
    | reporting error =>
      simp only [step, place, Option.some.injEq] at taken
      subst taken
      exact .refuses
    | _ => simp [step, place] at taken

/-- What a task has sent, beside what it still has to send, is what its reads have returned. -/
theorem Inv.balanced {pc : Pc} (inv : Inv stream task) (place : task.pc = pc) (open_ : pc.closed = false)
    (unrefused : pc ≠ .refused) :
    payload stream task.events ++ pc.pending task.buffer = task.returned := by
  subst place
  exact inv.balance open_ unrefused

theorem Inv.solid {size : Nat} (inv : Inv stream task) (filled : task.pc.filled = some size) :
    task.buffer.front size ≠ [] ∧ (task.buffer.front size).length ≤ bufferSize := by
  obtain ⟨counts, fits⟩ := inv.filled size filled
  have length := task.buffer.length_front fits
  constructor
  · intro empty
    rw [empty, List.length_nil] at length
    omega
  · omega

theorem Pc.unfilled {pc : Pc} (shut : pc.closed = true) : pc.filled = none := by
  cases pc with
  | coalescing size => cases shut
  | sending size eof => cases shut
  | _ => rfl

theorem Inv.next (inv : Inv stream task) (takes : Takes pty stream task action after) : Inv stream after := by
  cases takes with
  | @returns data offset reads solid fits =>
    have counted := List.length_pos_iff.mpr solid
    obtain ⟨running, unrefused⟩ := Pc.reads_open reads
    constructor
    · exact inv.framed
    · intro size filled
      rw [afterRead_filled, Option.some.injEq] at filled
      omega
    · intro _ _
      have before := inv.balance running unrefused
      rw [Pc.pending_offset reads] at before
      dsimp only
      rw [afterRead_pending, Buffer.front_write, ← List.append_assoc, before]
  | stops place shut =>
    constructor
    · exact inv.framed
    · intro size filled
      rw [Pc.unfilled shut] at filled
      cases filled
    · intro open_
      rw [shut] at open_
      cases open_
  | settles eof place =>
    constructor
    · exact inv.framed
    · intro size filled
      apply inv.filled size
      rw [place]
      exact filled
    · intro _ _
      have before := inv.balanced place rfl nofun
      exact before
  | drops place other =>
    constructor
    · exact inv.framed
    · intro size filled
      cases filled
    · intro open_
      cases open_
  | @sends size eof place =>
    obtain ⟨solid, fits⟩ := inv.solid (by rw [place]; rfl)
    constructor
    · exact inv.framed.sent solid fits
    · intro count filled
      cases eof <;> cases filled
    · intro open_ _
      cases eof with
      | true => cases open_
      | false =>
        dsimp only
        rw [payload_sent, chunkOf_event, ← inv.balanced place rfl nofun]
        exact List.append_nil _
  | @reports error place =>
    constructor
    · exact inv.framed.reported error
    · intro size filled
      cases filled
    · intro open_
      cases open_
  | refuses =>
    constructor
    · exact inv.framed
    · intro size filled
      cases filled
    · intro _ unrefused
      exact absurd rfl unrefused

/-- A step keeps the account of the output exactly when it throws nothing away. -/
theorem complete_next_iff (inv : Inv stream task) (complete : Complete stream task)
    (takes : Takes pty stream task action after) : Complete stream after ↔ ¬ Drops task action := by
  have kept := inv.next takes
  cases takes with
  | returns reads solid fits =>
    refine ⟨fun _ drops => drops, fun _ => ⟨kept.framed, fun shut => ?_⟩⟩
    rw [afterRead_closed] at shut
    cases shut
  | @stops action pc place shut =>
    refine ⟨fun _ drops => ?_, fun _ => ⟨kept.framed, fun _ => ?_⟩⟩
    · cases action with
      | fails error =>
        obtain ⟨size, waiting⟩ := drops.1
        rw [place] at waiting
        cases waiting
      | _ => exact drops
    · have balance := inv.balanced place rfl nofun
      exact (List.append_nil _).symm.trans balance
  | settles eof place harmless =>
    exact ⟨fun _ => harmless, fun _ => ⟨kept.framed, nofun⟩⟩
  | @drops error size place other =>
    refine ⟨fun complete _ => ?_, fun harmless => absurd ⟨⟨size, place⟩, other⟩ harmless⟩
    have balance := inv.balanced place rfl nofun
    have whole := complete.whole rfl
    have solid := (inv.solid (by rw [place]; rfl)).1
    apply solid
    rw [← whole] at balance
    exact List.append_right_eq_self.mp balance
  | @sends size eof place =>
    refine ⟨fun _ drops => drops, fun _ => ⟨kept.framed, fun _ => ?_⟩⟩
    dsimp only
    rw [payload_sent, chunkOf_event]
    exact inv.balanced place rfl nofun
  | @reports error place =>
    refine ⟨fun _ drops => drops, fun _ => ⟨kept.framed, fun _ => ?_⟩⟩
    have whole := complete.whole (by rw [place]; rfl)
    dsimp only
    rw [payload_sent, whole]
    cases stream <;> exact List.append_nil _
  | refuses => exact ⟨fun _ drops => drops, fun _ => ⟨kept.framed, nofun⟩⟩

theorem start_inv (stream : Stream) (reader : Bool) : Inv stream (start reader) where
  framed event member := by cases member
  filled size filled := by cases reader <;> cases filled
  balance _ _ := by cases reader <;> rfl

theorem start_complete (stream : Stream) (reader : Bool) : Complete stream (start reader) where
  framed event member := by cases member
  whole _ := rfl

/-- The end of the output, whatever it is, ends the task after one more event at most. -/
theorem ending_ends (taken : step pty stream task action = some after)
    (ending : action = .eof ∨ ∃ error, action = .fails error) :
    after.pc = .ended ∨ ∃ last, step pty stream after .sends = some last ∧ last.pc = .ended := by
  cases place : task.pc with
  | reading =>
    cases ending with
    | inl eof =>
      subst eof
      simp only [step, place, Option.some.injEq] at taken
      subst taken
      exact .inl rfl
    | inr fails =>
      obtain ⟨error, same⟩ := fails
      subst same
      simp only [step, place, Option.some.injEq] at taken
      subst taken
      cases quiet : pty && error.isEio with
      | true => exact .inl rfl
      | false => exact .inr ⟨_, rfl, rfl⟩
  | coalescing size =>
    cases ending with
    | inl eof =>
      subst eof
      simp only [step, place, Option.some.injEq] at taken
      subst taken
      exact .inr ⟨_, rfl, rfl⟩
    | inr fails =>
      obtain ⟨error, same⟩ := fails
      subst same
      simp only [step, place, Option.some.injEq] at taken
      subst taken
      cases quiet : error.isEio with
      | true => exact .inr ⟨_, rfl, rfl⟩
      | false => exact .inr ⟨_, rfl, rfl⟩
  | _ =>
    cases ending with
    | inl eof => simp [step, place, eof] at taken
    | inr fails =>
      obtain ⟨error, same⟩ := fails
      simp [step, place, same] at taken

/-- Along a run the task accounts for all that it has read exactly as long as no read fails while output waits. -/
theorem output_complete_iff (pty : Bool) (stream : Stream) (reader : Bool) {actions : List Action} {task : Task}
    (runs : (system pty stream reader).run (start reader) actions = some task) :
    (system pty stream reader).Throughout (Complete stream) (start reader) actions ↔
      (system pty stream reader).Stepwise (fun task action => ¬ Drops task action) (start reader) actions := by
  apply System.throughout_iff _ _ (start_inv stream reader) (start_complete stream reader) runs
  · intro before action after inv taken
    exact inv.next (step_takes taken)
  · intro before action after inv complete taken
    exact complete_next_iff inv complete (step_takes taken)

/-- Two small reads of a terminal go out together, and the third when the terminal is gone. -/
def typing : List Action :=
  [.returns (ascii "l"), .returns (ascii "s"), .deadline, .sends, .returns (ascii "$"), .fails ⟨some EIO, []⟩, .sends]

theorem typing_complete :
    (system true .stdout true).Throughout (Complete .stdout) (start true) typing := by
  obtain ⟨task, runs⟩ := Option.isSome_iff_exists.mp
    (show ((system true .stdout true).run (start true) typing).isSome = true by decide)
  have sound : ∀ task action, decide (¬ Drops task action) = true → ¬ Drops task action :=
    fun task action => of_decide_eq_true
  exact (output_complete_iff true .stdout true runs).mpr (System.stepwise_of_runBy sound (by decide))

theorem failed_read_drops_output :
    ((system true .stdout true).run (start true) [.returns (ascii "ls"), .fails ⟨some 6, []⟩, .sends]).map
      (fun task => (task.pc, payload .stdout task.events, task.returned)) = some (.ended, [], ascii "ls") := by
  decide

end Pbox.Agent.SendOutput
