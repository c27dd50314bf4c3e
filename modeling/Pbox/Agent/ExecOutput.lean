import Pbox.Agent.ExecStream

/-! What an exit event says about the output before it. Every byte a command writes is in the
stream, with a reader or in a pipe; an exit is truthful when the readers and the pipes are empty
by the time it is sent. A reader that is aborted while it waits for a slow client, or that gives
up a send, loses its bytes, and the exit follows all the same. -/

namespace Pbox.Agent.ExecOutput
open Pbox.Lib.Channel Pbox.Lib.Pipe Pbox.Lib.Transition Pbox.Agent.Session Pbox.Agent.ExecStream

def chunkOf : Stream → Delivery → Bytes
  | .stdout, .ok ⟨some (.stdout bytes)⟩ => bytes
  | .stderr, .ok ⟨some (.stderr bytes)⟩ => bytes
  | _, _ => []

/-- The output of one kind that a stream carries. -/
def payload (stream : Stream) (items : List Delivery) : Bytes := items.flatMap (chunkOf stream)

def isExit : Delivery → Bool
  | .ok ⟨some (.exit _ _)⟩ => true
  | _ => false

/-- An exit comes once and last, after all that the command wrote; a stream collected without an
error is complete. -/
structure Truthful (s : Exec) : Prop where
  last : ∀ before item after, s.delivered = before ++ item :: after → isExit item = true →
    after = [] ∧ before.any isExit = false ∧ ∀ stream, payload stream before = (s.output stream).written
  collected : ∀ result, collectExecStream s.delivered {} = .ok result →
    result.stdout = (s.output .stdout).written ∧ result.stderr = (s.output .stderr).written

/-- No send of output is given up while the client is there, and before an exit a reader is
aborted only when it holds nothing and its pipe is drained. -/
def Patient (s : Exec) : Action → Prop
  | .reader _ .sendFails => s.channel.closed = true
  | .waiter .drainTimeout =>
    ∀ stream outcome, s.phase = .draining stream outcome → isExit outcome.report = true →
      (s.output stream).reader = .reading ∧ (s.output stream).pipe.buffered = []
  | _ => True

/-- All that has been put into the stream and not lost with its receiver. -/
def sent (s : Exec) : List Delivery := s.delivered ++ s.channel.queue

/-- The reader has seen the end of its pipe. -/
def atEnd : ReaderPc → Bool
  | .done => true
  | .sending _ eof => eof
  | _ => false

def stopped : ReaderPc → Bool
  | .done | .aborted _ => true
  | _ => false

/-- The readers that the task has finished with. -/
def drained : Phase → Stream → Bool
  | .draining .stderr _, .stdout => true
  | .reporting _, _ => true
  | .finished, _ => true
  | _, _ => false

def outcomeOf : Phase → Option Outcome
  | .draining _ outcome => some outcome
  | .reporting outcome => some outcome
  | _ => none

/-- Where every byte of one output is. -/
structure Accounted (stream : Stream) (output : Output) (items : List Delivery) : Prop where
  total : output.written = payload stream items ++ output.reader.held ++ output.pipe.buffered
  past : atEnd output.reader = true → output.pipe.buffered = [] ∧ output.pipe.ended = true

/-- The exit has been sent, and everything before it. -/
structure Ended (s : Exec) : Prop where
  finished : s.phase = .finished
  exited : s.child.isSome = true
  last : ∃ before item, sent s = before ++ [item] ∧ isExit item = true ∧ before.any isExit = false ∧
    ((sent s).any isError = false → ∀ stream, payload stream before = (s.output stream).written)

/-- What holds of one output. Nothing is said of the bytes once the client is gone or the stream
carries an error. -/
structure OutputInv (stream : Stream) (output : Output) (live : Prop) (items : List Delivery)
    (phase : Phase) (pty : Bool) : Prop where
  accounted : live → Accounted stream output items
  aborted : ∀ lost, output.reader = .aborted lost → drained phase stream = true
  halted : drained phase stream = true → stopped output.reader = true
  promised : ∀ outcome lost, outcomeOf phase = some outcome → isExit outcome.report = true →
    output.reader = .aborted lost → lost = [] ∧ output.pipe.buffered = []
  second : pty = true → stream = .stderr → output.reader = .done

/-- The client is there and no error is in the stream. -/
def Live (s : Exec) : Prop := s.channel.closed = false ∧ (sent s).any isError = false

structure Inv (s : Exec) : Prop where
  outputs : ∀ stream, OutputInv stream (s.output stream) (Live s) (sent s) s.phase s.pty
  promised : ∀ outcome, outcomeOf s.phase = some outcome → isExit outcome.report = true →
    s.child.isSome = true
  exits : (sent s).any isExit = false ∨ Ended s
  order : s.delivered.dropLast.any isError = false

section Items
variable {stream : Stream} {items : List Delivery} {item : Delivery}

@[simp] theorem payload_nil : payload stream [] = [] := rfl

@[simp] theorem payload_append (others : List Delivery) :
    payload stream (items ++ others) = payload stream items ++ payload stream others :=
  List.flatMap_append

@[simp] theorem payload_cons :
    payload stream (item :: items) = chunkOf stream item ++ payload stream items := rfl

@[simp] theorem chunkOf_error (error : Status) : chunkOf stream (.error error) = [] := by
  cases stream <;> rfl

theorem chunkOf_event (chunk : Bytes) : chunkOf stream (.ok ⟨some (stream.event chunk)⟩) = chunk := by
  cases stream <;> rfl

theorem chunkOf_other {other : Stream} (differ : other ≠ stream) (chunk : Bytes) :
    chunkOf other (.ok ⟨some (stream.event chunk)⟩) = [] := by
  cases stream <;> cases other <;> first | rfl | exact absurd rfl differ

theorem chunkOf_report (outcome : Outcome) : chunkOf stream outcome.report = [] := by
  rcases outcome with ⟨_ | _ | _, _ | _⟩ <;> cases stream <;> rfl

theorem isError_of_exit (exit : isExit item = true) : isError item = false := by
  rcases item with _ | _
  · cases exit
  · rfl

theorem isExit_event (chunk : Bytes) : isExit (.ok ⟨some (stream.event chunk)⟩) = false := by
  cases stream <;> rfl

end Items

section Output
variable {stream : Stream} {output : Output} {live : Prop} {items : List Delivery} {phase : Phase}
  {pty : Bool}

theorem OutputInv.write {pipe : Pipe UInt8} {bytes : Bytes}
    (inv : OutputInv stream output live items phase pty) (wrote : output.pipe.write bytes = some pipe)
    (unpromised : ∀ outcome, outcomeOf phase = some outcome → isExit outcome.report = true → False) :
    OutputInv stream { output with pipe := pipe, written := output.written ++ bytes } live items phase
      pty where
  accounted alive := by
    obtain ⟨_, unended, buffered, _, _⟩ := Pipe.write_some wrote
    have before := inv.accounted alive
    refine ⟨?_, fun past => ?_⟩
    · show output.written ++ bytes = payload stream items ++ output.reader.held ++ pipe.buffered
      rw [before.total, buffered]
      simp only [List.append_assoc]
    · have ended := (before.past past).2
      rw [unended] at ended
      cases ended
  aborted := inv.aborted
  halted := inv.halted
  promised outcome _ comes exit _ := (unpromised outcome comes exit).elim
  second := inv.second

theorem OutputInv.finish (inv : OutputInv stream output live items phase pty) :
    OutputInv stream { output with pipe := output.pipe.finish } live items phase pty where
  accounted alive :=
    ⟨(inv.accounted alive).total, fun past => ⟨((inv.accounted alive).past past).1, rfl⟩⟩
  aborted := inv.aborted
  halted := inv.halted
  promised := inv.promised
  second := inv.second

/-- A step of a reader that has not stopped. -/
theorem OutputInv.move {output' : Output} {live' : Prop} {items' : List Delivery}
    (inv : OutputInv stream output live items phase pty) (active : stopped output.reader = false)
    (going : ∀ lost, output'.reader ≠ .aborted lost)
    (accounted : live' → Accounted stream output' items') :
    OutputInv stream output' live' items' phase pty where
  accounted := accounted
  aborted lost aborted := absurd aborted (going lost)
  halted past := by
    have still := inv.halted past
    rw [active] at still
    cases still
  promised _ lost _ _ aborted := absurd aborted (going lost)
  second terminal other := by
    have done := inv.second terminal other
    rw [done] at active
    cases active

/-- Something that is not its output has been added to the stream. -/
theorem OutputInv.skip {live' : Prop} {added : List Delivery}
    (inv : OutputInv stream output live items phase pty) (still : live' → live)
    (silent : payload stream added = []) :
    OutputInv stream output live' (items ++ added) phase pty where
  accounted alive := by
    have before := inv.accounted (still alive)
    refine ⟨?_, before.past⟩
    rw [payload_append, silent, List.append_nil]
    exact before.total
  aborted := inv.aborted
  halted := inv.halted
  promised := inv.promised
  second := inv.second

theorem OutputInv.enter {phase' : Phase} (inv : OutputInv stream output live items phase pty)
    (kept : drained phase stream = true → drained phase' stream = true)
    (past : drained phase' stream = true → stopped output.reader = true)
    (promised : ∀ outcome lost, outcomeOf phase' = some outcome → isExit outcome.report = true →
      output.reader = .aborted lost → lost = [] ∧ output.pipe.buffered = []) :
    OutputInv stream output live items phase' pty where
  accounted := inv.accounted
  aborted lost aborted := kept (inv.aborted lost aborted)
  halted := past
  promised := promised
  second := inv.second

/-- The task aborts the reader. -/
theorem OutputInv.abort {phase' : Phase} (inv : OutputInv stream output live items phase pty)
    (running : output.reader ≠ .done) (past : drained phase' stream = true)
    (patient : ∀ outcome, outcomeOf phase' = some outcome → isExit outcome.report = true →
      output.reader = .reading ∧ output.pipe.buffered = []) :
    OutputInv stream { output with reader := .aborted output.reader.held } live items phase' pty where
  accounted alive := ⟨(inv.accounted alive).total, nofun⟩
  aborted _ _ := past
  halted _ := rfl
  promised outcome lost comes exit aborted := by
    obtain ⟨reading, empty⟩ := patient outcome comes exit
    rw [ReaderPc.aborted.injEq, reading] at aborted
    exact ⟨aborted.symm, empty⟩
  second terminal other := absurd (inv.second terminal other) running

/-- A stopped reader of a live stream that an exit is about to close has nothing left. -/
theorem OutputInv.complete (inv : OutputInv stream output live items phase pty) (alive : live)
    (past : drained phase stream = true) {outcome : Outcome} (comes : outcomeOf phase = some outcome)
    (exit : isExit outcome.report = true) : payload stream items = output.written := by
  have account := inv.accounted alive
  have total := account.total
  cases reader : output.reader with
  | done =>
    rw [reader, (account.past (by rw [reader]; rfl)).1] at total
    simpa [ReaderPc.held] using total.symm
  | aborted lost =>
    obtain ⟨nothing, empty⟩ := inv.promised outcome lost comes exit reader
    rw [reader, empty, nothing] at total
    simpa [ReaderPc.held] using total.symm
  | reading | coalescing buffer | sending chunk eof | failing error lost =>
    have still := inv.halted past
    rw [reader] at still
    cases still

end Output

section Command
variable {s t : Exec}

@[simp] theorem setOutput_same (stream : Stream) (output : Output) :
    (setOutput s stream output).output stream = output := Function.update_self ..

theorem setOutput_other {stream other : Stream} (output : Output) (differ : other ≠ stream) :
    (setOutput s stream output).output other = s.output other := Function.update_of_ne differ ..

theorem outputs_set {stream : Stream} {output : Output} {live : Prop} {items : List Delivery}
    {phase : Phase} {pty : Bool} (replaced : OutputInv stream output live items phase pty)
    (others : ∀ other, other ≠ stream → OutputInv other (s.output other) live items phase pty) :
    ∀ other, OutputInv other ((setOutput s stream output).output other) live items phase pty := by
  intro other
  by_cases same : other = stream
  · subst same
    rw [setOutput_same]
    exact replaced
  · rw [setOutput_other output same]
    exact others other same

theorem written_set {stream : Stream} {output : Output}
    (same : output.written = (s.output stream).written) (other : Stream) :
    ((setOutput s stream output).output other).written = (s.output other).written := by
  by_cases equal : other = stream
  · subst equal
    rw [setOutput_same, same]
  · rw [setOutput_other output equal]

theorem inv_command {action : CommandAction} (inv : Inv s) (taken : stepCommand s action = some t) :
    Inv t := by
  cases action with
  | writes stream bytes =>
    simp only [stepCommand] at taken
    split at taken
    next running =>
      obtain ⟨pipe, wrote, rfl⟩ := Option.map_eq_some_iff.mp taken
      have unpromised : ∀ outcome, outcomeOf s.phase = some outcome → isExit outcome.report = true →
          False := fun outcome comes exit => by
        have exited := inv.promised outcome comes exit
        rw [running] at exited
        cases exited
      have outputs := outputs_set ((inv.outputs stream).write wrote unpromised) fun other _ =>
        inv.outputs other
      refine ⟨outputs, inv.promised, inv.exits.imp id fun ended => ?_, inv.order⟩
      have exited := ended.exited
      rw [running] at exited
      cases exited
    next => cases taken
  | hangsUp stream =>
    cases taken
    have outputs := outputs_set (inv.outputs stream).finish fun other _ => inv.outputs other
    refine ⟨outputs, inv.promised, inv.exits.imp id fun ended => ?_, inv.order⟩
    obtain ⟨before, item, whole, exit, first, complete⟩ := ended.last
    refine ⟨ended.finished, ended.exited, before, item, whole, exit, first, fun clean other => ?_⟩
    rw [complete clean other]
    exact Eq.symm (written_set (by rfl) other)
  | exits status =>
    simp only [stepCommand] at taken
    split at taken
    next running =>
      cases taken
      refine ⟨inv.outputs, fun _ _ _ => rfl, inv.exits.imp id fun ended => ?_, inv.order⟩
      exact ⟨ended.finished, rfl, ended.last⟩
    next => cases taken

end Command

section Reader
variable {s t : Exec} {stream : Stream}

theorem sent_grows {channel : Channel Delivery} {added : List Delivery}
    (queue : channel.queue = s.channel.queue ++ added) :
    s.delivered ++ channel.queue = sent s ++ added := by
  rw [queue, sent, List.append_assoc]

/-- The exit is sent only after the readers have stopped. -/
theorem unended (inv : Inv s) (active : stopped (s.output stream).reader = false) :
    (sent s).any isExit = false := by
  refine inv.exits.resolve_right fun ended => ?_
  have still := (inv.outputs stream).halted (by rw [ended.finished]; cases stream <;> rfl)
  rw [active] at still
  cases still

/-- A step of an active reader, with what it puts into the stream. -/
theorem inv_reader_step (output' : Output) (channel : Channel Delivery) (notified : Bool)
    (added : List Delivery) (inv : Inv s) (active : stopped (s.output stream).reader = false)
    (going : ∀ lost, output'.reader ≠ .aborted lost)
    (queue : channel.queue = s.channel.queue ++ added) (closed : channel.closed = s.channel.closed)
    (silent : ∀ other, other ≠ stream → payload other added = [])
    (working : added.any isExit = false)
    (accounted : Live s → added.any isError = false → Accounted stream output' (sent s ++ added)) :
    Inv { setOutput s stream output' with channel := channel, notified := notified } := by
  have whole := sent_grows queue
  have split : channel.closed = false ∧ (s.delivered ++ channel.queue).any isError = false →
      Live s ∧ added.any isError = false := fun ⟨opened, clean⟩ => by
    rw [whole, List.any_append, Bool.or_eq_false_iff] at clean
    exact ⟨⟨closed ▸ opened, clean.1⟩, clean.2⟩
  have outputs := outputs_set
    ((inv.outputs stream).move active going fun live => accounted (split live).1 (split live).2)
    fun other differ => (inv.outputs other).skip (fun live => (split live).1) (silent other differ)
  rw [← whole] at outputs
  refine ⟨outputs, inv.promised, .inl ?_, inv.order⟩
  show (s.delivered ++ channel.queue).any isExit = false
  rw [whole, List.any_append, unended inv active, working]
  rfl

/-- A step of an active reader that sends nothing. -/
theorem inv_reader_move {output' : Output} (inv : Inv s)
    (active : stopped (s.output stream).reader = false)
    (going : ∀ lost, output'.reader ≠ .aborted lost)
    (accounted : Live s → Accounted stream output' (sent s)) : Inv (setOutput s stream output') := by
  have moved := inv_reader_step output' s.channel s.notified [] inv active going
    (List.append_nil _).symm rfl (fun _ _ => rfl) rfl fun live _ => by
      rw [List.append_nil]
      exact accounted live
  exact moved

theorem filling_active {reader : ReaderPc} {buffer : Bytes} (filling : reader.filling = some buffer) :
    stopped reader = false ∧ atEnd reader = false ∧ reader.held = buffer := by
  cases reader with
  | reading => cases filling; exact ⟨rfl, rfl, rfl⟩
  | coalescing held => cases filling; exact ⟨rfl, rfl, rfl⟩
  | sending chunk eof | failing error lost | done | aborted lost => cases filling

theorem afterRead_held (pty : Bool) (buffer : Bytes) :
    (afterRead pty buffer).held = buffer ∧ atEnd (afterRead pty buffer) = false ∧
      ∀ lost, afterRead pty buffer ≠ .aborted lost := by
  unfold afterRead
  split
  · exact ⟨rfl, rfl, nofun⟩
  · exact ⟨rfl, rfl, nofun⟩

theorem inv_reader {action : ReaderAction} (inv : Inv s) (patient : Patient s (.reader stream action))
    (taken : stepReader s stream action = some t) : Inv t := by
  have account : Live s → _ := fun live => (inv.outputs stream).accounted live
  cases action with
  | read count =>
    simp only [stepReader] at taken
    obtain ⟨buffer, filling, reads⟩ := Option.bind_eq_some_iff.mp taken
    obtain ⟨active, _, held⟩ := filling_active filling
    obtain ⟨after, unended, going⟩ :=
      afterRead_held s.pty (buffer ++ ((s.output stream).pipe.read count).1)
    split at reads
    next =>
      cases reads
      refine inv_reader_move inv active going fun live => ⟨?_, fun past => ?_⟩
      · show (s.output stream).written = payload stream (sent s) ++ (afterRead _ _).held ++ _
        rw [after, (account live).total, held]
        simp only [Pipe.read_chunk, Pipe.read_buffered, List.append_assoc, List.take_append_drop]
      · rw [unended] at past
        cases past
    next => cases reads
  | eof =>
    simp only [stepReader] at taken
    split at taken
    next empty =>
      split at taken
      next reader =>
        cases taken
        refine inv_reader_move inv (by rw [reader]; rfl) nofun fun live => ⟨?_, fun _ => empty⟩
        have total := (account live).total
        rw [reader] at total
        exact total
      next buffer reader =>
        cases taken
        refine inv_reader_move inv (by rw [reader]; rfl) nofun fun live => ⟨?_, fun _ => empty⟩
        have total := (account live).total
        rw [reader] at total
        exact total
      next => cases taken
    next => cases taken
  | readFails message =>
    simp only [stepReader] at taken
    obtain ⟨buffer, filling, rfl⟩ := Option.map_eq_some_iff.mp taken
    obtain ⟨active, _, held⟩ := filling_active filling
    refine inv_reader_move inv active nofun fun live => ⟨?_, nofun⟩
    have total := (account live).total
    rw [held] at total
    exact total
  | settle =>
    simp only [stepReader] at taken
    split at taken
    next buffer reader =>
      cases taken
      refine inv_reader_move inv (by rw [reader]; rfl) nofun fun live => ⟨?_, nofun⟩
      have total := (account live).total
      rw [reader] at total
      exact total
    next => cases taken
  | send =>
    simp only [stepReader] at taken
    split at taken
    next chunk eof reader =>
      obtain ⟨channel, sends, rfl⟩ := Option.map_eq_some_iff.mp taken
      obtain ⟨_, queue, _, closed, _⟩ := Channel.trySend_some sends
      have sent := inv_reader_step
        { s.output stream with reader := if eof = true then .done else .reading } channel s.notified _
        inv (by rw [reader]; rfl) (by cases eof <;> exact nofun) queue closed
        (fun other differ => by simp [chunkOf_other differ]) (by simp [isExit_event])
        fun live _ => ⟨?_, fun past => ?_⟩
      · exact sent
      · have total := (account live).total
        rw [reader] at total
        rw [total]
        cases eof <;> simp [chunkOf_event, ReaderPc.held]
      · refine (account live).past ?_
        rw [reader]
        cases eof with
        | true => rfl
        | false => cases past
    next error lost reader =>
      obtain ⟨channel, sends, rfl⟩ := Option.map_eq_some_iff.mp taken
      obtain ⟨_, queue, _, closed, _⟩ := Channel.trySend_some sends
      have sent := inv_reader_step { s.output stream with reader := .done } channel true _ inv
        (by rw [reader]; rfl) nofun queue closed
        (fun other _ => by simp) (by simp [isExit]) fun _ clean => by simp [isError] at clean
      exact sent
    next => cases taken
  | sendFails =>
    have shut : ¬Live s := fun live => by
      have closed := patient
      rw [Patient, live.1] at closed
      cases closed
    have fails : stopped (s.output stream).reader = false →
        Inv { setReader s stream .done with notified := true } := fun active =>
      inv_reader_step _ s.channel true [] inv active nofun (List.append_nil _).symm rfl
        (fun _ _ => rfl) rfl fun live _ => absurd live shut
    simp only [stepReader] at taken
    split at taken
    next reader => cases taken; exact fails (by rw [reader]; rfl)
    next reader => cases taken; exact fails (by rw [reader]; rfl)
    next => cases taken

end Reader

section Waiter
variable {s t : Exec}

/-- The task moves on without touching the outputs or the stream. -/
theorem inv_phase {phase : Phase} (notified : Bool) (inv : Inv s) (unfinished : s.phase ≠ .finished)
    (kept : ∀ stream, drained s.phase stream = true → drained phase stream = true)
    (past : ∀ stream, drained phase stream = true → stopped (s.output stream).reader = true)
    (promised : ∀ outcome, outcomeOf phase = some outcome → isExit outcome.report = true →
      s.child.isSome = true ∧ ∀ stream lost, (s.output stream).reader = .aborted lost →
        lost = [] ∧ (s.output stream).pipe.buffered = []) :
    Inv { s with notified := notified, phase := phase } where
  outputs stream := (inv.outputs stream).enter (kept stream) (past stream)
    fun outcome lost comes exit aborted => (promised outcome comes exit).2 stream lost aborted
  promised outcome comes exit := (promised outcome comes exit).1
  exits := .inl (inv.exits.resolve_right fun ended => unfinished ended.finished)
  order := inv.order

/-- Before the readers are joined none has been aborted. -/
theorem inv_early {phase : Phase} (notified : Bool) (inv : Inv s)
    (early : ∀ stream, drained s.phase stream = false) (later : ∀ stream, drained phase stream = false)
    (exited : ∀ outcome, outcomeOf phase = some outcome → isExit outcome.report = true →
      s.child.isSome = true) : Inv { s with notified := notified, phase := phase } := by
  refine inv_phase notified inv ?_ ?_ ?_ fun outcome comes exit =>
    ⟨exited outcome comes exit, fun stream lost aborted => ?_⟩
  · intro finished
    have never := early .stdout
    rw [finished] at never
    cases never
  · intro stream before
    rw [early stream] at before
    cases before
  · intro stream after
    rw [later stream] at after
    cases after
  · have joined := (inv.outputs stream).aborted lost aborted
    rw [early stream] at joined
    cases joined

theorem afterDrain_outcome (pty : Bool) (outcome : Outcome) (stream : Stream) :
    outcomeOf (afterDrain pty outcome stream) = some outcome := by
  cases stream <;> cases pty <;> rfl

theorem drained_afterDrain (pty : Bool) (outcome : Outcome) (stream : Stream) :
    drained (afterDrain pty outcome stream) stream = true := by
  cases stream <;> cases pty <;> rfl

theorem drained_mono (pty : Bool) (outcome : Outcome) (stream other : Stream)
    (before : drained (.draining stream outcome) other = true) :
    drained (afterDrain pty outcome stream) other = true := by
  cases stream <;> cases other <;> cases pty <;> first | rfl | cases before

/-- Joining a reader finishes with that one; on a terminal there is no other. -/
theorem drained_cases {pty : Bool} {outcome : Outcome} {stream other : Stream}
    (after : drained (afterDrain pty outcome stream) other = true) (differ : other ≠ stream) :
    drained (.draining stream outcome) other = true ∨ pty = true ∧ other = .stderr := by
  cases stream <;> cases other <;> cases pty <;>
    first | exact absurd rfl differ | exact .inl rfl | exact .inr ⟨rfl, rfl⟩ | cases after

theorem halted_others {stream other : Stream} {outcome : Outcome} (inv : Inv s)
    (draining : s.phase = .draining stream outcome) (differ : other ≠ stream)
    (after : drained (afterDrain s.pty outcome stream) other = true) :
    stopped (s.output other).reader = true := by
  rcases drained_cases after differ with before | ⟨terminal, second⟩
  · exact (inv.outputs other).halted (draining ▸ before)
  · rw [(inv.outputs other).second terminal second]
    rfl

theorem inv_joins {stream : Stream} {outcome : Outcome} (inv : Inv s)
    (draining : s.phase = .draining stream outcome) (done : (s.output stream).reader = .done) :
    Inv { s with phase := afterDrain s.pty outcome stream } := by
  have joined := inv_phase s.notified inv (by simp [draining])
    (fun other before => drained_mono s.pty outcome stream other (draining ▸ before))
    (fun other after => ?_) (fun later comes exit => ?_)
  · exact joined
  · by_cases same : other = stream
    · rw [same, done]
      rfl
    · exact halted_others inv draining same after
  · rw [afterDrain_outcome] at comes
    cases comes
    have comes : outcomeOf s.phase = some outcome := by rw [draining]; rfl
    exact ⟨inv.promised outcome comes exit,
      fun other lost => (inv.outputs other).promised outcome lost comes exit⟩

theorem inv_drainTimeout {stream : Stream} {outcome : Outcome} (inv : Inv s)
    (patient : Patient s (.waiter .drainTimeout)) (draining : s.phase = .draining stream outcome)
    (running : (s.output stream).reader ≠ .done) :
    Inv { setReader s stream (.aborted (s.output stream).reader.held) with
      phase := afterDrain s.pty outcome stream } := by
  have comes : outcomeOf s.phase = some outcome := by rw [draining]; rfl
  have later : ∀ other, outcomeOf (afterDrain s.pty outcome stream) = some other → other = outcome :=
    fun other comes => by
      rw [afterDrain_outcome] at comes
      exact (Option.some.inj comes).symm
  have outputs := outputs_set
    ((inv.outputs stream).abort running (drained_afterDrain s.pty outcome stream)
      fun other comes exit => patient stream outcome draining (later other comes ▸ exit))
    fun other differ => (inv.outputs other).enter
      (fun before => drained_mono s.pty outcome stream other (draining ▸ before))
      (halted_others inv draining differ)
      fun next lost now exit => (inv.outputs other).promised outcome lost comes (later next now ▸ exit)
  refine ⟨outputs, fun next now exit => inv.promised outcome comes (later next now ▸ exit), .inl ?_,
    inv.order⟩
  refine inv.exits.resolve_right fun ended => ?_
  have finished := ended.finished
  rw [draining] at finished
  cases finished

/-- The task ends without having sent a report. -/
theorem inv_gives_up {outcome : Outcome} (inv : Inv s) (reporting : s.phase = .reporting outcome) :
    Inv { s with phase := .finished } := by
  have finished : Inv { s with notified := s.notified, phase := .finished } :=
    inv_phase s.notified inv (by simp [reporting]) (fun _ _ => rfl)
      (fun stream _ => (inv.outputs stream).halted (by rw [reporting]; rfl)) nofun
  exact finished

theorem inv_report {outcome : Outcome} {channel : Channel Delivery} (inv : Inv s)
    (reporting : s.phase = .reporting outcome)
    (sends : s.channel.trySend outcome.report = some channel) :
    Inv { s with channel := channel, phase := .finished } := by
  obtain ⟨room, queue, _, closed, _⟩ := Channel.trySend_some sends
  have comes : outcomeOf s.phase = some outcome := by rw [reporting]; rfl
  have past : ∀ stream, drained s.phase stream = true := fun stream => by rw [reporting]; rfl
  have quiet : (sent s).any isExit = false := by
    refine inv.exits.resolve_right fun ended => ?_
    have finished := ended.finished
    rw [reporting] at finished
    cases finished
  have whole := sent_grows queue
  have live : (s.delivered ++ channel.queue).any isError = false → Live s := fun clean => by
    rw [whole, List.any_append, Bool.or_eq_false_iff] at clean
    exact ⟨room.1, clean.1⟩
  have outputs : ∀ stream, OutputInv stream (s.output stream)
      (channel.closed = false ∧ (s.delivered ++ channel.queue).any isError = false)
      (s.delivered ++ channel.queue) .finished s.pty := fun stream => by
    rw [whole]
    refine ((inv.outputs stream).skip (fun alive => live (whole ▸ alive.2)) ?_).enter (fun _ => rfl)
      (fun _ => (inv.outputs stream).halted (past stream)) nofun
    simp [chunkOf_report]
  refine ⟨outputs, nofun, ?_, inv.order⟩
  show (s.delivered ++ channel.queue).any isExit = false ∨ _
  cases exit : isExit outcome.report with
  | false =>
    refine .inl ?_
    rw [whole, List.any_append, quiet]
    simp [exit]
  | true =>
    refine .inr ⟨rfl, inv.promised outcome comes exit, sent s, outcome.report, whole, exit, quiet, ?_⟩
    exact fun clean stream => (inv.outputs stream).complete (live clean) (past stream) comes exit

theorem inv_waiter {action : WaiterAction} (inv : Inv s) (patient : Patient s (.waiter action))
    (taken : stepWaiter s action = some t) : Inv t := by
  have waits : ∀ {finished}, s.phase = .waiting finished → ∀ stream, drained s.phase stream = false :=
    fun waiting stream => by rw [waiting]; rfl
  have reaps : ∀ {error}, s.phase = .reaping error → ∀ stream, drained s.phase stream = false :=
    fun reaping stream => by rw [reaping]; rfl
  -- A step to `waiting` or `reaping`, then one to the first reader.
  have kills : ∀ (phase : Phase) (notified : Bool), outcomeOf phase = none →
      (∀ stream, drained phase stream = false) → (∀ stream, drained s.phase stream = false) →
      Inv { s with notified := notified, phase := phase } := fun phase notified none later early =>
    inv_early notified inv early later fun outcome comes _ => by
      rw [none] at comes
      cases comes
  have drains : ∀ (outcome : Outcome), (isExit outcome.report = true → s.child.isSome = true) →
      (∀ stream, drained s.phase stream = false) →
      Inv { s with notified := s.notified, phase := .draining .stdout outcome } :=
    fun outcome exited early => inv_early s.notified inv early (fun stream => by cases stream <;> rfl)
      fun other comes exit => by
        cases comes
        exact exited exit
  cases action with
  | inputEnds =>
    simp only [stepWaiter] at taken
    split at taken
    next waiting => cases taken; exact kills _ s.notified rfl (fun _ => rfl) (waits waiting)
    next => cases taken
  | inputFails error =>
    simp only [stepWaiter] at taken
    split at taken
    next waiting => cases taken; exact kills _ s.notified rfl (fun _ => rfl) (waits waiting)
    next => cases taken
  | deadline =>
    simp only [stepWaiter] at taken
    split at taken
    next waiting => cases taken; exact kills _ s.notified rfl (fun _ => rfl) (waits waiting)
    next => cases taken
  | seesClosed =>
    simp only [stepWaiter] at taken
    split at taken
    next waiting =>
      split at taken
      next => cases taken; exact kills _ s.notified rfl (fun _ => rfl) (waits waiting)
      next => cases taken
    next => cases taken
  | seesFailure =>
    simp only [stepWaiter] at taken
    split at taken
    next waiting =>
      split at taken
      next => cases taken; exact kills _ false rfl (fun _ => rfl) (waits waiting)
      next => cases taken
    next => cases taken
  | reaps =>
    simp only [stepWaiter] at taken
    split at taken
    next status waiting exited =>
      cases taken
      exact drains _ (fun _ => by rw [exited]; rfl) (waits waiting)
    next error status reaping exited =>
      cases taken
      exact drains _ (fun _ => by rw [exited]; rfl) (reaps reaping)
    next => cases taken
  | waitFails message =>
    simp only [stepWaiter] at taken
    split at taken
    next waiting => cases taken; exact drains _ nofun (waits waiting)
    next error reaping =>
      cases taken
      refine drains _ (fun exit => ?_) (reaps reaping)
      cases error <;> cases exit
    next => cases taken
  | joins =>
    simp only [stepWaiter] at taken
    split at taken
    next stream outcome draining =>
      split at taken
      next done => cases taken; exact inv_joins inv draining done
      next => cases taken
    next => cases taken
  | drainTimeout =>
    simp only [stepWaiter] at taken
    split at taken
    next stream outcome draining =>
      split at taken
      next => cases taken
      next running => cases taken; exact inv_drainTimeout inv patient draining running
    next => cases taken
  | report =>
    simp only [stepWaiter] at taken
    split at taken
    next outcome reporting =>
      split at taken
      next => cases taken; exact inv_gives_up inv reporting
      next =>
        obtain ⟨channel, sends, rfl⟩ := Option.map_eq_some_iff.mp taken
        exact inv_report inv reporting sends
    next => cases taken
  | reportTimeout =>
    simp only [stepWaiter] at taken
    split at taken
    next outcome reporting => cases taken; exact inv_gives_up inv reporting
    next => cases taken

end Waiter

section Client
variable {s t : Exec}

/-- The client takes the next item: nothing is lost or added. -/
theorem inv_takes {item : Delivery} {channel : Channel Delivery} (inv : Inv s)
    (clean : s.delivered.any isError = false) (received : s.channel.receive = some (item, channel)) :
    Inv { s with channel := channel, delivered := s.delivered ++ [item] } := by
  obtain ⟨queue, _, closed, _⟩ := Channel.receive_some received
  have same : sent { s with channel := channel, delivered := s.delivered ++ [item] } = sent s := by
    simp [sent, queue]
  refine
    { outputs := fun stream => ?_
      promised := inv.promised
      exits := ?_
      order := ?_ }
  · rw [Live, same]
    show OutputInv stream (s.output stream) (channel.closed = false ∧ _) _ s.phase s.pty
    rw [closed]
    exact inv.outputs stream
  · refine inv.exits.imp (fun quiet => by rw [same]; exact quiet) fun ended => ?_
    refine ⟨ended.finished, ended.exited, ?_⟩
    rw [same]
    exact ended.last
  · show (s.delivered ++ [item]).dropLast.any isError = false
    rw [List.dropLast_concat]
    exact clean

/-- The client goes away; what it has received stays. -/
theorem inv_drops (inv : Inv s) : Inv { s with channel := s.channel.close } := by
  have same : sent { s with channel := s.channel.close } = s.delivered := List.append_nil _
  refine
    { outputs := fun stream => ?_
      promised := inv.promised
      exits := ?_
      order := inv.order }
  · exact
      { accounted := fun live => by cases live.1
        aborted := (inv.outputs stream).aborted
        halted := (inv.outputs stream).halted
        promised := (inv.outputs stream).promised
        second := (inv.outputs stream).second }
  · rw [same]
    rcases inv.exits with quiet | ended
    · rw [sent, List.any_append, Bool.or_eq_false_iff] at quiet
      exact .inl quiet.1
    · obtain ⟨before, last, whole, exit, first, complete⟩ := ended.last
      rcases List.eq_nil_or_concat s.channel.queue with empty | ⟨queue, item, queued⟩
      · have kept : sent s = s.delivered := by rw [sent, empty, List.append_nil]
        refine .inr
          ⟨ended.finished, ended.exited, before, last, same.trans (kept ▸ whole), exit, first, ?_⟩
        rw [same, ← kept]
        exact complete
      · rw [sent, queued, List.concat_eq_append, ← List.append_assoc] at whole
        have earlier := (List.append_inj' whole rfl).1
        rw [← earlier, List.any_append, Bool.or_eq_false_iff] at first
        exact .inl first.1

theorem inv_client {action : ClientAction} (inv : Inv s) (taken : stepClient s action = some t) :
    Inv t := by
  cases action with
  | takes =>
    simp only [stepClient] at taken
    split at taken
    next => cases taken
    next clean =>
      obtain ⟨⟨item, channel⟩, received, rfl⟩ := Option.map_eq_some_iff.mp taken
      exact inv_takes inv (Bool.eq_false_iff.mpr clean) received
  | drops =>
    cases taken
    exact inv_drops inv

end Client

theorem inv_step {s t : Exec} {a : Action} (inv : Inv s) (patient : Patient s a)
    (taken : step s a = some t) : Inv t := by
  cases a with
  | command action => exact inv_command inv taken
  | reader stream action => exact inv_reader inv patient taken
  | waiter action => exact inv_waiter inv patient taken
  | client action => exact inv_client inv taken

theorem initial_inv (pty : Bool) (capacity : Nat) : Inv (initial pty capacity) where
  outputs stream := by
    have second : (pty = true ∧ stream = .stderr) ∨ ¬(pty = true ∧ stream = .stderr) := Classical.em _
    show OutputInv stream (if pty = true ∧ stream = .stderr then _ else _) _ [] (.waiting false) pty
    rcases second with terminal | other
    · rw [if_pos terminal]
      exact
        { accounted := fun _ => ⟨rfl, fun _ => ⟨rfl, rfl⟩⟩
          aborted := nofun
          halted := fun _ => rfl
          promised := nofun
          second := fun _ _ => rfl }
    · rw [if_neg other]
      exact
        { accounted := fun _ => ⟨rfl, nofun⟩
          aborted := nofun
          halted := fun past => by cases stream <;> cases past
          promised := nofun
          second := fun terminal same => absurd ⟨terminal, same⟩ other }
  promised := nofun
  exits := .inl rfl
  order := rfl

theorem reachable_inv {pty : Bool} {capacity : Nat} {s : Exec}
    (reached : (system pty capacity).ReachableBy Patient s) : Inv s :=
  reached.invariant (fun _ start => start ▸ initial_inv pty capacity)
    (fun _ _ _ inv patient taken => inv_step inv patient taken)

section Truth
variable {s : Exec}

/-- The exit that a client has received is the end of the stream, and the stream is complete. -/
theorem exit_complete (inv : Inv s) {before after : List Delivery} {item : Delivery}
    (received : s.delivered = before ++ item :: after) (exit : isExit item = true) :
    after = [] ∧ before.any isExit = false ∧
      ∀ stream, payload stream before = (s.output stream).written := by
  have whole : sent s = before ++ item :: (after ++ s.channel.queue) := by
    rw [sent, received, List.append_assoc, List.cons_append]
  have ended : Ended s := by
    refine inv.exits.resolve_left fun quiet => ?_
    rw [whole, List.any_append, List.any_cons, exit] at quiet
    simp at quiet
  obtain ⟨first, last, closed, _, quiet, complete⟩ := ended.last
  rcases List.eq_nil_or_concat (after ++ s.channel.queue) with nothing | ⟨more, other, some⟩
  · obtain ⟨rfl, _⟩ := List.append_eq_nil_iff.mp nothing
    have same : before ++ [item] = first ++ [last] := by rw [← closed, whole, nothing]
    have equal := (List.append_inj' same rfl).1
    have clean : (sent s).any isError = false := by
      have earlier := inv.order
      rw [received, List.dropLast_concat] at earlier
      rw [whole, nothing, List.any_append, earlier]
      simp [isError_of_exit exit]
    rw [equal]
    exact ⟨rfl, quiet, complete clean⟩
  · have same : (before ++ item :: more) ++ [other] = first ++ [last] := by
      rw [← closed, whole, some, List.concat_eq_append, List.append_assoc, List.cons_append]
    rw [← (List.append_inj' same rfl).1, List.any_append, List.any_cons, exit] at quiet
    simp at quiet

theorem collect_exited {items : List Delivery} {start result : ExecResult} (exited : start.exited = true)
    (collected : collectExecStream items start = .ok result) : items = [] ∧ result = start := by
  cases items with
  | nil =>
    rw [collectExecStream, if_pos exited] at collected
    cases collected
    exact ⟨rfl, rfl⟩
  | cons item rest =>
    cases item with
    | error status => cases collected
    | ok event =>
      rw [collectExecStream, if_pos exited] at collected
      cases collected

/-- A collection that goes on after an item has kept the output of the item. -/
theorem collect_next {item : Delivery} {rest : List Delivery} {start result : ExecResult} (running : start.exited = false)
    (goesOn : isExit item = false) (collected : collectExecStream (item :: rest) start = .ok result) :
    ∃ next, next.exited = false ∧ next.stdout = start.stdout ++ chunkOf .stdout item ∧
      next.stderr = start.stderr ++ chunkOf .stderr item ∧ collectExecStream rest next = .ok result := by
  rcases item with status | ⟨_ | data | data | ⟨code, signal⟩⟩
  · cases collected
  · rw [collectExecStream, if_neg (by simp [running])] at collected
    cases collected
  · rw [collectExecStream, if_neg (by simp [running])] at collected
    dsimp only at collected
    split at collected
    next => cases collected
    next => exact ⟨{ start with stdout := start.stdout ++ data }, running, rfl, (List.append_nil _).symm, collected⟩
  · rw [collectExecStream, if_neg (by simp [running])] at collected
    dsimp only at collected
    split at collected
    next => cases collected
    next => exact ⟨{ start with stderr := start.stderr ++ data }, running, (List.append_nil _).symm, rfl, collected⟩
  · cases goesOn

/-- A collection without an error ends with an exit and has kept all output before it. -/
theorem collect_ok {items : List Delivery} {start result : ExecResult} (running : start.exited = false)
    (collected : collectExecStream items start = .ok result) :
    ∃ before item, items = before ++ [item] ∧ isExit item = true ∧
      result.stdout = start.stdout ++ payload .stdout before ∧
      result.stderr = start.stderr ++ payload .stderr before := by
  induction items generalizing start with
  | nil =>
    rw [collectExecStream, if_neg (by simp [running])] at collected
    cases collected
  | cons item rest ih =>
    cases exit : isExit item with
    | false =>
      obtain ⟨next, still, stdout, stderr, later⟩ := collect_next running exit collected
      obtain ⟨before, last, rfl, ends, allOut, allErr⟩ := ih still later
      refine ⟨item :: before, last, rfl, ends, ?_, ?_⟩
      · rw [allOut, stdout, payload_cons, List.append_assoc]
      · rw [allErr, stderr, payload_cons, List.append_assoc]
    | true =>
      rcases item with status | ⟨_ | data | data | ⟨code, signal⟩⟩
      · cases exit
      · cases exit
      · cases exit
      · cases exit
      · rw [collectExecStream, if_neg (by simp [running])] at collected
        obtain ⟨rfl, rfl⟩ := collect_exited (by rfl) collected
        exact ⟨[], _, rfl, rfl, (List.append_nil _).symm, (List.append_nil _).symm⟩

theorem truthful_of_inv (inv : Inv s) : Truthful s where
  last _ _ _ received exit := exit_complete inv received exit
  collected result collected := by
    obtain ⟨before, item, received, exit, stdout, stderr⟩ := collect_ok (by rfl) collected
    obtain ⟨_, _, complete⟩ := exit_complete inv received exit
    exact ⟨stdout.trans (complete .stdout), stderr.trans (complete .stderr)⟩

end Truth

/-- In every run in which no output is given up to a live client and no reader is aborted with
output before an exit, the exit comes once, last and after all output. -/
theorem patient_truthful (pty : Bool) (capacity : Nat) (s : Exec)
    (reached : (system pty capacity).ReachableBy Patient s) : Truthful s :=
  truthful_of_inv (reachable_inv reached)

/-- Both outputs are read, one in two pieces, and the second pipe stays open after the command. -/
def twoOutputs : List Action :=
  [.command (.writes .stdout [1, 2]), .reader .stdout (.read 1), .reader .stdout .send,
    .command (.writes .stderr [3]), .reader .stdout (.read 1), .reader .stderr (.read 1),
    .command (.exits (.exited 0)), .reader .stderr .send, .waiter .reaps, .reader .stdout .send,
    .command (.hangsUp .stdout), .reader .stdout .eof, .waiter .joins, .waiter .drainTimeout,
    .waiter .report, .client .takes, .client .takes, .client .takes, .client .takes]

/-- The condition as a check. -/
def patient (s : Exec) : Action → Bool
  | .reader _ .sendFails => s.channel.closed
  | .waiter .drainTimeout =>
    match s.phase with
    | .draining stream _ =>
      (s.output stream).reader == .reading && (s.output stream).pipe.buffered.isEmpty
    | _ => true
  | _ => true

theorem patient_sound (s : Exec) (a : Action) (checked : patient s a = true) : Patient s a := by
  unfold patient at checked
  split at checked
  next => exact checked
  next =>
    intro stream outcome draining _
    rw [draining] at checked
    obtain ⟨reading, empty⟩ := Bool.and_eq_true_iff.mp checked
    exact ⟨beq_iff_eq.mp reading, List.isEmpty_iff.mp empty⟩
  next other timeout =>
    unfold Patient
    split
    next => exact absurd rfl (other _)
    next => exact absurd rfl timeout
    next => trivial

theorem twoOutputs_runs :
    ((system false 4).runBy patient (initial false 4) twoOutputs).isSome = true := by
  decide

theorem twoOutputs_truthful :
    Truthful (((system false 4).runBy patient (initial false 4) twoOutputs).get twoOutputs_runs) :=
  patient_truthful false 4 _
    (System.reachableBy_of_runBy patient_sound (.start rfl) (Option.some_get _).symm)

/-- A terminal prints a byte, and the reader takes it. -/
def printed : List Action :=
  [.command (.writes .stdout [7]), .reader .stdout (.read 1), .reader .stdout .settle]

/-- A client that does not read for a while: the channel fills up, the seventeenth byte stays with
the reader, and the reader is aborted with it. Then the client reads to the end. -/
def slowClient : List Action :=
  (List.replicate 16 (printed ++ [.reader .stdout .send])).flatten ++ printed ++
    [.command (.exits (.exited 0)), .waiter .reaps, .waiter .drainTimeout, .client .takes,
      .waiter .report] ++ List.replicate 16 (.client .takes)

theorem slowClient_runs :
    ((system true 4).run (initial true 4) slowClient).isSome = true := by
  decide +kernel

def truncated : Exec := ((system true 4).run (initial true 4) slowClient).get slowClient_runs

theorem truncated_written : (truncated.output .stdout).written = List.replicate 17 7 := by
  decide +kernel

theorem truncated_collected :
    collectExecStream truncated.delivered {} = .ok ⟨List.replicate 16 7, [], 0, 0, true⟩ := by
  decide +kernel

/-- Output is lost and the client is told of a success. -/
theorem slow_client_truncates : ¬∀ s, (system true 4).Reachable s → Truthful s := by
  intro truthful
  have reached : (system true 4).Reachable truncated :=
    System.reachable_of_run (.start rfl) (Option.some_get _).symm
  have complete := ((truthful truncated reached).collected _ truncated_collected).1
  rw [truncated_written] at complete
  revert complete
  decide

end Pbox.Agent.ExecOutput
