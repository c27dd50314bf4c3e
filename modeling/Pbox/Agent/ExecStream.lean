import Pbox.Agent.Session
import Pbox.Lib.Channel
import Pbox.Lib.Pipe
import Pbox.Lib.Transition
import Mathlib.Logic.Function.Basic

/-! The output stream of a command from its start to the end of the stream. A reader task for
each pipe moves what the command writes into a bounded channel; the task that waits for the
command gives the readers some time to drain, aborts them, and reports how the command ended. On
a terminal both outputs are one pipe, and small reads are collected for a moment. -/

namespace Pbox.Agent.ExecStream
open Pbox.Lib.Strings Pbox.Lib.Channel Pbox.Lib.Pipe Pbox.Lib.Transition Pbox.Agent.Session

def bufferSize : Nat := 8192
def PTY_OUTPUT_COALESCE_SIZE : Nat := 1024
def MAX_COLLECTED_BYTES : Nat := 64 * 1024 * 1024

inductive Stream where
  | stdout
  | stderr
  deriving DecidableEq

def Stream.event : Stream → Bytes → Event
  | .stdout, bytes => .stdout bytes
  | .stderr, bytes => .stderr bytes

/-- Where `send_output` stands. Bytes it has thrown away stay on record in the failed and in the
aborted reader. -/
inductive ReaderPc where
  | reading
  | coalescing (buffer : Bytes)
  | sending (chunk : Bytes) (eof : Bool)
  | failing (error : Status) (lost : Bytes)
  | done
  | aborted (lost : Bytes)
  deriving DecidableEq

/-- Bytes that the reader has taken and not put into the channel. -/
def ReaderPc.held : ReaderPc → Bytes
  | .coalescing buffer => buffer
  | .sending chunk _ => chunk
  | .failing _ lost => lost
  | .aborted lost => lost
  | _ => []

/-- The buffer that the next read adds to. -/
def ReaderPc.filling : ReaderPc → Option Bytes
  | .reading => some []
  | .coalescing buffer => some buffer
  | _ => none

/-- An output of the command with its reader; `written` records what the command put in. -/
structure Output where
  pipe : Pipe UInt8
  reader : ReaderPc
  written : Bytes

inductive ExitStatus where
  | exited (code : Int)
  | signaled (signal : Int)
  deriving DecidableEq

def exitEvent : ExitStatus → Event
  | .exited code => .exit code 0
  | .signaled signal => .exit (-1) signal

/-- The result of waiting for the command, and the error that ended it early, if any. -/
structure Outcome where
  status : Except Text ExitStatus
  error : Option Status

/-- What the task sends last. -/
def Outcome.report (outcome : Outcome) : Delivery :=
  match outcome.error, outcome.status with
  | some error, _ => .error error
  | none, .ok status => .ok ⟨some (exitEvent status)⟩
  | none, .error message => .error ⟨.internal, "wait for command: ".toList ++ message⟩

/-- Where the task that runs the command stands: waiting for the command beside the task that
feeds its input, waiting for a killed command, joining a reader, sending the report. -/
inductive Phase where
  | waiting (inputFinished : Bool)
  | reaping (error : Option Status)
  | draining (stream : Stream) (outcome : Outcome)
  | reporting (outcome : Outcome)
  | finished

/-- `child` is set once the command has exited, `delivered` is what the client has received. -/
structure Exec where
  pty : Bool
  output : Stream → Output
  child : Option ExitStatus
  channel : Channel Delivery
  notified : Bool
  phase : Phase
  delivered : List Delivery

inductive CommandAction where
  | writes (stream : Stream) (bytes : Bytes)
  | hangsUp (stream : Stream)
  | exits (status : ExitStatus)
  deriving DecidableEq

inductive ReaderAction where
  | read (count : Nat)
  | eof
  | readFails (message : Text)
  | settle
  | send
  | sendFails
  deriving DecidableEq

inductive WaiterAction where
  | inputEnds
  | inputFails (error : Status)
  | reaps
  | waitFails (message : Text)
  | seesClosed
  | seesFailure
  | deadline
  | joins
  | drainTimeout
  | report
  | reportTimeout
  deriving DecidableEq

inductive ClientAction where
  | takes
  | drops
  deriving DecidableEq

inductive Action where
  | command (action : CommandAction)
  | reader (stream : Stream) (action : ReaderAction)
  | waiter (action : WaiterAction)
  | client (action : ClientAction)
  deriving DecidableEq

def setOutput (s : Exec) (stream : Stream) (output : Output) : Exec :=
  { s with output := Function.update s.output stream output }

def setReader (s : Exec) (stream : Stream) (reader : ReaderPc) : Exec :=
  setOutput s stream { s.output stream with reader := reader }

/-- What a reader does with a buffer after a read: on a terminal it waits for more. -/
def afterRead (pty : Bool) (buffer : Bytes) : ReaderPc :=
  if pty = true ∧ buffer.length < PTY_OUTPUT_COALESCE_SIZE then .coalescing buffer
  else .sending buffer false

/-- One read of at most the rest of the buffer. -/
def readable (pipe : Pipe UInt8) (buffer : Bytes) (count : Nat) : Prop :=
  0 < count ∧ count ≤ bufferSize - buffer.length ∧ count ≤ pipe.buffered.length

instance (pipe : Pipe UInt8) (buffer : Bytes) (count : Nat) : Decidable (readable pipe buffer count) :=
  inferInstanceAs (Decidable (_ ∧ _ ∧ _))

def stepCommand (s : Exec) : CommandAction → Option Exec
  | .writes stream bytes =>
    if s.child = none then
      ((s.output stream).pipe.write bytes).map fun pipe =>
        setOutput s stream
          { s.output stream with pipe := pipe, written := (s.output stream).written ++ bytes }
    else none
  | .hangsUp stream =>
    -- The last holder of the writing end closes it, the command itself or a process it left behind.
    some (setOutput s stream { s.output stream with pipe := (s.output stream).pipe.finish })
  | .exits status => if s.child = none then some { s with child := some status } else none

def stepReader (s : Exec) (stream : Stream) : ReaderAction → Option Exec
  | .read count =>
    (s.output stream).reader.filling.bind fun buffer =>
      if readable (s.output stream).pipe buffer count then
        some (setOutput s stream
          { s.output stream with
            pipe := ((s.output stream).pipe.read count).2
            reader := afterRead s.pty (buffer ++ ((s.output stream).pipe.read count).1) })
      else none
  | .eof =>
    if (s.output stream).pipe.buffered = [] ∧ (s.output stream).pipe.ended = true then
      match (s.output stream).reader with
      | .reading => some (setReader s stream .done)
      | .coalescing buffer => some (setReader s stream (.sending buffer true))
      | _ => none
    else none
  | .readFails message =>
    (s.output stream).reader.filling.map fun buffer =>
      setReader s stream (.failing ⟨.internal, message⟩ buffer)
  | .settle =>
    match (s.output stream).reader with
    | .coalescing buffer => some (setReader s stream (.sending buffer false))
    | _ => none
  | .send =>
    match (s.output stream).reader with
    | .sending chunk eof =>
      (s.channel.trySend (.ok ⟨some (stream.event chunk)⟩)).map fun channel =>
        { setReader s stream (if eof = true then .done else .reading) with channel := channel }
    | .failing error _ =>
      (s.channel.trySend (.error error)).map fun channel =>
        { setReader s stream .done with channel := channel, notified := true }
    | _ => none
  | .sendFails =>
    -- The receiver is gone, or the send timed out.
    match (s.output stream).reader with
    | .sending _ _ | .failing _ _ => some { setReader s stream .done with notified := true }
    | _ => none

/-- The order in which the readers are joined. -/
def afterDrain (pty : Bool) (outcome : Outcome) : Stream → Phase
  | .stdout => if pty = true then .reporting outcome else .draining .stderr outcome
  | .stderr => .reporting outcome

/-- The command has to be killed; its status is still waited for. -/
def kill (s : Exec) (error : Option Status) : Exec := { s with phase := .reaping error }

def stepWaiter (s : Exec) : WaiterAction → Option Exec
  | .inputEnds =>
    match s.phase with
    | .waiting false => some { s with phase := .waiting true }
    | _ => none
  | .inputFails error =>
    match s.phase with
    | .waiting false => some (kill s (some error))
    | _ => none
  | .reaps =>
    match s.phase, s.child with
    | .waiting _, some status => some { s with phase := .draining .stdout ⟨.ok status, none⟩ }
    | .reaping error, some status => some { s with phase := .draining .stdout ⟨.ok status, error⟩ }
    | _, _ => none
  | .waitFails message =>
    match s.phase with
    | .waiting _ => some { s with phase := .draining .stdout ⟨.error message, none⟩ }
    | .reaping error => some { s with phase := .draining .stdout ⟨.error message, error⟩ }
    | _ => none
  | .seesClosed =>
    match s.phase with
    | .waiting _ => if s.channel.closed = true then some (kill s none) else none
    | _ => none
  | .seesFailure =>
    match s.phase with
    | .waiting _ => if s.notified = true then some (kill { s with notified := false } none) else none
    | _ => none
  | .deadline =>
    match s.phase with
    | .waiting _ => some (kill s (some (.of .deadlineExceeded "command execution timed out")))
    | _ => none
  | .joins =>
    match s.phase with
    | .draining stream outcome =>
      if (s.output stream).reader = .done then some { s with phase := afterDrain s.pty outcome stream }
      else none
    | _ => none
  | .drainTimeout =>
    match s.phase with
    | .draining stream outcome =>
      if (s.output stream).reader = .done then none
      else
        some { setReader s stream (.aborted (s.output stream).reader.held) with
          phase := afterDrain s.pty outcome stream }
    | _ => none
  | .report =>
    match s.phase with
    | .reporting outcome =>
      -- The result of the last send is ignored.
      if s.channel.closed = true then some { s with phase := .finished }
      else
        (s.channel.trySend outcome.report).map fun channel =>
          { s with channel := channel, phase := .finished }
    | _ => none
  | .reportTimeout =>
    match s.phase with
    | .reporting _ => some { s with phase := .finished }
    | _ => none

def isError : Delivery → Bool
  | .error _ => true
  | .ok _ => false

/-- An error ends the call: the client receives nothing after it. -/
def stepClient (s : Exec) : ClientAction → Option Exec
  | .takes =>
    if s.delivered.any isError = true then none
    else
      s.channel.receive.map fun taken =>
        { s with channel := taken.2, delivered := s.delivered ++ [taken.1] }
  | .drops => some { s with channel := s.channel.close }

def step (s : Exec) : Action → Option Exec
  | .command action => stepCommand s action
  | .reader stream action => stepReader s stream action
  | .waiter action => stepWaiter s action
  | .client action => stepClient s action

/-- A command that has just been started. On a terminal there is no second output. -/
def initial (pty : Bool) (capacity : Nat) : Exec :=
  { pty := pty
    output := fun stream =>
      if pty = true ∧ stream = .stderr then ⟨(Pipe.empty capacity).finish, .done, []⟩
      else ⟨Pipe.empty capacity, .reading, []⟩
    child := none
    channel := Channel.empty 16
    notified := false
    phase := .waiting false
    delivered := [] }

def system (pty : Bool) (capacity : Nat) : System Exec Action where
  init s := s = initial pty capacity
  step := step

structure ExecResult where
  stdout : Bytes := []
  stderr : Bytes := []
  code : Int := 0
  signal : Int := 0
  exited : Bool := false
  deriving DecidableEq

/-- What the client makes of a stream that delivers these items and ends. -/
def collectExecStream : List Delivery → ExecResult → Except Status ExecResult
  | [], result =>
    if result.exited = true then .ok result
    else .error (.of .unknown "agent exec stream ended without exit status")
  | .error status :: _, _ => .error status
  | .ok event :: rest, result =>
    if result.exited = true then
      .error (.of .invalidArgument "agent exec stream sent data after exit")
    else
      match event.event with
      | some (.stdout data) =>
        if MAX_COLLECTED_BYTES < result.stdout.length + data.length then
          .error (.of .resourceExhausted "stdout exceeds the 64 MiB collection limit")
        else collectExecStream rest { result with stdout := result.stdout ++ data }
      | some (.stderr data) =>
        if MAX_COLLECTED_BYTES < result.stderr.length + data.length then
          .error (.of .resourceExhausted "stderr exceeds the 64 MiB collection limit")
        else collectExecStream rest { result with stderr := result.stderr ++ data }
      | some (.exit code signal) =>
        collectExecStream rest { result with code := code, signal := signal, exited := true }
      | none => .error (.of .invalidArgument "agent exec stream sent an empty event")

end Pbox.Agent.ExecStream
