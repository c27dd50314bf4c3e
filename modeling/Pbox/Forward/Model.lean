import Pbox.Lib.Channel
import Pbox.Lib.HalfClose
import Pbox.Lib.Pipe
import Pbox.Lib.Transition

/-! One forwarded TCP connection after its handshake: the loop of `forward_tcp`, the loop of the
agent's `forward`, the request and the response stream between them, and the two sockets with
their buffers. Each loop awaits the write or the send of the branch it selected before it
selects again; that is what the program counters say. -/

namespace Pbox.Forward.Model
set_option linter.dupNamespace false
open Pbox.Lib.Channel Pbox.Lib.HalfClose Pbox.Lib.Pipe Pbox.Lib.Transition

abbrev Bytes := List UInt8
abbrev ForwardEvent := Frame UInt8

def bufferSize : Nat := 8192

/-- Where `forward_tcp` stands. `finishing` is the last send before it returns. -/
inductive ClientPc where
  | select
  | sending (event : ForwardEvent)
  | writing (rest : Bytes)
  | finishing
  | returned (ok : Bool)
  deriving DecidableEq

structure Client where
  pc : ClientPc
  localWriteClosed : Bool
  remoteWriteClosed : Bool
  deriving DecidableEq

/-- Where the agent's task stands. `finishing` sends the close with its code. -/
inductive AgentPc where
  | select
  | sending (event : ForwardEvent)
  | writing (rest : Bytes)
  | finishing (code : Nat)
  | ended
  deriving DecidableEq

structure Agent where
  pc : AgentPc
  clientWriteClosed : Bool
  targetWriteClosed : Bool
  deriving DecidableEq

/-- `announced` records that the agent's half close got into the response stream, `dropped` what
the agent took or was sent and never wrote; the four byte lists record what crossed the two
sockets. No step reads these. -/
structure Forward where
  client : Client
  agent : Agent
  request : Channel ForwardEvent
  response : Channel ForwardEvent
  localIn : Pipe UInt8
  localOut : Pipe UInt8
  targetIn : Pipe UInt8
  targetOut : Pipe UInt8
  announced : Bool
  dropped : Bytes
  localRead : Bytes
  targetWritten : Bytes
  targetRead : Bytes
  localWritten : Bytes

/-- The programs behind the two sockets. -/
inductive PeerAction where
  | localWrites (bytes : Bytes)
  | localEnds
  | localReads (count : Nat)
  | targetWrites (bytes : Bytes)
  | targetEnds
  | targetReads (count : Nat)
  deriving DecidableEq

inductive ClientAction where
  | read (count : Nat)
  | eof
  | readFails
  | send
  | sendFails
  | take
  | streamFails
  | write (count : Nat)
  | writeDone
  | writeFails
  | finish
  | leave
  deriving DecidableEq

inductive AgentAction where
  | take
  | streamFails
  | shutdownFails
  | idle
  | write (count : Nat)
  | writeDone
  | writeFails
  | read (count : Nat)
  | eof
  | readFails
  | send
  | sendFails
  | finish
  | close
  | closeFails
  deriving DecidableEq

/-- Failures of a socket or a stream, and timeouts. -/
def ClientAction.forced : ClientAction → Bool
  | .readFails | .sendFails | .streamFails | .writeFails => true
  | _ => false

def AgentAction.forced : AgentAction → Bool
  | .streamFails | .shutdownFails | .idle | .writeFails | .readFails | .sendFails | .closeFails => true
  | _ => false

inductive Action where
  | peer (action : PeerAction)
  | client (action : ClientAction)
  | agent (action : AgentAction)
  deriving DecidableEq

/-- Bytes of an event that the loop has not yet put into its stream. -/
def Client.unsent (client : Client) : Bytes :=
  match client.pc with
  | .sending event => event.chunk
  | _ => []

/-- Bytes of an event that the loop has not yet written to its socket. -/
def Client.unwritten (client : Client) : Bytes :=
  match client.pc with
  | .writing rest => rest
  | _ => []

def Agent.unsent (agent : Agent) : Bytes :=
  match agent.pc with
  | .sending event => event.chunk
  | _ => []

def Agent.unwritten (agent : Agent) : Bytes :=
  match agent.pc with
  | .writing rest => rest
  | _ => []

def Client.sends (client : Client) : Bool :=
  match client.pc with
  | .sending _ => true
  | _ => false

def Agent.sends (agent : Agent) : Bool :=
  match agent.pc with
  | .sending _ => true
  | _ => false

/-- The agent is still in its loop. -/
def Agent.running (agent : Agent) : Bool :=
  match agent.pc with
  | .select | .sending _ | .writing _ => true
  | _ => false

def Client.done (client : Client) : Bool := client.localWriteClosed && client.remoteWriteClosed
def Agent.done (agent : Agent) : Bool := agent.clientWriteClosed && agent.targetWriteClosed

/-- `forward_tcp` returns and drops its ends of both streams. -/
def clientReturns (s : Forward) (ok : Bool) : Forward :=
  { s with client := { s.client with pc := .returned ok }, response := s.response.close }

/-- The agent's task ends and drops its ends of both streams. -/
def agentEnds (s : Forward) : Forward :=
  { s with
    agent := { s.agent with pc := .ended }
    request := s.request.close
    dropped := s.dropped ++ payload s.request.queue }

def agentBreaks (s : Forward) (code : Nat) : Forward :=
  { s with agent := { s.agent with pc := .finishing code } }

/-- What `forward_tcp` does with an event of the response stream. -/
def clientHandle (s : Forward) (response : Channel ForwardEvent) : ForwardEvent → Forward
  | .data data => { s with response := response, client := { s.client with pc := .writing data } }
  | .close code half =>
    let s := { s with response := response, localOut := s.localOut.finish }
    if code ≠ 0 then clientReturns s false
    else if half then { s with client := { s.client with remoteWriteClosed := true } }
    else clientReturns s true
  | .invalid => clientReturns { s with response := response } false

/-- What the agent does with an event of the request stream. -/
def agentHandle (s : Forward) (request : Channel ForwardEvent) : ForwardEvent → Forward
  | .data data => { s with request := request, agent := { s.agent with pc := .writing data } }
  | .close code half =>
    let s := { s with request := request }
    if code ≠ 0 then agentBreaks s code
    else if half then
      { s with
        targetIn := s.targetIn.finish
        agent := { s.agent with clientWriteClosed := true } }
    else agentBreaks s 0
  | .invalid => agentBreaks { s with request := request } 1

section Handle
variable (s : Forward) (stream : Channel ForwardEvent)

theorem clientHandle_failed {code : Nat} (half : Bool) (failed : code ≠ 0) :
    clientHandle s stream (.close code half) =
      clientReturns { s with response := stream, localOut := s.localOut.finish } false :=
  if_pos failed

theorem clientHandle_half :
    clientHandle s stream (.close 0 true) =
      { s with
        response := stream
        localOut := s.localOut.finish
        client := { s.client with remoteWriteClosed := true } } := rfl

theorem agentHandle_failed {code : Nat} (half : Bool) (failed : code ≠ 0) :
    agentHandle s stream (.close code half) = agentBreaks { s with request := stream } code :=
  if_pos failed

theorem agentHandle_half :
    agentHandle s stream (.close 0 true) =
      { s with
        request := stream
        targetIn := s.targetIn.finish
        agent := { s.agent with clientWriteClosed := true } } := rfl

theorem agentHandle_final :
    agentHandle s stream (.close 0 false) = agentBreaks { s with request := stream } 0 := rfl

end Handle

/-- One read of at most a buffer: some of what is there. -/
def readable (socket : Pipe UInt8) (count : Nat) : Prop :=
  0 < count ∧ count ≤ bufferSize ∧ count ≤ socket.buffered.length

instance (socket : Pipe UInt8) (count : Nat) : Decidable (readable socket count) :=
  inferInstanceAs (Decidable (_ ∧ _ ∧ _))

def atEof (socket : Pipe UInt8) : Bool := socket.buffered.isEmpty && socket.ended

def stepPeer (s : Forward) : PeerAction → Option Forward
  | .localWrites bytes => (s.localIn.write bytes).map fun localIn => { s with localIn := localIn }
  | .localEnds => some { s with localIn := s.localIn.finish }
  | .localReads count => some { s with localOut := (s.localOut.read count).2 }
  | .targetWrites bytes =>
    (s.targetOut.write bytes).map fun targetOut => { s with targetOut := targetOut }
  | .targetEnds => some { s with targetOut := s.targetOut.finish }
  | .targetReads count => some { s with targetIn := (s.targetIn.read count).2 }

def stepClient (s : Forward) : ClientAction → Option Forward
  | .read count =>
    if s.client.pc = .select ∧ s.client.localWriteClosed = false ∧ readable s.localIn count then
      some { s with
        localIn := (s.localIn.read count).2
        localRead := s.localRead ++ (s.localIn.read count).1
        client := { s.client with pc := .sending (.data (s.localIn.read count).1) } }
    else none
  | .eof =>
    if s.client.pc = .select ∧ s.client.localWriteClosed = false ∧ atEof s.localIn = true then
      some { s with client := { s.client with pc := .sending (.close 0 true) } }
    else none
  | .readFails =>
    if s.client.pc = .select ∧ s.client.localWriteClosed = false then some (clientReturns s false)
    else none
  | .send =>
    match s.client.pc with
    | .sending event =>
      (s.request.trySend event).map fun request =>
        { s with
          request := request
          client :=
            { s.client with
              pc := .select
              localWriteClosed := s.client.localWriteClosed || event == .close 0 true } }
    | _ => none
  | .sendFails =>
    match s.client.pc with
    | .sending _ => if s.request.closed = true then some (clientReturns s false) else none
    | _ => none
  | .take =>
    if s.client.pc = .select ∧ s.client.remoteWriteClosed = false then
      s.response.receive.map fun taken => clientHandle s taken.2 taken.1
    else none
  | .streamFails =>
    -- The stream ends or fails, or the local socket refuses the shutdown of a close.
    if s.client.pc = .select ∧ s.client.remoteWriteClosed = false then some (clientReturns s false)
    else none
  | .write count =>
    match s.client.pc with
    | .writing rest =>
      if 0 < count ∧ count ≤ rest.length then
        (s.localOut.write (rest.take count)).map fun localOut =>
          { s with
            localOut := localOut
            localWritten := s.localWritten ++ rest.take count
            client := { s.client with pc := .writing (rest.drop count) } }
      else none
    | _ => none
  | .writeDone =>
    if s.client.pc = .writing [] then some { s with client := { s.client with pc := .select } }
    else none
  | .writeFails =>
    match s.client.pc with
    | .writing _ => some (clientReturns s false)
    | _ => none
  | .finish =>
    if s.client.pc = .select ∧ s.client.done = true then
      some { s with client := { s.client with pc := .finishing } }
    else none
  | .leave =>
    -- The result of the last send is ignored.
    if s.client.pc = .finishing then
      if s.request.closed = true then some (clientReturns s true)
      else
        (s.request.trySend (.close 0 false)).map fun request =>
          clientReturns { s with request := request } true
    else none

def stepAgent (s : Forward) : AgentAction → Option Forward
  | .take =>
    if s.agent.pc = .select ∧ s.agent.clientWriteClosed = false then
      s.request.receive.map fun taken => agentHandle s taken.2 taken.1
    else none
  | .streamFails =>
    if s.agent.pc = .select ∧ s.agent.clientWriteClosed = false then some (agentBreaks s 1) else none
  | .shutdownFails =>
    if s.agent.pc = .select ∧ s.agent.clientWriteClosed = false then
      match s.request.receive with
      | some (.close 0 true, request) => some (agentBreaks { s with request := request } 1)
      | _ => none
    else none
  | .read count =>
    if s.agent.pc = .select ∧ s.agent.targetWriteClosed = false ∧ readable s.targetOut count then
      some { s with
        targetOut := (s.targetOut.read count).2
        targetRead := s.targetRead ++ (s.targetOut.read count).1
        agent := { s.agent with pc := .sending (.data (s.targetOut.read count).1) } }
    else none
  | .eof =>
    if s.agent.pc = .select ∧ s.agent.targetWriteClosed = false ∧ atEof s.targetOut = true then
      some { s with agent := { s.agent with pc := .sending (.close 0 true), targetWriteClosed := true } }
    else none
  | .readFails =>
    if s.agent.pc = .select ∧ s.agent.targetWriteClosed = false then some (agentBreaks s 1) else none
  | .idle =>
    if s.agent.pc = .select ∧ s.agent.done = false then some (agentBreaks s 2) else none
  | .write count =>
    match s.agent.pc with
    | .writing rest =>
      if 0 < count ∧ count ≤ rest.length then
        (s.targetIn.write (rest.take count)).map fun targetIn =>
          { s with
            targetIn := targetIn
            targetWritten := s.targetWritten ++ rest.take count
            agent := { s.agent with pc := .writing (rest.drop count) } }
      else none
    | _ => none
  | .writeDone =>
    if s.agent.pc = .writing [] then some { s with agent := { s.agent with pc := .select } } else none
  | .writeFails =>
    -- An error or the write timeout.
    match s.agent.pc with
    | .writing rest => some (agentBreaks { s with dropped := s.dropped ++ rest } 1)
    | _ => none
  | .send =>
    match s.agent.pc with
    | .sending event =>
      (s.response.trySend event).map fun response =>
        { s with
          response := response
          agent := { s.agent with pc := .select }
          announced := s.announced || event == .close 0 true }
    | _ => none
  | .sendFails =>
    -- A dropped receiver or the idle timeout: the task returns without a close.
    match s.agent.pc with
    | .sending _ => some (agentEnds s)
    | _ => none
  | .finish =>
    if s.agent.pc = .select ∧ s.agent.done = true then some (agentBreaks s 0) else none
  | .close =>
    match s.agent.pc with
    | .finishing code =>
      (s.response.trySend (.close code false)).map fun response =>
        agentEnds { s with response := response }
    | _ => none
  | .closeFails =>
    match s.agent.pc with
    | .finishing _ => some (agentEnds s)
    | _ => none

def step (s : Forward) : Action → Option Forward
  | .peer action => stepPeer s action
  | .client action => stepClient s action
  | .agent action => stepAgent s action

structure Capacities where
  localIn : Nat
  localOut : Nat
  targetIn : Nat
  targetOut : Nat

def initial (capacities : Capacities) : Forward :=
  { client := ⟨.select, false, false⟩
    agent := ⟨.select, false, false⟩
    request := Channel.empty 32
    response := Channel.empty 32
    localIn := Pipe.empty capacities.localIn
    localOut := Pipe.empty capacities.localOut
    targetIn := Pipe.empty capacities.targetIn
    targetOut := Pipe.empty capacities.targetOut
    announced := false
    dropped := []
    localRead := []
    targetWritten := []
    targetRead := []
    localWritten := [] }

def system (capacities : Capacities) : System Forward Action where
  init s := s = initial capacities
  step := step

end Pbox.Forward.Model
