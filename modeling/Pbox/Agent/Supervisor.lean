import Pbox.Agent.Workspace
import Pbox.Lib.Transition

/-! `supervise`, the process with pid 1 of a workspace without a service manager, among the processes it starts and
those it inherits. Processes end, fork and leave their children behind at any time; a pid is used again once its process
has been waited for. Times are in nanoseconds. -/

namespace Pbox.Agent.Supervisor
open Pbox.Lib.Strings Pbox.Lib.Transition
open Pbox.Agent.Session (ExecRequest)
open Pbox.Agent.Workspace (Value Accounts strings shellCommand nonEmpty resolve)

def SECOND : Nat := 10 ^ 9
def RESTART : Nat := 2 * SECOND
def GRACE : Nat := 5 * SECOND

inductive Service where
  | terminals
  | agent
  | network
  deriving DecidableEq

inductive Role where
  | service (service : Service)
  | application
  | other
  deriving DecidableEq

/-- A process that has not been waited for. What it was started as is not known to the system. -/
structure Process where
  pid : Nat
  parent : Nat
  zombie : Bool
  role : Role
  argv : List Text
  deriving DecidableEq

/-! What is started. -/

structure Setup where
  binary : Text
  args : List Text
  application : Option (List Text)

def SOCKET : Text := "/run/pbox-terminals/control.sock".toList

/-- The argument behind the first `--max-exec`. -/
def maxExec : List Text → Text
  | flag :: value :: rest => if flag = "--max-exec".toList then value else maxExec (value :: rest)
  | _ => "32".toList

def Setup.argv (setup : Setup) : Service → List Text
  | .terminals => [setup.binary, "--terminal-host".toList, SOCKET, maxExec setup.args]
  | .agent => setup.binary :: setup.args
  | .network => ["dhcpcd", "--nodev", "-B", "-e", "resolvconf=/nonexistent", "-j", "/var/log/pbox-network.log", "-f",
      "/etc/pbox/dhcpcd.conf"].map String.toList

def agentFiles (snapshot : Bool) : Text × Text :=
  if snapshot then ("/etc/pbox-snapshot/pbox-agent".toList, "/etc/pbox-snapshot/agent-args.json".toList)
  else ("/usr/local/bin/pbox-agent".toList, "/etc/pbox/agent-args.json".toList)

/-- The command of the image, unless it is a shell. -/
def imageApplication (config : Value) (accounts : Accounts) (marker : Bool) : Except Text (Option ExecRequest) :=
  let argv := strings config "Entrypoint" ++ strings config "Cmd"
  if argv.isEmpty || shellCommand argv then .ok none
  else
    let request : ExecRequest :=
      { argv, cwd := (nonEmpty (config.get "WorkingDir")).getD "/".toList, env := [], allocatePty := false,
        user := (nonEmpty (config.get "User")).getD "root".toList }
    match resolve config accounts marker request with
    | (.ok (), request) => .ok (some request)
    | (.error error, _) => .error error

/-- What `supervise` reads before it starts anything; `arguments` is the reading of the file of arguments. -/
def setup (snapshot : Bool) (arguments : Text → Except Text (List Text)) (config : Value) (accounts : Accounts)
    (marker : Bool) : Except Text Setup := do
  let (binary, file) := agentFiles snapshot
  let args ← arguments file
  let request ← if snapshot then .ok none else imageApplication config accounts marker
  return { binary, args, application := request.map (·.argv) }

/-! The loop. -/

inductive Pc where
  | booting
  | checking
  | starting (service : Service)
  | reaping
  | sleeping (until_ : Nat)
  | terminating
  | draining (deadline : Nat)
  | pausing (deadline until_ : Nat)
  | killing
  | returned
  | failed
  deriving DecidableEq

/-- A process of a service, from its start until it was waited for. -/
structure Life where
  started : Nat
  ended : Option Nat
  deriving DecidableEq

/-- The variables of `supervise` and the processes of the system, the last one first, with what has happened so far. -/
structure State where
  pc : Pc
  stop : Bool
  clock : Nat
  slot : Service → Option Nat
  next : Service → Nat
  application : Option Nat
  processes : List Process
  lives : Service → List Life
  terminated : Option Nat
  killed : Bool

inductive Action where
  | proceeds (pid : Nat)
  | fails
  | signals
  | clock (now : Nat)
  | forks (parent pid : Nat) (argv : List Text)
  | exits (pid : Nat)
  | collects (pid : Nat)

def State.goto (s : State) (pc : Pc) : State := { s with pc }

def State.children (s : State) : List Process := s.processes.filter fun process => process.parent = 1

def State.zombies (s : State) : List Process := s.children.filter (·.zombie)

def State.fresh (s : State) (pid : Nat) : Bool := pid ≠ 1 && s.processes.all fun process => process.pid ≠ pid

def State.spawn (s : State) (pid : Nat) (role : Role) (argv : List Text) : State :=
  { s with processes := ⟨pid, 1, false, role, argv⟩ :: s.processes }

def without (pid : Nat) (processes : List Process) : List Process := processes.filter fun process => process.pid ≠ pid

def after : Service → Pc
  | .terminals => .starting .agent
  | .agent => .starting .network
  | .network => .reaping

def State.start (s : State) (setup : Setup) (service : Service) (pid : Nat) : State :=
  { s.spawn pid (.service service) (setup.argv service) with
    slot := Function.update s.slot service (some pid)
    lives := Function.update s.lives service (⟨s.clock, none⟩ :: s.lives service)
    pc := after service }

def endLife (time : Nat) : List Life → List Life
  | life :: rest => { life with ended := some time } :: rest
  | [] => []

/-- What the loop does about a pid that `waitpid` returned. -/
def State.reap (s : State) (pid : Nat) : State :=
  { s with
    processes := without pid s.processes
    slot := fun service => if s.slot service = some pid then none else s.slot service
    next := fun service => if s.slot service = some pid then s.clock + RESTART else s.next service
    lives := fun service => if s.slot service = some pid then endLife s.clock (s.lives service) else s.lives service
    stop := s.stop || s.application = some pid }

/-- The next step of `supervise`; the pid is that of the process it starts or waits for. -/
def proceed (setup : Setup) (s : State) (pid : Nat) : Option State :=
  match s.pc with
  | .booting =>
    match setup.application with
    | none => some (s.goto .checking)
    | some argv =>
      if s.fresh pid then some { s.spawn pid .application argv with application := some pid, pc := .checking } else none
  | .checking => some (s.goto (if s.stop then .terminating else .starting .terminals))
  | .starting service =>
    if (s.slot service).isNone ∧ s.next service ≤ s.clock then
      if s.fresh pid then some (s.start setup service pid) else none
    else some (s.goto (after service))
  | .reaping =>
    if s.zombies = [] then some (s.goto (.sleeping (s.clock + SECOND / 10)))
    else if s.zombies.any (·.pid = pid) then some (s.reap pid) else none
  | .sleeping until_ => if until_ ≤ s.clock then some (s.goto .checking) else none
  | .terminating => some { s with terminated := some s.clock, pc := .draining (s.clock + GRACE) }
  | .draining deadline =>
    if s.clock < deadline then
      if s.children = [] then some (s.goto .returned)
      else if s.zombies = [] then some (s.goto (.pausing deadline (s.clock + SECOND / 20)))
      else if s.zombies.any (·.pid = pid) then
        some { s with processes := without pid s.processes, pc := .pausing deadline (s.clock + SECOND / 20) }
      else none
    else some (s.goto .killing)
  | .pausing deadline until_ => if until_ ≤ s.clock then some (s.goto (.draining deadline)) else none
  | .killing => some { s with killed := true, pc := .returned }
  | .returned | .failed => none

/-- An ended process leaves its children to pid 1. -/
def exit (pid : Nat) (process : Process) : Process :=
  if process.pid = pid then { process with zombie := true }
  else if process.parent = pid then { process with parent := 1 } else process

def spawns : Pc → Bool
  | .booting | .starting _ => true
  | _ => false

def step (setup : Setup) (s : State) (a : Action) : Option State :=
  if s.pc = .returned ∨ s.pc = .failed then none
  else
    match a with
    | .proceeds pid => proceed setup s pid
    | .fails => if spawns s.pc then some (s.goto .failed) else none
    | .signals => some { s with stop := true }
    | .clock now => if s.clock ≤ now then some { s with clock := now } else none
    | .forks parent pid argv =>
      if s.fresh pid ∧ s.processes.any (fun process => process.pid = parent && !process.zombie) then
        some { s with processes := ⟨pid, parent, false, .other, argv⟩ :: s.processes }
      else none
    | .exits pid => some { s with processes := s.processes.map (exit pid) }
    | .collects pid =>
      if s.processes.any (fun process => process.pid = pid && process.zombie && process.parent ≠ 1) then
        some { s with processes := without pid s.processes }
      else none

/-- Every process has pid 1 or an earlier process that still runs for its parent. -/
def Rooted : List Process → Prop
  | [] => True
  | process :: rest => (process.parent = 1 ∨ ∃ parent ∈ rest, parent.pid = process.parent ∧ parent.zombie = false) ∧
    Rooted rest

structure WellFormed (processes : List Process) : Prop where
  pids : (processes.map (·.pid)).Nodup
  init : ∀ process ∈ processes, process.pid ≠ 1
  rooted : Rooted processes

def system (setup : Setup) : System State Action where
  init s := s.pc = .booting ∧ s.slot = (fun _ => none) ∧ s.next = (fun _ => s.clock) ∧ s.application = none ∧
    s.lives = (fun _ => []) ∧ s.terminated = none ∧ s.killed = false ∧ WellFormed s.processes ∧
    ∀ process ∈ s.processes, process.role = .other
  step := step setup

end Pbox.Agent.Supervisor
