import Pbox.Cli.Lifecycle

/-! The same commands on a PVE that carries requests out as tasks, with other clients that start, stop and remove
containers at any time: what a command that succeeds has brought about. -/

namespace Pbox.Cli.Lifecycle
open Pbox.Lib.Strings Pbox.Lib.Dialogue Pbox.Lib.ErrorChain Pbox.Cli.TaskLog
open Pbox.Cli.VmidRace (PveError)
open Pbox.Cli.Discovery (BoxRecord RUNNING)

inductive Kind where
  | start
  | shutdown
  | stop
  | delete
  deriving DecidableEq

/-- A place for a container, with how often what is there has been started, has stopped and has been removed. -/
structure Container where
  status : Text
  boots : Nat
  halts : Nat
  removals : Nat

/-- A task, with the container as it was when the task was asked for. -/
structure Job where
  kind : Kind
  node : Text
  vmid : UInt64
  began : Container
  exit : Option Text

structure Pve where
  containers : Text → UInt64 → Container
  jobs : Text → Option Job

/-- What a task of the kind counts. -/
def Container.count (container : Container) : Kind → Nat
  | .start => container.boots
  | .shutdown | .stop => container.halts
  | .delete => container.removals

def Container.booted (container : Container) : Container :=
  { container with status := RUNNING, boots := container.boots + 1 }

def Container.halted (container : Container) : Container :=
  { container with status := STOPPED, halts := container.halts + 1 }

def Container.removed (container : Container) : Container :=
  { container with status := [], removals := container.removals + 1 }

def Pve.put (s : Pve) (node : Text) (vmid : UInt64) (container : Container) : Pve :=
  { s with containers := Function.update s.containers node (Function.update (s.containers node) vmid container) }

def Pve.begun (s : Pve) (upid : Text) (kind : Kind) (node : Text) (vmid : UInt64) : Pve :=
  { s with jobs := Function.update s.jobs upid (some ⟨kind, node, vmid, s.containers node vmid, none⟩) }

def Pve.closed (s : Pve) (upid : Text) (job : Job) (exit : Text) : Pve :=
  { s with jobs := Function.update s.jobs upid (some { job with exit := some exit }) }

def Good (exit : Text) : Prop := PveTaskStatus.isSuccessful ⟨STOPPED, some exit⟩ = true

/-- The container has done since what the task was to make it do. -/
def Job.achieved (job : Job) (s : Pve) : Prop :=
  job.began.count job.kind < (s.containers job.node job.vmid).count job.kind

/-- What happens by itself, by a task or by another client. A task ends well only when what it is for has been done. -/
inductive Drift : Pve → Pve → Prop
  | begins {s : Pve} {upid : Text} (kind : Kind) (node : Text) (vmid : UInt64) (fresh : s.jobs upid = none) :
      Drift s (s.begun upid kind node vmid)
  | boots {s : Pve} {node : Text} {vmid : UInt64} (down : (s.containers node vmid).status ≠ RUNNING) :
      Drift s (s.put node vmid (s.containers node vmid).booted)
  | halts {s : Pve} {node : Text} {vmid : UInt64} (up : (s.containers node vmid).status = RUNNING) :
      Drift s (s.put node vmid (s.containers node vmid).halted)
  | vanishes {s : Pve} {node : Text} {vmid : UInt64} (down : (s.containers node vmid).status ≠ RUNNING) :
      Drift s (s.put node vmid (s.containers node vmid).removed)
  | ends {s : Pve} {upid : Text} {job : Job} {exit : Text} (running : s.jobs upid = some job) (pending : job.exit = none)
      (achieved : Good exit → job.achieved s) : Drift s (s.closed upid job exit)

def Drifts : Pve → Pve → Prop := Relation.ReflTransGen Drift

/-- A request for a task, whose answer may be lost. -/
def Requested (s : Pve) (kind : Kind) (node : Text) (vmid : UInt64) : Except Failure Text → Pve → Prop
  | .ok upid, t => s.jobs upid = none ∧ t = s.begun upid kind node vmid
  | .error failure, t => failure.root = none ∧ (t = s ∨ ∃ upid, s.jobs upid = none ∧ t = s.begun upid kind node vmid)

/-- What PVE says of a task. -/
def Seen (s : Pve) (upid : Text) : Except PveError PveTaskStatus → Prop
  | .error _ => True
  | .ok status => ∃ job, s.jobs upid = some job ∧
      match job.exit with
      | none => status.status ≠ STOPPED
      | some exit => status = ⟨STOPPED, some exit⟩

/-- The task as it is looked at again and again. -/
inductive Watched (upid : Text) : Pve → List Poll → Pve → Prop
  | none (s : Pve) : Watched upid s [] s
  | next {s t u : Pve} {poll : Poll} {rest : List Poll} (moved : Drifts s t) (seen : Seen t upid poll.status)
      (later : Watched upid t rest u) : Watched upid s (poll :: rest) u

def failureOf : TaskLog.Failure → Failure
  | .text message => .of message
  | .task exitStatus detail => ⟨detail, [], some ⟨exitStatus, detail⟩⟩

def Waited (getTaskLog : List Text → Nat → Nat → List PveTaskLog) (s : Pve) (node upid : Text)
    (answer : Except Failure Unit) (t : Pve) : Prop :=
  ∃ polls task outcome, Watched upid s polls t ∧ task.node = node ∧ task.upid = upid ∧
    (waitForTaskWithProgress getTaskLog task polls).2 = some outcome ∧ answer = outcome.mapError failureOf

def Answers (getTaskLog : List Text → Nat → Nat → List PveTaskLog) (s : Pve) :
    (query : Query) → Except Failure (Value query) → Pve → Prop
  | .getLxcState node vmid, .ok state, t => state = (s.containers node vmid).status ∧ t = s
  | .startLxc node vmid, answer, t => Requested s .start node vmid answer t
  | .shutdownLxc node vmid, answer, t => Requested s .shutdown node vmid answer t
  | .stopLxc node vmid, answer, t => Requested s .stop node vmid answer t
  | .deleteLxc node vmid, answer, t => Requested s .delete node vmid answer t
  | .waitForTask node upid, answer, t => Waited getTaskLog s node upid answer t
  | _, .error failure, t => failure.root = none ∧ t = s
  | _, _, t => t = s

def pve (getTaskLog : List Text → Nat → Nat → List PveTaskLog) :
    World Query (fun query => Except Failure (Value query)) Pve := ⟨Drift, Answers getTaskLog⟩

/-- A container runs from a boot to the next halt, and a task that has ended well has done what it is for. -/
structure Sound (s : Pve) : Prop where
  runs : ∀ node vmid, (s.containers node vmid).boots =
    (s.containers node vmid).halts + if (s.containers node vmid).status = RUNNING then 1 else 0
  honest : ∀ upid job exit, s.jobs upid = some job → job.exit = some exit → Good exit → job.achieved s

/-- Counts only grow, and a task stays the task it is. -/
structure Grows (s t : Pve) : Prop where
  counts : ∀ node vmid kind, (s.containers node vmid).count kind ≤ (t.containers node vmid).count kind
  jobs : ∀ upid job, s.jobs upid = some job → ∃ later, t.jobs upid = some later ∧ later.kind = job.kind ∧
    later.node = job.node ∧ later.vmid = job.vmid ∧ later.began = job.began ∧
    ∀ exit, job.exit = some exit → later.exit = some exit

section Steps
variable {s t u : Pve} {getTaskLog : List Text → Nat → Nat → List PveTaskLog}

theorem Grows.refl (s : Pve) : Grows s s :=
  ⟨fun _ _ _ => Nat.le_refl _, fun _ job here => ⟨job, here, rfl, rfl, rfl, rfl, fun _ => id⟩⟩

theorem Grows.trans (first : Grows s t) (second : Grows t u) : Grows s u := by
  refine ⟨fun node vmid kind => (first.counts node vmid kind).trans (second.counts node vmid kind), ?_⟩
  intro upid job here
  obtain ⟨next, there, kind, node, vmid, began, exits⟩ := first.jobs upid job here
  obtain ⟨last, found, kind', node', vmid', began', exits'⟩ := second.jobs upid next there
  exact ⟨last, found, kind'.trans kind, node'.trans node, vmid'.trans vmid, began'.trans began,
    fun exit ended => exits' exit (exits exit ended)⟩

theorem put_containers (s : Pve) (node : Text) (vmid : UInt64) (container : Container) (other : Text) (number : UInt64) :
    (s.put node vmid container).containers other number =
      if other = node ∧ number = vmid then container else s.containers other number := by
  unfold Pve.put
  dsimp only
  by_cases here : other = node
  · subst here
    rw [Function.update_self, Function.update_apply]
    simp
  · rw [Function.update_of_ne here, if_neg fun both => here both.1]

theorem begun_jobs (s : Pve) (upid : Text) (kind : Kind) (node : Text) (vmid : UInt64) (other : Text) :
    (s.begun upid kind node vmid).jobs other =
      if other = upid then some ⟨kind, node, vmid, s.containers node vmid, none⟩ else s.jobs other :=
  Function.update_apply ..

theorem closed_jobs (s : Pve) (upid : Text) (job : Job) (exit : Text) (other : Text) :
    (s.closed upid job exit).jobs other = if other = upid then some { job with exit := some exit } else s.jobs other :=
  Function.update_apply ..

theorem grows_put {node : Text} {vmid : UInt64} {container : Container}
    (more : ∀ kind, (s.containers node vmid).count kind ≤ container.count kind) : Grows s (s.put node vmid container) := by
  refine ⟨fun other number kind => ?_, (Grows.refl s).jobs⟩
  rw [put_containers]
  split
  next here =>
    obtain ⟨rfl, rfl⟩ := here
    exact more kind
  next => exact Nat.le_refl _

theorem grows_begun {upid : Text} (kind : Kind) (node : Text) (vmid : UInt64) (fresh : s.jobs upid = none) :
    Grows s (s.begun upid kind node vmid) := by
  refine ⟨fun _ _ _ => Nat.le_refl _, fun other job here => ⟨job, ?_, rfl, rfl, rfl, rfl, fun _ => id⟩⟩
  rw [begun_jobs]
  split
  next same =>
    rw [same, fresh] at here
    cases here
  next => exact here

theorem grows_closed {upid : Text} {job : Job} (exit : Text) (running : s.jobs upid = some job) (pending : job.exit = none) :
    Grows s (s.closed upid job exit) := by
  refine ⟨fun _ _ _ => Nat.le_refl _, fun other found here => ?_⟩
  rw [closed_jobs]
  split
  next same =>
    rw [same, running] at here
    cases here
    refine ⟨_, rfl, rfl, rfl, rfl, rfl, fun exit ended => ?_⟩
    rw [pending] at ended
    cases ended
  next => exact ⟨found, here, rfl, rfl, rfl, rfl, fun _ => id⟩

theorem Drift.grows (drift : Drift s t) : Grows s t := by
  cases drift with
  | begins kind node vmid fresh => exact grows_begun kind node vmid fresh
  | boots down => exact grows_put fun kind => by cases kind <;> simp [Container.count, Container.booted]
  | halts up => exact grows_put fun kind => by cases kind <;> simp [Container.count, Container.halted]
  | vanishes down => exact grows_put fun kind => by cases kind <;> simp [Container.count, Container.removed]
  | ends running pending achieved => exact grows_closed _ running pending

/-- What a task has achieved it keeps. -/
theorem Job.achieved.grows {job : Job} (achieved : job.achieved s) (grows : Grows s t) : job.achieved t :=
  Nat.lt_of_lt_of_le achieved (grows.counts _ _ _)

/-- A change of containers keeps the tasks honest. -/
theorem Sound.put (sound : Sound s) {node : Text} {vmid : UInt64} {container : Container}
    (more : ∀ kind, (s.containers node vmid).count kind ≤ container.count kind)
    (runs : container.boots = container.halts + if container.status = RUNNING then 1 else 0) :
    Sound (s.put node vmid container) := by
  refine ⟨fun other number => ?_, fun upid job exit here ended good => ?_⟩
  · rw [put_containers]
    split
    next => exact runs
    next => exact sound.runs other number
  · exact (sound.honest upid job exit here ended good).grows (grows_put more)

theorem Sound.begun (sound : Sound s) (upid : Text) (kind : Kind) (node : Text) (vmid : UInt64) :
    Sound (s.begun upid kind node vmid) := by
  refine ⟨sound.runs, fun other job exit here ended good => ?_⟩
  rw [begun_jobs] at here
  split at here
  next =>
    cases here
    cases ended
  next => exact sound.honest other job exit here ended good

theorem Drift.sound (drift : Drift s t) (sound : Sound s) : Sound t := by
  cases drift with
  | begins kind node vmid fresh => exact sound.begun _ kind node vmid
  | boots down =>
    rename_i node vmid
    have runs := sound.runs node vmid
    rw [if_neg down] at runs
    apply sound.put fun kind => by cases kind <;> simp [Container.count, Container.booted]
    simp [Container.booted, runs]
  | halts up =>
    rename_i node vmid
    have runs := sound.runs node vmid
    rw [if_pos up] at runs
    apply sound.put fun kind => by cases kind <;> simp [Container.count, Container.halted]
    change (s.containers node vmid).boots = (s.containers node vmid).halts + 1 + if STOPPED = RUNNING then 1 else 0
    rw [if_neg (by decide), runs]
  | vanishes down =>
    rename_i node vmid
    have runs := sound.runs node vmid
    rw [if_neg down] at runs
    apply sound.put fun kind => by cases kind <;> simp [Container.count, Container.removed]
    change (s.containers node vmid).boots = (s.containers node vmid).halts + if ([] : Text) = RUNNING then 1 else 0
    rw [if_neg (by decide), runs]
  | ends running pending achieved =>
    refine ⟨sound.runs, fun other job exit here ended good => ?_⟩
    rw [closed_jobs] at here
    split at here
    next =>
      cases here
      cases ended
      exact achieved good
    next => exact sound.honest other job exit here ended good

theorem drifts_grow (drifts : Drifts s t) (sound : Sound s) : Sound t ∧ Grows s t := by
  induction drifts with
  | refl => exact ⟨sound, .refl s⟩
  | tail _ drift ih => exact ⟨drift.sound ih.1, ih.2.trans drift.grows⟩

theorem Requested.grows {kind : Kind} {node : Text} {vmid : UInt64} {answer : Except Failure Text}
    (requested : Requested s kind node vmid answer t) (sound : Sound s) : Sound t ∧ Grows s t := by
  cases answer with
  | ok upid =>
    obtain ⟨fresh, rfl⟩ := requested
    exact ⟨sound.begun upid kind node vmid, grows_begun kind node vmid fresh⟩
  | error failure =>
    rcases requested.2 with rfl | ⟨upid, fresh, rfl⟩
    · exact ⟨sound, .refl t⟩
    · exact ⟨sound.begun upid kind node vmid, grows_begun kind node vmid fresh⟩

theorem Watched.grows {upid : Text} {polls : List Poll} (watched : Watched upid s polls t) (sound : Sound s) :
    Sound t ∧ Grows s t := by
  induction watched with
  | none s => exact ⟨sound, .refl s⟩
  | next moved seen later ih =>
    obtain ⟨there, grown⟩ := drifts_grow moved sound
    exact ⟨(ih there).1, grown.trans (ih there).2⟩

/-- Every answer leaves PVE sound and takes nothing back. -/
theorem answers_grow {query : Query} {answer : Except Failure (Value query)} (answers : Answers getTaskLog s query answer t)
    (sound : Sound s) : Sound t ∧ Grows s t := by
  have still (same : t = s) : Sound t ∧ Grows s t := by
    subst same
    exact ⟨sound, .refl t⟩
  cases query with
  | startLxc | shutdownLxc | stopLxc | deleteLxc => exact Requested.grows answers sound
  | waitForTask =>
    obtain ⟨polls, task, outcome, watched, -⟩ := answers
    exact watched.grows sound
  | getLxcState | clientFromStore | findBox | relayReady | waitForLxcIp | agentMaterials | waitForAgent =>
    cases answer with
    | ok value => first | exact still answers | exact still answers.2
    | error failure => exact still answers.2

/-- A wait that ends well has seen the task end well. -/
theorem passes_ok {task : TaskLog.Task} {polls : List Poll} {wait : Wait}
    (ok : (passes getTaskLog task wait polls).2 = some (.ok ())) :
    ∃ poll ∈ polls, ∃ status, poll.status = .ok status ∧ status.isSuccessful = true := by
  induction polls generalizing wait with
  | nil => cases ok
  | cons poll rest ih =>
    unfold passes at ok
    split at ok
    next outcome passed =>
      cases ok
      refine ⟨poll, List.mem_cons_self, ?_⟩
      unfold TaskLog.pass at passed
      split at passed
      next => split at passed <;> cases passed
      next status read =>
        refine ⟨status, read, ?_⟩
        simp only at passed
        split at passed
        next =>
          by_contra bad
          rw [if_neg bad] at passed
          cases passed
        next => split at passed <;> cases passed
    next =>
      obtain ⟨found, member, good⟩ := ih ok
      exact ⟨found, List.mem_cons_of_mem _ member, good⟩

theorem isSuccessful_stopped {status : PveTaskStatus} (good : status.isSuccessful = true) :
    ∃ exit, status = ⟨STOPPED, some exit⟩ ∧ Good exit := by
  obtain ⟨text, exit⟩ := status
  have both := good
  unfold PveTaskStatus.isSuccessful at both
  obtain ⟨stopped, -⟩ := Bool.and_eq_true_iff.mp both
  cases exit with
  | none => simp at both
  | some exit =>
    have same : text = STOPPED := by simpa using stopped
    subst same
    exact ⟨exit, rfl, good⟩

/-- A task that was seen to end well has achieved what it is for. -/
theorem Watched.achieved {upid : Text} {polls : List Poll} (watched : Watched upid s polls t) (sound : Sound s)
    {poll : Poll} (member : poll ∈ polls) {status : PveTaskStatus} (read : poll.status = .ok status)
    (good : status.isSuccessful = true) : ∃ job, t.jobs upid = some job ∧ job.achieved t := by
  induction watched with
  | none => cases member
  | next moved seen later ih =>
    rename_i s t u poll' rest
    obtain ⟨there, -⟩ := drifts_grow moved sound
    rcases List.mem_cons.mp member with rfl | behind
    · rw [read] at seen
      obtain ⟨job, found, ended⟩ := seen
      obtain ⟨exit, rfl, good⟩ := isSuccessful_stopped good
      have exited : job.exit = some exit := by
        cases shape : job.exit with
        | none =>
          rw [shape] at ended
          exact absurd rfl ended
        | some other =>
          rw [shape] at ended
          cases ended
          rfl
      obtain ⟨now, grown⟩ := later.grows there
      obtain ⟨last, kept, -, -, -, -, exits⟩ := grown.jobs upid job found
      exact ⟨last, kept, now.honest upid last exit kept (exits exit exited) good⟩
    · exact ih there behind

end Steps

section Commands
variable {getTaskLog : List Text → Nat → Nat → List PveTaskLog} {s : Pve} {Result : Type}

/-- A specification on such a PVE, for the results of a part. -/
def Does (getTaskLog : List Text → Nat → Nat → List PveTaskLog) (part : Command Result) (ok : Result → Pve → Prop)
    (s : Pve) : Prop :=
  Attempts (pve getTaskLog) Sound part ok (fun _ _ => True) s

/-- The question has been answered so since. -/
def Answered (getTaskLog : List Text → Nat → Nat → List PveTaskLog) (s : Pve) (query : Query) (value : Value query)
    (v : Pve) : Prop :=
  ∃ t u, Sound t ∧ Grows s t ∧ Answers getTaskLog t query (.ok value) u ∧ Sound u ∧ Grows u v

theorem does_call (sound : Sound s) (query : Query) :
    Does getTaskLog (call query) (Answered getTaskLog s query) s := by
  apply attempts_request query
  · exact fun t moved => (drifts_grow moved sound).1
  · intro t u answer moved answered v later
    obtain ⟨there, grown⟩ := drifts_grow moved sound
    obtain ⟨after, -⟩ := answers_grow answered there
    obtain ⟨now, more⟩ := drifts_grow later after
    refine ⟨now, ?_⟩
    cases answer with
    | ok value => exact ⟨t, u, there, grown, answered, after, more⟩
    | error failure => trivial

theorem Does.context {part : Command Result} {ok : Result → Pve → Prop} {message : Text}
    (does : Does getTaskLog part ok s) : Does getTaskLog (withContext part message) ok s :=
  Attempts.mapFailure does

theorem Does.grows {part : Command Result} {ok : Result → Pve → Prop} (does : Does getTaskLog part ok s) :
    Does getTaskLog part (fun result t => ok result t ∧ Grows s t) s := by
  apply Attempts.mono (Attempts.frame does (Grows.refl s) ?_ ?_)
  · exact fun _ _ _ ends => ends
  · exact fun _ _ _ _ => trivial
  · exact fun t u _ grown drift => grown.trans drift.grows
  · exact fun t query answer u sound grown answers => grown.trans (answers_grow answers sound).2

theorem does_any (sound : Sound s) (part : Command Result) : Does getTaskLog part (fun _ t => Grows s t) s := by
  have always : Attempts (pve getTaskLog) Sound part (fun _ _ => True) (fun _ _ => True) s := by
    have whole : Always (pve getTaskLog) Sound part.run (fun _ _ => True) s := by
      apply always_invariant part.run _ _ sound
      · exact fun _ _ sound drift => Drift.sound drift sound
      · exact fun _ _ _ _ sound answers => (answers_grow answers sound).1
    apply Always.mono whole
    intro outcome t _ _
    cases outcome <;> trivial
  exact Attempts.mono (Does.grows always) (fun _ _ _ ends => ends.2) (fun _ _ _ _ => trivial)

theorem does_pure (sound : Sound s) (result : Result) :
    Does getTaskLog (pure result) (fun value t => value = result ∧ Grows s t) s := by
  intro t moved
  obtain ⟨there, grown⟩ := drifts_grow moved sound
  exact ⟨there, rfl, grown⟩

/-- The request was accepted, as a task. -/
def Begun (s : Pve) (kind : Kind) (node : Text) (vmid : UInt64) (upid : Text) (v : Pve) : Prop :=
  ∃ t, Grows s t ∧ t.jobs upid = none ∧ Grows (t.begun upid kind node vmid) v

/-- A task that has been waited for and ended well has achieved since the request what it is for. -/
theorem task_done {t u : Pve} {kind : Kind} {node place upid : Text} {vmid : UInt64}
    (begun : Begun s kind node vmid upid t) (waited : Answered getTaskLog t (.waitForTask place upid) () u) :
    (s.containers node vmid).count kind < (u.containers node vmid).count kind := by
  obtain ⟨v, before, fresh, after⟩ := begun
  obtain ⟨w, x, there, grown, ⟨polls, task, outcome, watched, -, -, ended, answer⟩, -, more⟩ := waited
  cases outcome with
  | error failure => cases answer
  | ok done =>
    obtain ⟨poll, member, status, read, good⟩ := passes_ok ended
    obtain ⟨job, found, achieved⟩ := watched.achieved there member read good
    have whole := after.trans (grown.trans (watched.grows there).2)
    have here : (v.begun upid kind node vmid).jobs upid = some ⟨kind, node, vmid, v.containers node vmid, none⟩ := by
      rw [begun_jobs, if_pos rfl]
    obtain ⟨same, found', kinds, nodes, vmids, began, -⟩ := whole.jobs upid _ here
    rw [found] at found'
    cases found'
    unfold Job.achieved at achieved
    rw [kinds, nodes, vmids, began] at achieved
    calc (s.containers node vmid).count kind
      _ ≤ (v.containers node vmid).count kind := before.counts node vmid kind
      _ < (x.containers node vmid).count kind := achieved
      _ ≤ (u.containers node vmid).count kind := more.counts node vmid kind

theorem Answered.state {node : Text} {vmid : UInt64} {state : Text} {v : Pve}
    (answered : Answered getTaskLog s (.getLxcState node vmid) state v) :
    ∃ t, Sound t ∧ Grows s t ∧ (t.containers node vmid).status = state ∧ Grows t v := by
  obtain ⟨t, u, sound, before, ⟨rfl, rfl⟩, -, after⟩ := answered
  exact ⟨u, sound, before, rfl, after⟩

/-- Once every boot so far is over, a box that is started or seen running has been booted again. -/
theorem ensureBoxStarted_does (sound : Sound s) (record : BoxRecord) :
    Does getTaskLog (ensureBoxStarted record) (fun _ t =>
      (s.containers record.node record.vmid).halts < (t.containers record.node record.vmid).boots) s := by
  apply Attempts.andThen (does_call sound (.getLxcState record.node record.vmid))
  rintro state t held answered
  obtain ⟨u, there, before, seen, after⟩ := answered.state
  have below := before.counts record.node record.vmid .shutdown
  have above := after.counts record.node record.vmid .start
  have runs := there.runs record.node record.vmid
  dsimp only [Container.count] at below above
  split
  next down =>
    apply Attempts.andThen (Does.context (does_call held (.startLxc record.node record.vmid)))
    rintro task v held ⟨w, x, now, grown, ⟨fresh, rfl⟩, -, more⟩
    apply Attempts.mono (Does.context (does_call held (.waitForTask record.node task)))
    · rintro ⟨⟩ y _ waited
      have done := task_done ⟨w, grown, fresh, more⟩ waited
      dsimp only [Container.count] at done
      omega
    · exact fun _ _ _ _ => trivial
  next up =>
    have running : (u.containers record.node record.vmid).status = RUNNING := seen.trans (not_not.mp up)
    rw [if_pos running] at runs
    apply Attempts.mono (does_pure held ())
    · rintro - v _ ⟨-, grown⟩
      have later := grown.counts record.node record.vmid .start
      dsimp only [Container.count] at later
      omega
    · exact fun _ _ _ _ => trivial

/-- What is printed is about the box. -/
theorem relayedInfo_does (sound : Sound s) (record : BoxRecord) :
    Does getTaskLog (relayedInfo record) (fun info t => info.node = record.node ∧ info.vmid = record.vmid ∧ Grows s t) s := by
  apply Attempts.andThen (does_any sound (call (.relayReady record.id.value)))
  rintro ready t held first
  apply Attempts.andThen (does_any held (call (.findBox record.id.value)))
  rintro current u held second
  apply Attempts.mono (does_pure held _)
  · rintro info v _ ⟨rfl, third⟩
    exact ⟨rfl, rfl, first.trans (second.trans third)⟩
  · exact fun _ _ _ _ => trivial

theorem directInfo_does (sound : Sound s) (record : BoxRecord) :
    Does getTaskLog (directInfo record) (fun info t => info.node = record.node ∧ info.vmid = record.vmid ∧ Grows s t) s := by
  apply Attempts.andThen (does_any sound _)
  rintro ip t held first
  apply Attempts.andThen (does_any held (call (.agentMaterials record.id.value)))
  rintro materials u held second
  apply Attempts.andThen (does_any held _)
  rintro ready v held third
  apply Attempts.mono (does_pure held _)
  · rintro info w _ ⟨rfl, fourth⟩
    exact ⟨rfl, rfl, first.trans (second.trans (third.trans fourth))⟩
  · exact fun _ _ _ _ => trivial

theorem startBox_does (sound : Sound s) (relayed : Bool) (record : BoxRecord) :
    Does getTaskLog (startBox relayed record) (fun info t => info.node = record.node ∧ info.vmid = record.vmid ∧
      (s.containers record.node record.vmid).halts < (t.containers record.node record.vmid).boots) s := by
  apply Attempts.andThen (does_any sound _)
  rintro state t held first
  apply Attempts.andThen (ensureBoxStarted_does held record)
  rintro - u held booted
  have earlier := first.counts record.node record.vmid .shutdown
  dsimp only [Container.count] at earlier
  have ended {info : BoxInfo} {v : Pve} (printed : info.node = record.node ∧ info.vmid = record.vmid ∧ Grows u v) :
      info.node = record.node ∧ info.vmid = record.vmid ∧
        (s.containers record.node record.vmid).halts < (v.containers record.node record.vmid).boots := by
    obtain ⟨node, vmid, grown⟩ := printed
    have later := grown.counts record.node record.vmid .start
    dsimp only [Container.count] at later
    exact ⟨node, vmid, by omega⟩
  split
  next =>
    exact Attempts.mono (relayedInfo_does held record) (fun _ _ _ printed => ended printed) (fun _ _ _ _ => trivial)
  next =>
    exact Attempts.mono (directInfo_does held record) (fun _ _ _ printed => ended printed) (fun _ _ _ _ => trivial)

/-- Of a box that was seen stopped, every boot from before is over. -/
theorem Answered.over {node : Text} {vmid : UInt64} {v : Pve}
    (answered : Answered getTaskLog s (.getLxcState node vmid) STOPPED v) :
    (s.containers node vmid).boots ≤ (v.containers node vmid).halts := by
  obtain ⟨t, sound, before, seen, after⟩ := answered.state
  have down : (t.containers node vmid).status ≠ RUNNING := by
    rw [seen]
    decide
  have runs := sound.runs node vmid
  rw [if_neg down] at runs
  calc (s.containers node vmid).boots
    _ ≤ (t.containers node vmid).boots := before.counts node vmid .start
    _ = (t.containers node vmid).halts := runs
    _ ≤ (v.containers node vmid).halts := after.counts node vmid .shutdown

theorem stopBeforeRestart_does (sound : Sound s) (record : BoxRecord) (force : Bool) :
    Does getTaskLog (stopBeforeRestart record force) (fun _ t =>
      (s.containers record.node record.vmid).boots ≤ (t.containers record.node record.vmid).halts) s := by
  apply Attempts.andThen (does_any sound _)
  rintro - t held first
  apply Attempts.andThen (does_call held (.getLxcState record.node record.vmid))
  rintro state u held answered
  unfold ensure
  split
  next stopped =>
    rw [of_decide_eq_true stopped] at answered
    have earlier := first.counts record.node record.vmid .start
    have done := answered.over
    apply Attempts.mono (does_pure held ())
    · rintro - v _ ⟨-, grown⟩
      have later := grown.counts record.node record.vmid .shutdown
      dsimp only [Container.count] at earlier later
      omega
    · exact fun _ _ _ _ => trivial
  next =>
    intro v moved
    exact ⟨(drifts_grow moved held).1, trivial⟩

theorem runStart_does (sound : Sound s) (reference : Text) :
    Does getTaskLog (runStart reference) (fun info t =>
      (s.containers info.node info.vmid).halts < (t.containers info.node info.vmid).boots) s := by
  apply Attempts.andThen (does_any sound (call .clientFromStore))
  rintro relayed t held first
  apply Attempts.andThen (does_any held (call (.findBox reference)))
  rintro record u held second
  apply Attempts.mono (startBox_does held relayed record)
  · rintro info v _ ⟨node, vmid, booted⟩
    have earlier := (first.trans second).counts record.node record.vmid .shutdown
    dsimp only [Container.count] at earlier
    rw [node, vmid]
    omega
  · exact fun _ _ _ _ => trivial

theorem runRestart_does (sound : Sound s) (reference : Text) (force : Bool) :
    Does getTaskLog (runRestart reference force) (fun info t =>
      (s.containers info.node info.vmid).boots < (t.containers info.node info.vmid).boots) s := by
  apply Attempts.andThen (does_any sound (call .clientFromStore))
  rintro relayed t held first
  apply Attempts.andThen (does_any held (call (.findBox reference)))
  rintro record u held second
  have earlier := (first.trans second).counts record.node record.vmid .start
  dsimp only [Container.count] at earlier
  have starts {v : Pve} (held : Sound v)
      (stopped : (u.containers record.node record.vmid).boots ≤ (v.containers record.node record.vmid).halts) :
      Does getTaskLog (startBox relayed record) (fun info t =>
        (s.containers info.node info.vmid).boots < (t.containers info.node info.vmid).boots) v := by
    apply Attempts.mono (startBox_does held relayed record)
    · rintro info w _ ⟨node, vmid, booted⟩
      rw [node, vmid]
      omega
    · exact fun _ _ _ _ => trivial
  apply Attempts.andThen (Does.context (does_call held (.getLxcState record.node record.vmid)))
  rintro state v held answered
  split
  next up =>
    obtain ⟨w, there, before, seen, after⟩ := answered.state
    have kept := (before.trans after).counts record.node record.vmid .start
    dsimp only [Container.count] at kept
    apply Attempts.andThen (stopBeforeRestart_does held record force)
    rintro - x held stopped
    exact starts held (kept.trans stopped)
  next down =>
    rw [not_not.mp down] at answered
    exact starts held answered.over

theorem runStop_does (sound : Sound s) (reference : Text) (force : Bool) :
    Does getTaskLog (runStop reference force) (fun info t =>
      (s.containers info.node info.vmid).halts < (t.containers info.node info.vmid).halts) s := by
  apply Attempts.andThen (does_any sound (call .clientFromStore))
  rintro relayed t held first
  apply Attempts.andThen (does_any held (call (.findBox reference)))
  rintro record u held second
  have asked : Does getTaskLog (stopRequest force record) (fun task v =>
      Begun u (if force then .stop else .shutdown) record.node record.vmid task v) u := by
    cases force with
    | true =>
      apply Attempts.mono (does_call held (.stopLxc record.node record.vmid))
      · rintro task v _ ⟨w, x, -, grown, ⟨fresh, rfl⟩, -, more⟩
        exact ⟨w, grown, fresh, more⟩
      · exact fun _ _ _ _ => trivial
    | false =>
      apply Attempts.mono (does_call held (.shutdownLxc record.node record.vmid))
      · rintro task v _ ⟨w, x, -, grown, ⟨fresh, rfl⟩, -, more⟩
        exact ⟨w, grown, fresh, more⟩
      · exact fun _ _ _ _ => trivial
  apply Attempts.andThen asked.context
  rintro task v held begun
  apply Attempts.andThen (Does.context (Does.context (does_call held (.waitForTask record.node task))))
  rintro ⟨⟩ w held waited
  have halts (container : Container) : container.count (if force then .stop else .shutdown) = container.halts := by
    cases force <;> rfl
  have halted := task_done begun waited
  rw [halts, halts] at halted
  have earlier := (first.trans second).counts record.node record.vmid .shutdown
  apply Attempts.mono (does_pure held _)
  · rintro info x _ ⟨rfl, grown⟩
    have later := grown.counts record.node record.vmid .shutdown
    dsimp only [Container.count] at earlier later
    change (s.containers record.node record.vmid).halts < (x.containers record.node record.vmid).halts
    omega
  · exact fun _ _ _ _ => trivial

theorem destroyBox_does (sound : Sound s) (record : BoxRecord) :
    Does getTaskLog (destroyBox record) (fun _ t =>
      (s.containers record.node record.vmid).removals < (t.containers record.node record.vmid).removals) s := by
  apply Attempts.andThen (Does.context (does_call sound (.deleteLxc record.node record.vmid)))
  rintro task t held ⟨u, v, -, before, ⟨fresh, rfl⟩, -, more⟩
  apply Attempts.mono (Does.context (does_call held (.waitForTask record.node task)))
  · rintro ⟨⟩ w _ waited
    exact task_done ⟨u, before, fresh, more⟩ waited
  · exact fun _ _ _ _ => trivial

theorem deleteBox_does (sound : Sound s) (record : BoxRecord) :
    Does getTaskLog (deleteBox record) (fun _ t =>
      (s.containers record.node record.vmid).removals < (t.containers record.node record.vmid).removals) s := by
  have destroys {t : Pve} (held : Sound t) (grown : Grows s t) : Does getTaskLog (destroyBox record) (fun _ u =>
      (s.containers record.node record.vmid).removals < (u.containers record.node record.vmid).removals) t := by
    have earlier := grown.counts record.node record.vmid .delete
    apply Attempts.mono (destroyBox_does held record)
    · exact fun _ _ _ removed => Nat.lt_of_le_of_lt earlier removed
    · exact fun _ _ _ _ => trivial
  apply Attempts.andThen (does_any sound _)
  rintro state t held first
  split
  next =>
    apply Attempts.andThen (does_any held _)
    rintro - u held second
    exact destroys held (first.trans second)
  next => exact destroys held first

end Commands

/-- Whatever other clients and the box itself do meanwhile: a restart that succeeds has booted the box again, a start has
left it with a boot that was not over before, a stop has seen it halt, and a deletion that is waited for has seen it go. -/
theorem commands_effective {getTaskLog : List Text → Nat → Nat → List PveTaskLog} {s : Pve} (sound : Sound s) :
    (∀ reference force info t, Reaches (pve getTaskLog) (runRestart reference force).run s (.done (.ok info)) t →
      (s.containers info.node info.vmid).boots < (t.containers info.node info.vmid).boots) ∧
    (∀ reference info t, Reaches (pve getTaskLog) (runStart reference).run s (.done (.ok info)) t →
      (s.containers info.node info.vmid).halts < (t.containers info.node info.vmid).boots) ∧
    (∀ reference force info t, Reaches (pve getTaskLog) (runStop reference force).run s (.done (.ok info)) t →
      (s.containers info.node info.vmid).halts < (t.containers info.node info.vmid).halts) ∧
    (∀ record t, Reaches (pve getTaskLog) (deleteBox record).run s (.done (.ok ())) t →
      (s.containers record.node record.vmid).removals < (t.containers record.node record.vmid).removals) := by
  refine ⟨fun reference force info t ran => ?_, fun reference info t ran => ?_, fun reference force info t ran => ?_,
    fun record t ran => ?_⟩
  · have booted := Attempts.ended (runRestart_does sound reference force) ran
    exact booted
  · have booted := Attempts.ended (runStart_does sound reference) ran
    exact booted
  · have booted := Attempts.ended (runStop_does sound reference force) ran
    exact booted
  · have removed := Attempts.ended (deleteBox_does sound record) ran
    exact removed

/-! A restart of a box that runs, with nobody else about. -/

section Sample

def upBox : Container := ⟨RUNNING, 1, 0, 0⟩
def quietPve : Pve := ⟨fun _ _ => upBox, fun _ => none⟩
def quietTask (upid : Text) : TaskLog.Task := ⟨"pve".toList, upid, false, false, 0⟩
def donePoll : Poll := ⟨.ok ⟨STOPPED, some "OK".toList⟩, 250, .ok [], 250, .ok [], 250⟩

def shuttingDown : Pve := quietPve.begun "UPID:1".toList .shutdown "pve".toList 104
def wentDown : Pve := shuttingDown.put "pve".toList 104 upBox.halted
def down : Pve := wentDown.closed "UPID:1".toList ⟨.shutdown, "pve".toList, 104, upBox, none⟩ "OK".toList
def startingUp : Pve := down.begun "UPID:2".toList .start "pve".toList 104
def wentUp : Pve := startingUp.put "pve".toList 104 upBox.halted.booted
def upAgain : Pve := wentUp.closed "UPID:2".toList ⟨.start, "pve".toList, 104, upBox.halted, none⟩ "OK".toList

theorem quietPve_sound : Sound quietPve where
  runs _ _ := rfl
  honest _ _ _ here := nomatch here

theorem quiet_waited (upid : Text) : (waitForTaskWithProgress (fun _ _ _ => []) (quietTask upid) [donePoll]).2 =
    some (.ok ()) := by
  rfl

theorem wentDown_at : wentDown.containers "pve".toList 104 = upBox.halted := by
  unfold wentDown
  rw [put_containers, if_pos ⟨rfl, rfl⟩]

theorem wentUp_at : wentUp.containers "pve".toList 104 = upBox.halted.booted := by
  unfold wentUp
  rw [put_containers, if_pos ⟨rfl, rfl⟩]

theorem shutdown_waited : Waited (fun _ _ _ => []) shuttingDown "pve".toList "UPID:1".toList (.ok ()) down := by
  have running : wentDown.jobs "UPID:1".toList = some ⟨.shutdown, "pve".toList, 104, upBox, none⟩ :=
    (begun_jobs quietPve "UPID:1".toList .shutdown "pve".toList 104 "UPID:1".toList).trans (if_pos rfl)
  have exited : down.jobs "UPID:1".toList = some ⟨.shutdown, "pve".toList, 104, upBox, some "OK".toList⟩ :=
    (closed_jobs ..).trans (if_pos rfl)
  have halts : Drift shuttingDown wentDown := .halts rfl
  have ends : Drift wentDown down := .ends running rfl fun _ => by
    unfold Job.achieved
    rw [wentDown_at]
    decide
  have watched : Watched "UPID:1".toList shuttingDown [donePoll] down :=
    .next ((Relation.ReflTransGen.single halts).tail ends) ⟨_, exited, rfl⟩ (.none _)
  exact ⟨[donePoll], quietTask "UPID:1".toList, .ok (), watched, rfl, rfl, quiet_waited _, rfl⟩

theorem start_waited : Waited (fun _ _ _ => []) startingUp "pve".toList "UPID:2".toList (.ok ()) upAgain := by
  have stopped : startingUp.containers "pve".toList 104 = upBox.halted := wentDown_at
  have running : wentUp.jobs "UPID:2".toList = some ⟨.start, "pve".toList, 104, upBox.halted, none⟩ := by
    rw [← stopped]
    exact (begun_jobs down "UPID:2".toList .start "pve".toList 104 "UPID:2".toList).trans (if_pos rfl)
  have exited : upAgain.jobs "UPID:2".toList = some ⟨.start, "pve".toList, 104, upBox.halted, some "OK".toList⟩ :=
    (closed_jobs ..).trans (if_pos rfl)
  have boots : Drift startingUp wentUp := by
    unfold wentUp
    rw [← stopped]
    apply Drift.boots
    rw [stopped]
    decide
  have ends : Drift wentUp upAgain := .ends running rfl fun _ => by
    unfold Job.achieved
    rw [wentUp_at]
    decide
  have watched : Watched "UPID:2".toList startingUp [donePoll] upAgain :=
    .next ((Relation.ReflTransGen.single boots).tail ends) ⟨_, exited, rfl⟩ (.none _)
  exact ⟨[donePoll], quietTask "UPID:2".toList, .ok (), watched, rfl, rfl, quiet_waited _, rfl⟩

theorem pve_answers {getTaskLog : List Text → Nat → Nat → List PveTaskLog} {query : Query} {Result : Type}
    {next : Except Failure (Value query) → Program Query (fun query => Except Failure (Value query)) Result} {s t u : Pve}
    {rest : Program Query (fun query => Except Failure (Value query)) Result} (answer : Except Failure (Value query))
    (answers : Answers getTaskLog s query answer t) (later : Reaches (pve getTaskLog) (next answer) t rest u) :
    Reaches (pve getTaskLog) (.ask query next) s rest u :=
  .answered answers later

theorem down_state : STOPPED = (down.containers "pve".toList 104).status :=
  (congrArg Container.status wentDown_at).symm

theorem quiet_restart : Reaches (pve fun _ _ _ => []) (runRestart "dev".toList false).run quietPve
    (.done (.ok ⟨devBox.id, 104, "pve".toList, RUNNING, none, none, some "dev".toList, [], []⟩)) upAgain :=
  pve_answers (.ok true) rfl <|
  pve_answers (.ok devBox) rfl <|
  pve_answers (.ok RUNNING) ⟨rfl, rfl⟩ <|
  pve_answers (.ok "UPID:1".toList) ⟨rfl, rfl⟩ <|
  pve_answers (.ok ()) shutdown_waited <|
  pve_answers (.ok STOPPED) ⟨down_state, rfl⟩ <|
  pve_answers (.ok STOPPED) ⟨down_state, rfl⟩ <|
  pve_answers (.ok STOPPED) ⟨down_state, rfl⟩ <|
  pve_answers (.ok "UPID:2".toList) ⟨rfl, rfl⟩ <|
  pve_answers (.ok ()) start_waited <|
  pve_answers (.ok ()) rfl <|
  pve_answers (.ok devBox) rfl <|
  .here _ _

theorem quiet_restart_boots :
    (quietPve.containers "pve".toList 104).boots < (upAgain.containers "pve".toList 104).boots :=
  (commands_effective quietPve_sound).1 "dev".toList false _ _ quiet_restart

end Sample

end Pbox.Cli.Lifecycle
