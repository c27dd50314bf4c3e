import Pbox.Cli.Lifecycle

/-! What the commands of a box's lifecycle send, whatever PVE and the box answer: a stop by force, a start and a deletion
are each requested only on the grounds of what was answered before. -/

namespace Pbox.Cli.Lifecycle
open Pbox.Lib.Strings Pbox.Lib.Dialogue Pbox.Lib.ErrorChain
open Pbox.Cli.Discovery (BoxRecord RUNNING)
open Pbox.Cli.TaskLog (STOPPED)

abbrev Exchange := Pbox.Lib.Dialogue.Exchange Query fun query => Except Failure (Value query)

/-- A command of the lifecycle, with what it has settled before. -/
inductive Order where
  | start (reference : Text)
  | stop (reference : Text) (force : Bool)
  | restart (reference : Text) (force : Bool)
  | delete (record : BoxRecord)

/-- What is printed is not asked for. -/
def unprinted {Result : Type} (part : Command Result) : Command Unit := part >>= fun _ => pure ()

def Order.command : Order → Command Unit
  | .start reference => unprinted (runStart reference)
  | .stop reference force => unprinted (runStop reference force)
  | .restart reference force => unprinted (runRestart reference force)
  | .delete record => deleteBox record

def Order.forced : Order → Bool
  | .stop _ force | .restart _ force => force
  | .start _ | .delete _ => false

def Order.restarts : Order → Bool
  | .restart .. => true
  | _ => false

/-- Only a task that was waited for fails as a task. -/
def Possible : (query : Query) → Except Failure (Value query) → Prop
  | .waitForTask .., _ => True
  | _, .ok _ => True
  | _, .error failure => failure.root = none

/-- What was answered last. -/
def Last (earlier : List Exchange) (query : Query) (answer : Except Failure (Value query)) : Prop :=
  ∃ before, earlier = before ++ [⟨query, answer⟩]

/-- The request asks for a change of the box. -/
def Query.changes : Query → Bool
  | .startLxc .. | .shutdownLxc .. | .stopLxc .. | .deleteLxc .. => true
  | _ => false

/-- The box was seen stopped, and nothing was asked to change since. -/
def SeenStopped (earlier : List Exchange) (node : Text) (vmid : UInt64) : Prop :=
  ∃ before between, earlier = before ++ ⟨.getLxcState node vmid, .ok STOPPED⟩ :: between ∧
    ∀ exchange ∈ between, exchange.1.changes = false

/-- Its graceful shutdown was waited for and failed as a task, and the box was then seen not to have stopped. -/
def ShutdownFailed (earlier : List Exchange) (node : Text) (vmid : UInt64) : Prop :=
  ∃ before upid failure state, earlier = before ++ [⟨.shutdownLxc node vmid, .ok upid⟩,
      ⟨.waitForTask node upid, .error failure⟩, ⟨.getLxcState node vmid, .ok state⟩] ∧
    failure.root.isSome ∧ state ≠ STOPPED

/-- The box that the command is about, once it has been found. -/
def Order.about (order : Order) (earlier : List Exchange) (node : Text) (vmid : UInt64) : Prop :=
  match order with
  | .start reference | .stop reference _ | .restart reference _ =>
    ∃ record, ⟨.findBox reference, .ok record⟩ ∈ earlier ∧ record.node = node ∧ record.vmid = vmid
  | .delete record => record.node = node ∧ record.vmid = vmid

/-- The box was seen not to have stopped, by a command that looks before it stops it. -/
def Order.sawRunning (order : Order) (earlier : List Exchange) (node : Text) (vmid : UInt64) : Prop :=
  match order with
  | .stop .. => True
  | _ => ∃ state ≠ STOPPED, Last earlier (.getLxcState node vmid) (.ok state)

/-- The grounds on which each request may be sent. -/
def Order.allows (order : Order) (earlier : List Exchange) : Query → Prop
  | .stopLxc node vmid => order.about earlier node vmid ∧
      (order.forced = true ∧ order.sawRunning earlier node vmid ∨
        order.restarts = true ∧ ShutdownFailed earlier node vmid)
  | .shutdownLxc node vmid => order.about earlier node vmid ∧ order.forced = false ∧ order.sawRunning earlier node vmid
  | .startLxc node vmid => order.about earlier node vmid ∧
      (∃ state ≠ RUNNING, Last earlier (.getLxcState node vmid) (.ok state)) ∧
      (order.restarts = true → SeenStopped earlier node vmid)
  | .deleteLxc node vmid => order.about earlier node vmid ∧ Last earlier (.getLxcState node vmid) (.ok STOPPED)
  | _ => True

section Warrants
variable {order : Order} {s : List Exchange}

/-- The specification of a part: what it sends is warranted, and this is the record when it has a result. -/
def Keeps {Result : Type} (order : Order) (part : Command Result) (ok : Result → List Exchange → Prop)
    (failed : Failure → List Exchange → Prop) (s : List Exchange) : Prop :=
  Attempts (recorded Possible) (Warranted order.allows) part ok failed s

theorem allows_other {query : Query} (other : query.changes = false) : order.allows s query := by
  unfold Order.allows
  split
  case h_5 => trivial
  all_goals cases other

theorem keeps_call (held : Warranted order.allows s) {query : Query} (allowed : order.allows s query) :
    Keeps order (call query) (fun value t => t = s ++ [⟨query, .ok value⟩])
      (fun failure t => t = s ++ [⟨query, .error failure⟩] ∧ Possible query (.error failure)) s := by
  apply Attempts.mono (warranted_request held allowed)
  · exact fun _ _ _ ends => ends.2
  · exact fun _ _ _ ends => ends.symm

theorem Keeps.context {Result : Type} {part : Command Result} {ok : Result → List Exchange → Prop} {message : Text}
    (keeps : Keeps order part ok (fun _ _ => True) s) : Keeps order (withContext part message) ok (fun _ _ => True) s :=
  Attempts.mapFailure keeps

theorem Keeps.forget {Result : Type} {part : Command Result} {ok : Result → List Exchange → Prop}
    {failed : Failure → List Exchange → Prop} (keeps : Keeps order part ok failed s) :
    Keeps order part ok (fun _ _ => True) s :=
  Attempts.mono keeps (fun _ _ _ ends => ends) (fun _ _ _ _ => trivial)

/-- What was seen stays so while nothing is asked to change. -/
theorem SeenStopped.later {node : Text} {vmid : UInt64} (seen : SeenStopped s node vmid) {exchange : Exchange}
    (other : exchange.1.changes = false) : SeenStopped (s ++ [exchange]) node vmid := by
  obtain ⟨before, between, rfl, quiet⟩ := seen
  refine ⟨before, between ++ [exchange], by simp, ?_⟩
  intro later member
  rcases List.mem_append.mp member with front | last
  · exact quiet later front
  · rw [List.mem_singleton.mp last]
    exact other

theorem Order.about.later {node : Text} {vmid : UInt64} (known : order.about s node vmid) (more : List Exchange) :
    order.about (s ++ more) node vmid := by
  cases order with
  | delete record => exact known
  | start reference | stop reference force | restart reference force =>
    obtain ⟨record, member, place⟩ := known
    exact ⟨record, List.mem_append_left _ member, place⟩

theorem Keeps.any {Result : Type} {part : Command Result} {ok : Result → List Exchange → Prop}
    {failed : Failure → List Exchange → Prop} (keeps : Keeps order part ok failed s) :
    Keeps order part (fun _ _ => True) (fun _ _ => True) s :=
  Attempts.mono keeps (fun _ _ _ _ => trivial) (fun _ _ _ _ => trivial)

theorem keeps_other (held : Warranted order.allows s) {query : Query} (other : query.changes = false) :
    Keeps order (call query) (fun value t => t = s ++ [⟨query, .ok value⟩]) (fun _ _ => True) s :=
  (keeps_call held (allows_other other)).forget

/-- A box that has not been seen running is started on the grounds that allow it. -/
theorem ensureBoxStarted_keeps (held : Warranted order.allows s) {record : BoxRecord}
    (known : order.about s record.node record.vmid)
    (stopped : order.restarts = true → SeenStopped s record.node record.vmid) :
    Keeps order (ensureBoxStarted record) (fun _ _ => True) (fun _ _ => True) s := by
  apply Attempts.andThen (keeps_other held rfl)
  rintro state t held rfl
  split
  next down =>
    apply Attempts.andThen (Keeps.context (Keeps.forget (keeps_call held _)))
    · rintro task u held rfl
      exact Keeps.context (keeps_other held rfl).any
    · exact ⟨known.later _, ⟨state, down, s, rfl⟩, fun restarts => (stopped restarts).later rfl⟩
  next => exact warranted_pure held trivial

theorem relayedInfo_keeps (held : Warranted order.allows s) (record : BoxRecord) :
    Keeps order (relayedInfo record) (fun _ _ => True) (fun _ _ => True) s := by
  apply Attempts.andThen (keeps_other held rfl)
  rintro ready t held rfl
  apply Attempts.andThen (keeps_other held rfl)
  rintro current u held rfl
  exact warranted_pure held trivial

theorem directInfo_keeps (held : Warranted order.allows s) (record : BoxRecord) :
    Keeps order (directInfo record) (fun _ _ => True) (fun _ _ => True) s := by
  apply Attempts.andThen (Keeps.context (keeps_other held rfl))
  rintro ip t held rfl
  apply Attempts.andThen (keeps_other held rfl)
  rintro materials u held rfl
  apply Attempts.andThen (Keeps.context (keeps_other held rfl))
  rintro ready v held rfl
  exact warranted_pure held trivial

theorem startBox_keeps (held : Warranted order.allows s) {record : BoxRecord} (relayed : Bool)
    (known : order.about s record.node record.vmid)
    (stopped : order.restarts = true → SeenStopped s record.node record.vmid) :
    Keeps order (startBox relayed record) (fun _ _ => True) (fun _ _ => True) s := by
  apply Attempts.andThen (Keeps.context (keeps_other held rfl))
  rintro state t held rfl
  apply Attempts.andThen (ensureBoxStarted_keeps held (known.later _) fun restarts => (stopped restarts).later rfl)
  rintro - u held -
  split
  next => exact relayedInfo_keeps held record
  next => exact directInfo_keeps held record

theorem stopBox_forced (held : Warranted order.allows s) {record : BoxRecord}
    (allowed : order.allows s (.stopLxc record.node record.vmid)) :
    Keeps order (stopBox record true) (fun _ _ => True) (fun _ _ => True) s := by
  apply Attempts.andThen (Keeps.context (keeps_call held allowed).forget)
  rintro task t held rfl
  exact Keeps.context (keeps_other held rfl).any

/-- A failure that is a task's is that of the shutdown that was requested and waited for. -/
theorem stopBox_graceful (held : Warranted order.allows s) {record : BoxRecord}
    (allowed : order.allows s (.shutdownLxc record.node record.vmid)) :
    Keeps order (stopBox record false) (fun _ _ => True) (fun failure t => failure.root.isSome →
      ∃ before upid cause, cause.root.isSome ∧ t = before ++ [⟨.shutdownLxc record.node record.vmid, .ok upid⟩,
        ⟨.waitForTask record.node upid, .error cause⟩]) s := by
  apply Attempts.andThen (Attempts.mapFailure (Attempts.mono (keeps_call held allowed) (fun _ _ _ ends => ends) ?_))
  · rintro task t held rfl
    apply Attempts.mapFailure
    apply Attempts.mono (keeps_call held (allows_other rfl))
    · exact fun _ _ _ _ => trivial
    · rintro cause u held ⟨rfl, -⟩ rooted
      exact ⟨s, task, cause, rooted, by simp⟩
  · rintro failure t held ⟨rfl, untyped⟩ rooted
    rw [context_root, untyped] at rooted
    cases rooted

/-- The stop by force after a graceful one that failed: the box has not stopped meanwhile. -/
theorem forceStop_keeps (held : Warranted order.allows s) {record : BoxRecord} {failure : Failure}
    (known : order.about s record.node record.vmid) (restarts : order.restarts = true)
    (ended : failure.root.isSome → ∃ before upid cause, cause.root.isSome ∧
      s = before ++ [⟨.shutdownLxc record.node record.vmid, .ok upid⟩, ⟨.waitForTask record.node upid, .error cause⟩]) :
    Keeps order (forceStop record failure) (fun _ _ => True) (fun _ _ => True) s := by
  unfold forceStop
  split
  next rooted =>
    obtain ⟨before, upid, cause, typed, rfl⟩ := ended rooted
    apply Attempts.andThen (Keeps.context (keeps_other held rfl))
    rintro state t held rfl
    split
    next => exact warranted_pure held trivial
    next up =>
      apply Keeps.context
      apply stopBox_forced held
      exact ⟨known.later _, Or.inr ⟨restarts, before, upid, cause, state, by simp, typed, up⟩⟩
  next => exact warranted_throw held trivial

/-- The box is known after every part of a command, once it was. -/
theorem Keeps.about {Result : Type} {part : Command Result} {ok : Result → List Exchange → Prop}
    {failed : Failure → List Exchange → Prop} {node : Text} {vmid : UInt64} (keeps : Keeps order part ok failed s)
    (known : order.about s node vmid) :
    Keeps order part (fun result t => ok result t ∧ order.about t node vmid)
      (fun failure t => failed failure t ∧ order.about t node vmid) s := by
  apply Attempts.frame keeps known
  · exact fun _ _ _ _ drift => drift.elim
  · rintro t query answer _ - known ⟨-, rfl⟩
    exact known.later _

theorem stopForRestart_keeps (held : Warranted order.allows s) {record : BoxRecord}
    (known : order.about s record.node record.vmid) (restarts : order.restarts = true)
    (saw : order.sawRunning s record.node record.vmid) :
    Keeps order (stopForRestart record order.forced) (fun _ _ => True) (fun _ _ => True) s := by
  unfold stopForRestart
  split
  next forced => exact stopBox_forced held ⟨known, Or.inl ⟨forced, saw⟩⟩
  next unforced =>
    have graceful := (stopBox_graceful held ⟨known, Bool.eq_false_of_not_eq_true unforced, saw⟩).about known
    apply Attempts.orElse (Attempts.mono graceful (fun _ _ _ _ => trivial) fun _ _ _ ends => ends)
    rintro failure t held ⟨ended, known⟩
    exact forceStop_keeps held known restarts ended

/-- Once it has stopped the box has been seen stopped. -/
theorem stopBeforeRestart_keeps (held : Warranted order.allows s) {record : BoxRecord}
    (known : order.about s record.node record.vmid) (restarts : order.restarts = true)
    (saw : order.sawRunning s record.node record.vmid) :
    Keeps order (stopBeforeRestart record order.forced)
      (fun _ t => order.about t record.node record.vmid ∧ SeenStopped t record.node record.vmid) (fun _ _ => True) s := by
  apply Attempts.andThen (Keeps.context ((stopForRestart_keeps held known restarts saw).about known).forget)
  rintro - t held ⟨-, known⟩
  apply Attempts.andThen (keeps_other held rfl)
  rintro state u held rfl
  unfold ensure
  split
  next stopped =>
    rw [of_decide_eq_true stopped] at held ⊢
    exact warranted_pure held ⟨known.later _, t, [], rfl, by simp⟩
  next => exact warranted_throw held trivial

theorem stopBeforeDelete_keeps (held : Warranted order.allows s) {record : BoxRecord}
    (known : order.about s record.node record.vmid) (unforced : order.forced = false)
    (saw : order.sawRunning s record.node record.vmid) :
    Keeps order (stopBeforeDelete record)
      (fun _ t => Last t (.getLxcState record.node record.vmid) (.ok STOPPED)) (fun _ _ => True) s := by
  have allowed : order.allows s (.shutdownLxc record.node record.vmid) := ⟨known, unforced, saw⟩
  apply Attempts.andThen (Keeps.context (keeps_call held allowed).forget)
  rintro task t held rfl
  apply Attempts.andThen (Keeps.context (keeps_other held rfl))
  rintro waited u held rfl
  apply Attempts.andThen (keeps_other held rfl)
  rintro state v held rfl
  unfold ensure
  split
  next stopped =>
    rw [of_decide_eq_true stopped] at held ⊢
    exact warranted_pure held ⟨_, rfl⟩
  next => exact warranted_throw held trivial

theorem destroyBox_keeps (held : Warranted order.allows s) {record : BoxRecord}
    (known : order.about s record.node record.vmid) (last : Last s (.getLxcState record.node record.vmid) (.ok STOPPED)) :
    Keeps order (destroyBox record) (fun _ _ => True) (fun _ _ => True) s := by
  have allowed : order.allows s (.deleteLxc record.node record.vmid) := ⟨known, last⟩
  apply Attempts.andThen (Keeps.context (keeps_call held allowed).forget)
  rintro task t held rfl
  exact Keeps.context (keeps_other held rfl).any

theorem deleteBox_keeps (held : Warranted order.allows s) {record : BoxRecord} (ordered : order = .delete record) :
    Keeps order (deleteBox record) (fun _ _ => True) (fun _ _ => True) s := by
  have known (t : List Exchange) : order.about t record.node record.vmid := ordered ▸ ⟨rfl, rfl⟩
  apply Attempts.andThen (Keeps.context (keeps_other held rfl))
  rintro state t held rfl
  split
  next up =>
    apply Attempts.andThen (stopBeforeDelete_keeps held (known _) (ordered ▸ rfl) (ordered ▸ ⟨state, up, s, rfl⟩))
    rintro - u held last
    exact destroyBox_keeps held (known u) last
  next down =>
    rw [not_not.mp down] at held ⊢
    exact destroyBox_keeps held (known _) ⟨s, rfl⟩

theorem runStart_keeps (held : Warranted order.allows s) {reference : Text} (ordered : order = .start reference) :
    Keeps order (runStart reference) (fun _ _ => True) (fun _ _ => True) s := by
  apply Attempts.andThen (keeps_other held rfl)
  rintro relayed t held rfl
  apply Attempts.andThen (keeps_other held rfl)
  rintro record u held rfl
  subst ordered
  exact startBox_keeps held relayed ⟨record, by simp, rfl, rfl⟩ fun restarts => nomatch restarts

theorem runRestart_keeps (held : Warranted order.allows s) {reference : Text} {force : Bool}
    (ordered : order = .restart reference force) :
    Keeps order (runRestart reference force) (fun _ _ => True) (fun _ _ => True) s := by
  apply Attempts.andThen (keeps_other held rfl)
  rintro relayed t held rfl
  apply Attempts.andThen (keeps_other held rfl)
  rintro record u held rfl
  apply Attempts.andThen (Keeps.context (keeps_other held rfl))
  rintro state v held rfl
  subst ordered
  generalize earlier : s ++ [_] ++ [_] = before at held ⊢
  have known : Order.about (.restart reference force) before record.node record.vmid :=
    ⟨record, by simp [← earlier], rfl, rfl⟩
  split
  next up =>
    apply Attempts.andThen (stopBeforeRestart_keeps held (known.later _) rfl ⟨state, up, before, rfl⟩)
    rintro - w held ⟨known, seen⟩
    exact startBox_keeps held relayed known fun _ => seen
  next down =>
    rw [not_not.mp down] at held ⊢
    exact startBox_keeps held relayed (known.later _) fun _ => ⟨before, [], rfl, by simp⟩

theorem runStop_keeps (held : Warranted order.allows s) {reference : Text} {force : Bool}
    (ordered : order = .stop reference force) :
    Keeps order (runStop reference force) (fun _ _ => True) (fun _ _ => True) s := by
  apply Attempts.andThen (keeps_other held rfl)
  rintro relayed t held rfl
  apply Attempts.andThen (keeps_other held rfl)
  rintro record u held rfl
  generalize earlier : s ++ [_] ++ [_] = before at held ⊢
  have known : order.about before record.node record.vmid := ordered ▸ ⟨record, by simp [← earlier], rfl, rfl⟩
  have saw : order.sawRunning before record.node record.vmid := ordered ▸ trivial
  have asked : Keeps order (stopRequest force record) (fun _ _ => True) (fun _ _ => True) before := by
    cases force with
    | true =>
      have allowed : order.allows before (.stopLxc record.node record.vmid) := ⟨known, Or.inl ⟨ordered ▸ rfl, saw⟩⟩
      exact (keeps_call held allowed).any
    | false =>
      have allowed : order.allows before (.shutdownLxc record.node record.vmid) := ⟨known, ordered ▸ rfl, saw⟩
      exact (keeps_call held allowed).any
  apply Attempts.andThen asked.context
  rintro task v held -
  apply Attempts.andThen (Keeps.context (Keeps.context (keeps_other held rfl)))
  rintro waited w held rfl
  exact warranted_pure held trivial

theorem Keeps.unprinted {Result : Type} {part : Command Result}
    (keeps : Keeps order part (fun _ _ => True) (fun _ _ => True) s) :
    Keeps order (unprinted part) (fun _ _ => True) (fun _ _ => True) s := by
  apply Attempts.andThen keeps
  rintro result t held -
  exact warranted_pure held trivial

theorem command_keeps (held : Warranted order.allows s) :
    Keeps order order.command (fun _ _ => True) (fun _ _ => True) s := by
  cases order with
  | start reference => exact (runStart_keeps held rfl).unprinted
  | stop reference force => exact (runStop_keeps held rfl).unprinted
  | restart reference force => exact (runRestart_keeps held rfl).unprinted
  | delete record => exact deleteBox_keeps held rfl

end Warrants

/-- Whatever PVE and the box answer, and wherever the command is cut off, every request that it has sent is warranted: it
is about the box that was found, a stop by force was asked for or follows a graceful one that failed as a task and left the
box up, a start follows a sight of the box not running, of a restart also one of it stopped since which nothing was asked to
change, and a deletion follows a sight of the box stopped. -/
theorem requests_warranted (order : Order) {rest : Program Query (fun query => Except Failure (Value query)) (Except Failure Unit)}
    {sent : List Exchange} (reached : Reaches (recorded Possible) order.command.run [] rest sent) :
    Warranted order.allows sent :=
  Always.here (Always.reached (command_keeps warranted_nil) reached)

/-- A restart whose graceful shutdown failed as a task and left the box up, cut off behind its stop by force. -/
def forcedExchanges : List Exchange :=
  [⟨.clientFromStore, .ok true⟩, ⟨.findBox "dev".toList, .ok devBox⟩, ⟨.getLxcState "pve".toList 104, .ok RUNNING⟩,
    ⟨.shutdownLxc "pve".toList 104, .ok "UPID:1".toList⟩,
    ⟨.waitForTask "pve".toList "UPID:1".toList, .error ⟨"timeout".toList, [], some ⟨"timeout".toList, "timeout".toList⟩⟩⟩,
    ⟨.getLxcState "pve".toList 104, .ok RUNNING⟩, ⟨.stopLxc "pve".toList 104, .ok "UPID:2".toList⟩]

theorem forced_restart_warranted : Warranted (Order.restart "dev".toList false).allows forcedExchanges :=
  requests_warranted (.restart "dev".toList false) (
    reaches_answer (.ok true) trivial <|
    reaches_answer (.ok devBox) trivial <|
    reaches_answer (.ok RUNNING) trivial <|
    reaches_answer (.ok "UPID:1".toList) trivial <|
    reaches_answer (.error ⟨"timeout".toList, [], some ⟨"timeout".toList, "timeout".toList⟩⟩) trivial <|
    reaches_answer (.ok RUNNING) trivial <|
    reaches_answer (.ok "UPID:2".toList) trivial <|
    .here _ _)

end Pbox.Cli.Lifecycle
