import Pbox.Lib.Pages
import Pbox.Cli.RecipeApply
import Pbox.Cli.VmidRace

/-! `wait_for_task_with_progress`: the state of a PVE task is read again and again until it has stopped, and its log is
shown as it grows, at most one page for each time the state was read. -/

namespace Pbox.Cli.TaskLog
open Pbox.Lib.Strings Pbox.Lib.Numerals Pbox.Lib.Pages
open Pbox.Cli.VmidRace (PveError)
open Pbox.Cli.RecipeApply (safeTerminalText)

structure PveTaskStatus where
  status : Text
  exitstatus : Option Text

structure PveTaskLog where
  n : Nat
  t : Text

def STOPPED : Text := "stopped".toList
def PVE_TASK_TIMEOUT : Nat := 5 * 60
def TASK_LOG_LIMIT : Nat := 40
def TASK_LOG_MAX_CHARS : Nat := 8 * 1024
def PAGE : Nat := 100

def PveTaskStatus.isSuccessful (status : PveTaskStatus) : Bool :=
  status.status == STOPPED &&
    match status.exitstatus with
    | some exit => exit == "OK".toList || "WARNINGS:".toList.isPrefixOf exit
    | none => false

/-- What happens between two states that are read. The times are in milliseconds; the lines are those of the whole log,
once when the loop reads it and once when an error is put together. -/
structure Poll where
  status : Except PveError PveTaskStatus
  now : Nat
  lines : Except PveError (List Text)
  loggedAt : Nat
  detail : Except PveError (List Text)
  ended : Nat

inductive Failure where
  | text (message : Text)
  | task (exitStatus detail : Text)

structure Wait where
  logCursor : Nat
  readFailures : Nat
  lastLog : Option Nat
  shown : List Text

abbrev Outcome := Option (Except Failure Unit)

/-- The task as the messages name it, and what the wait is to show. -/
structure Task where
  node : Text
  upid : Text
  details : Bool
  verbose : Bool
  started : Nat

section Loop

-- How PVE answers when a log of these lines is asked for from a position on, with a limit.
variable (getTaskLog : List Text → Nat → Nat → List PveTaskLog) (task : Task)

/-- The text of an error is cut to so many characters, at the end of a line or within it. -/
def errorLog (used : Nat) : List PveTaskLog → Text
  | [] => []
  | entry :: rest =>
    let line := safeTerminalText entry.t
    if line = [] then errorLog used rest
    else
      let shown := line.take (TASK_LOG_MAX_CHARS - used)
      if used + shown.length ≥ TASK_LOG_MAX_CHARS then shown
      else shown ++ '\n' :: errorLog (used + shown.length + 1) rest

def taskErrorWithLog (detail : Except PveError (List Text)) (message : Text) : Text :=
  match detail with
  | .error _ => message
  | .ok lines =>
    let log := errorLog 0 (getTaskLog lines 0 TASK_LOG_LIMIT)
    if log = [] then message
    else message ++ "\nPVE task log:\n".toList ++ (log.reverse.dropWhile isWhitespace).reverse

def passing : PveError → Bool
  | .http status _ _ => status = 502 || status = 503 || status = 504 || status = 596
  | .other _ => false

/-- Whether a second has gone by since the log was read. -/
def due (lastLog : Option Nat) (now : Nat) : Bool :=
  match lastLog with
  | none => true
  | some time => 1000 ≤ now - time

/-- The lines of one page, each of which is shown. -/
def showLines (wait : Wait) (entries : List PveTaskLog) : Wait :=
  entries.foldl (fun wait line =>
    { wait with logCursor := max wait.logCursor line.n, shown := wait.shown ++ [line.t] }) wait

def readLog (wait : Wait) (poll : Poll) : Wait :=
  let wait :=
    match poll.lines with
    | .ok lines => showLines wait (getTaskLog lines wait.logCursor PAGE)
    | .error _ => wait
  { wait with lastLog := some poll.loggedAt }

def failed (poll : Poll) (status : PveTaskStatus) : Failure :=
  .task (status.exitstatus.getD []) (taskErrorWithLog getTaskLog poll.detail
    ("PVE task failed on node ".toList ++ task.node ++ " (UPID ".toList ++ task.upid ++ "): ".toList ++
      status.exitstatus.getD "missing exit status".toList))

def timedOut (poll : Poll) : Failure :=
  .text (taskErrorWithLog getTaskLog poll.detail
    ("PVE task ".toList ++ task.upid ++ " on node ".toList ++ task.node ++ " did not finish within ".toList ++
      showNat PVE_TASK_TIMEOUT ++ " seconds".toList))

/-- One pass of the loop, with the result when it is the last one. -/
def pass (wait : Wait) (poll : Poll) : Wait × Outcome :=
  match poll.status with
  | .error error =>
    if passing error && wait.readFailures < 3 then ({ wait with readFailures := wait.readFailures + 1 }, none)
    else (wait, some (.error (.text ("read PVE task status: ".toList ++ error.text))))
  | .ok status =>
    let wait := { wait with readFailures := 0 }
    let wait :=
      if (task.details || task.verbose) && (due wait.lastLog poll.now || status.status == STOPPED) then
        readLog getTaskLog wait poll
      else wait
    if status.status = STOPPED then
      (wait, some (if status.isSuccessful then .ok () else .error (failed getTaskLog task poll status)))
    else if poll.ended - task.started ≥ PVE_TASK_TIMEOUT * 1000 then
      (wait, some (.error (timedOut getTaskLog task poll)))
    else (wait, none)

def passes (wait : Wait) : List Poll → Wait × Outcome
  | [] => (wait, none)
  | poll :: rest =>
    match pass getTaskLog task wait poll with
    | (wait, some result) => (wait, some result)
    | (wait, none) => passes wait rest

def waitForTaskWithProgress (polls : List Poll) : Wait × Outcome := passes getTaskLog task ⟨0, 0, none, []⟩ polls

end Loop

/-! Polls whose reads succeed, of a task whose log grows until it stops. -/

structure Look where
  status : PveTaskStatus
  now : Nat
  lines : List Text
  loggedAt : Nat
  detail : List Text
  ended : Nat

def Look.poll (look : Look) : Poll :=
  ⟨.ok look.status, look.now, .ok look.lines, look.loggedAt, .ok look.detail, look.ended⟩

/-- Lines are only appended, and none once the task is seen stopped. -/
structure Growth (log : List Text) (looks : List Look) : Prop where
  grows : looks.Pairwise fun earlier later => earlier.lines <+: later.lines
  stops : ∀ look ∈ looks, look.status.status = STOPPED → look.lines = log

/-- How PVE pages a log: the first lines are skipped, no more than the limit are returned, and lines count from one. -/
def Pages (getTaskLog : List Text → Nat → Nat → List PveTaskLog) : Prop :=
  ∀ lines start limit, getTaskLog lines start limit = (page lines start limit).map fun entry => ⟨entry.1, entry.2⟩

/-- How long the log was each time it was read: a second or more after the last time, and when the task has stopped. -/
def readings (lastLog : Option Nat) : List Look → List Nat
  | [] => []
  | look :: rest =>
    if look.status.status = STOPPED then [look.lines.length]
    else if due lastLog look.now then look.lines.length :: readings (some look.loggedAt) rest
    else readings lastLog rest

section Reading

variable {getTaskLog : List Text → Nat → Nat → List PveTaskLog} {task : Task} {log : List Text}

theorem showLines_eq (wait : Wait) (entries : List PveTaskLog) : showLines wait entries =
    { wait with logCursor := entries.foldl (fun cursor line => max cursor line.n) wait.logCursor
                shown := wait.shown ++ entries.map PveTaskLog.t } := by
  unfold showLines
  induction entries generalizing wait with
  | nil => simp
  | cons line rest ih => simp [ih]

/-- A page that is shown is the one behind the cursor, and the cursor goes to its end. -/
theorem showLines_page (pages : Pages getTaskLog) (wait : Wait) (lines : List Text) :
    showLines wait (getTaskLog lines wait.logCursor PAGE) =
      { wait with logCursor := wait.logCursor + ((lines.drop wait.logCursor).take PAGE).length
                  shown := wait.shown ++ (lines.drop wait.logCursor).take PAGE } := by
  have texts : ((numbered wait.logCursor ((lines.drop wait.logCursor).take PAGE)).map
      fun entry => (⟨entry.1, entry.2⟩ : PveTaskLog)).map PveTaskLog.t = (lines.drop wait.logCursor).take PAGE := by
    rw [List.map_map]
    exact numbered_lines wait.logCursor _
  rw [showLines_eq, pages]
  unfold page
  rw [texts, List.foldl_map, numbered_last]

/-- What the loop has shown: the beginning of the log as it was when it was last read. -/
structure Read (wait : Wait) (lengths : List Nat) (earlier : List Text) : Prop where
  cursor : wait.logCursor = reach PAGE lengths
  inside : wait.logCursor ≤ earlier.length
  shown : wait.shown = earlier.take wait.logCursor

theorem Read.reset {wait : Wait} {lengths : List Nat} {earlier : List Text} (read : Read wait lengths earlier) :
    Read { wait with readFailures := 0 } lengths earlier :=
  ⟨read.cursor, read.inside, read.shown⟩

theorem Read.next (pages : Pages getTaskLog) {wait : Wait} {lengths : List Nat} {earlier : List Text} {look : Look}
    (read : Read wait lengths earlier) (grown : earlier <+: look.lines) :
    Read (readLog getTaskLog wait look.poll) (look.lines.length :: lengths) look.lines := by
  have longer := grown.length_le
  have inside := read.inside
  have moved : wait.logCursor + ((look.lines.drop wait.logCursor).take PAGE).length =
      min look.lines.length (wait.logCursor + PAGE) := by
    rw [List.length_take, List.length_drop]
    omega
  unfold readLog Look.poll
  dsimp only
  rw [showLines_page pages, moved]
  refine ⟨?_, ?_, ?_⟩
  · rw [read.cursor]
    rfl
  · exact Nat.min_le_left _ _
  · change wait.shown ++ _ = _
    rw [read.shown]
    exact take_page grown inside

theorem pass_stopped (details : task.details = true) {wait : Wait} {look : Look}
    (stopped : look.status.status = STOPPED) :
    ∃ result, pass getTaskLog task wait look.poll =
      (readLog getTaskLog { wait with readFailures := 0 } look.poll, some result) := by
  unfold pass Look.poll
  dsimp only
  rw [details, stopped, beq_self_eq_true, Bool.or_true, Bool.true_or, Bool.and_true, if_pos rfl, if_pos rfl]
  exact ⟨_, rfl⟩

/-- A pass that does not see the task stopped goes on, or the wait ends with an error. -/
theorem pass_running (details : task.details = true) {wait : Wait} {look : Look}
    (running : look.status.status ≠ STOPPED) :
    ∃ outcome : Outcome, outcome ≠ some (.ok ()) ∧ pass getTaskLog task wait look.poll =
      (if due wait.lastLog look.now then readLog getTaskLog { wait with readFailures := 0 } look.poll
        else { wait with readFailures := 0 }, outcome) := by
  unfold pass Look.poll
  dsimp only
  rw [details, beq_false_of_ne running, Bool.or_false, Bool.true_or, Bool.true_and, if_neg running]
  split
  · exact ⟨some (.error (timedOut getTaskLog task look.poll)), (fun same => nomatch same), rfl⟩
  · exact ⟨none, (fun same => nomatch same), rfl⟩

/-- Every read moves the loop on by a page or to the end of what the log was. -/
theorem passes_read (pages : Pages getTaskLog) (details : task.details = true) {looks : List Look}
    (growth : Growth log looks) {wait : Wait} {lengths : List Nat} {earlier : List Text}
    (read : Read wait lengths earlier) (before : ∀ look ∈ looks, earlier <+: look.lines)
    (returned : (passes getTaskLog task wait (looks.map Look.poll)).2 = some (.ok ())) :
    Read (passes getTaskLog task wait (looks.map Look.poll)).1
      ((readings wait.lastLog looks).reverse ++ lengths) log := by
  induction looks generalizing wait lengths earlier with
  | nil => cases returned
  | cons look rest ih =>
    obtain ⟨above, later⟩ := List.pairwise_cons.mp growth.grows
    have tail : Growth log rest := ⟨later, fun found listed => growth.stops found (List.mem_cons_of_mem _ listed)⟩
    have reread := read.reset.next pages (before look List.mem_cons_self)
    have behind := fun found listed => before found (List.mem_cons_of_mem look listed)
    rw [List.map_cons] at returned ⊢
    unfold passes at returned ⊢
    unfold readings
    by_cases stopped : look.status.status = STOPPED
    · obtain ⟨result, passed⟩ := @pass_stopped getTaskLog task details wait look stopped
      rw [passed, if_pos stopped, ← growth.stops look List.mem_cons_self stopped]
      exact reread
    · obtain ⟨outcome, other, passed⟩ := @pass_running getTaskLog task details wait look stopped
      rw [passed] at returned ⊢
      rw [if_neg stopped]
      cases outcome with
      | some result => exact absurd returned other
      | none =>
        by_cases again : due wait.lastLog look.now = true
        · rw [if_pos again] at returned ⊢
          rw [if_pos again, List.reverse_cons, List.append_assoc]
          exact ih tail reread above returned
        · rw [if_neg again] at returned ⊢
          rw [if_neg again]
          exact ih tail read.reset behind returned

/-- Of a task that ended well, every line has been shown once and in order exactly if no read of the log before was so
many lines behind the end that the pages from there on did not suffice; the start counts as a read of an empty log. -/
theorem log_shown_iff (pages : Pages getTaskLog) (details : task.details = true) {looks : List Look}
    (growth : Growth log looks)
    (returned : (waitForTaskWithProgress getTaskLog task (looks.map Look.poll)).2 = some (.ok ())) :
    (waitForTaskWithProgress getTaskLog task (looks.map Look.poll)).1.shown = log ↔
      ∀ back, log.length ≤ (readings none looks).reverse[back]?.getD 0 + PAGE * back := by
  have start : Read ⟨0, 0, none, []⟩ [] [] := ⟨rfl, Nat.le_refl _, rfl⟩
  have read := passes_read pages details growth start (fun look _ => List.nil_prefix) returned
  rw [List.append_nil] at read
  rw [← le_reach_iff, ← read.cursor]
  change (passes _ _ _ _).1.shown = log ↔ _
  rw [read.shown]
  exact List.take_eq_self_iff log

end Reading

/-- A log of so many lines, and a task that is seen stopped the first time it is looked at. -/
def longLog (count : Nat) : List Text := List.replicate count "line".toList

def stoppedLook (count : Nat) : Look := ⟨⟨STOPPED, some "OK".toList⟩, 250, longLog count, 251, [], 252⟩

def quietTask : Task := ⟨"pve".toList, "UPID:pve:1".toList, true, false, 0⟩

def pvePages (lines : List Text) (start limit : Nat) : List PveTaskLog :=
  (page lines start limit).map fun entry => ⟨entry.1, entry.2⟩

theorem stopped_growth (count : Nat) : Growth (longLog count) [stoppedLook count] where
  grows := List.pairwise_singleton _ _
  stops _ listed _ := List.mem_singleton.mp listed ▸ rfl

/-- A task that has written more than a page by the time it is first seen stopped. -/
theorem long_log_cut :
    ∃ (getTaskLog : List Text → Nat → Nat → List PveTaskLog) (task : Task) (log : List Text) (looks : List Look),
      Pages getTaskLog ∧ task.details = true ∧ Growth log looks ∧
      (waitForTaskWithProgress getTaskLog task (looks.map Look.poll)).2 = some (.ok ()) ∧
      (waitForTaskWithProgress getTaskLog task (looks.map Look.poll)).1.shown ≠ log := by
  refine ⟨pvePages, quietTask, longLog 101, [stoppedLook 101], fun _ _ _ => rfl, rfl, stopped_growth 101, rfl, ?_⟩
  intro same
  have counted := congrArg List.length same
  revert counted
  decide +kernel

theorem short_log_shown :
    (waitForTaskWithProgress pvePages quietTask ([stoppedLook 2].map Look.poll)).1.shown = longLog 2 := by
  apply (@log_shown_iff pvePages quietTask (longLog 2) (fun _ _ _ => rfl) rfl [stoppedLook 2] (stopped_growth 2) rfl).mpr
  intro back
  cases back with
  | zero => exact Nat.le_refl 2
  | succ back =>
    change 2 ≤ _ + 100 * (back + 1)
    omega

end Pbox.Cli.TaskLog
