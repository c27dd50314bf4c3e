import Pbox.Agent.Session
import Pbox.Lib.Numerals
import Pbox.Lib.Utf8
import Mathlib.Data.List.Nodup

/-! How the agent kills what runs in a terminal: the process group of the shell, and by the lines of `/proc`
every process that shares its session. The name in such a line is the program's own choice, and it stands
there as it is. -/

namespace Pbox.Agent.ProcessGroup
open Pbox.Lib.Strings Pbox.Lib.Numerals Pbox.Lib.Utf8 Pbox.Agent.Session

/-- `str::rsplit_once`. -/
def rsplitOnce (separator : Char) (text : Text) : Option (Text × Text) :=
  (splitOnce separator text.reverse).map fun (back, front) => (front.reverse, back.reverse)

/-- `str::split_whitespace`. -/
def splitWhitespace (text : Text) : List Text := (text.splitOnP isWhitespace).filter (· ≠ [])

def parseI32 : Text → Option Int := parseSigned (-2 ^ 31) (2 ^ 31 - 1)

/-- An entry of `/proc`, with its file `stat` where that can be read. -/
structure Entry where
  name : Text
  stat : Option Bytes

/-- The process that an entry makes the agent kill. -/
def target (processGroupId : Int) (entry : Entry) : Option Int :=
  match parseI32 entry.name with
  | none => none
  | some pid =>
    match entry.stat.bind fromUtf8 with
    | none => none
    | some stat =>
      match rsplitOnce ')' stat with
      | none => none
      | some (_, fields) =>
        if (splitWhitespace fields)[3]?.bind parseI32 = some processGroupId then some pid else none

/-- The result of `kill_process_group`, and the arguments of its calls of `kill`. `delivered` says which calls
succeed; there may be no `/proc`. -/
def killProcessGroup (delivered : Int → Bool) (processGroupId : Nat) (proc : Option (List Entry)) : Bool × List Int :=
  if processGroupId ≤ 2 ^ 31 - 1 then
    (delivered (-processGroupId), -processGroupId :: (proc.getD []).filterMap (target processGroupId))
  else (false, [])

inductive State where
  | running
  | sleeping
  | diskSleep
  | stopped
  | tracing
  | dead
  | zombie
  | parked
  | idle
  deriving DecidableEq

def State.letter : State → Char
  | .running => 'R'
  | .sleeping => 'S'
  | .diskSleep => 'D'
  | .stopped => 'T'
  | .tracing => 't'
  | .dead => 'X'
  | .zombie => 'Z'
  | .parked => 'P'
  | .idle => 'I'

/-- A process as the kernel shows it. The name is any bytes; `more` is what follows the session. -/
structure Process where
  pid : Nat
  comm : Bytes
  state : State
  parent : Int
  group : Int
  session : Int
  more : List Int
  pid_pos : 0 < pid
  pid_le : pid ≤ 2 ^ 31 - 1
  session_ge : -2 ^ 31 ≤ session
  session_le : session ≤ 2 ^ 31 - 1

def Process.fields (process : Process) : List Text :=
  [[process.state.letter], showInt process.parent, showInt process.group, showInt process.session] ++
    process.more.map showInt

/-- What stands behind the name. -/
def Process.tail (process : Process) : Text := process.fields.flatMap (' ' :: ·) ++ ['\n']

def Process.stat (process : Process) : Bytes :=
  utf8 (showNat process.pid ++ [' ', '(']) ++ process.comm ++ utf8 (')' :: process.tail)

/-- The processes, and what else is in `/proc`. -/
structure Table where
  processes : List Process
  others : List Entry
  distinct : (processes.map Process.pid).Nodup
  named : ∀ entry ∈ others, parseI32 entry.name = none

def Table.proc (table : Table) : List Entry :=
  table.others ++ table.processes.map fun process => ⟨showNat process.pid, some process.stat⟩

/-- Whether a call of `kill` reaches a process. -/
def reaches (caller process : Process) (target : Int) : Bool :=
  if 0 < target then process.pid = target
  else if target = 0 then process.group = caller.group
  else if target = -1 then process.pid ≠ 1 && process.pid ≠ caller.pid
  else process.group = -target

def Killed (caller : Process) (table : Table) (sid : Nat) (process : Process) : Prop :=
  ∃ call ∈ (killProcessGroup (fun call => table.processes.any (reaches caller · call)) sid (some table.proc)).2,
    reaches caller process call = true

/-- A session is closed: all of it is killed, and nothing else but the group. -/
structure Closed (caller : Process) (table : Table) (sid : Nat) : Prop where
  session : ∀ process ∈ table.processes, process.session = sid → Killed caller table sid process
  others : ∀ process ∈ table.processes, Killed caller table sid process →
    process.session = sid ∨ process.group = sid

section Lines

theorem rsplitOnce_append {separator : Char} {front back : Text} (absent : separator ∉ back) :
    rsplitOnce separator (front ++ separator :: back) = some (front, back) := by
  have reversed : (front ++ separator :: back).reverse = back.reverse ++ separator :: front.reverse := by simp
  rw [rsplitOnce, reversed, splitOnce_append (by simpa using absent)]
  simp

theorem splitWhitespace_cons {field : Text} {space : Char} (solid : field ≠ [] ∧ ∀ c ∈ field, isWhitespace c = false)
    (is : isWhitespace space = true) (rest : Text) :
    splitWhitespace (field ++ space :: rest) = field :: splitWhitespace (space :: rest) := by
  have first := List.splitOnP_append_cons_of_forall_mem solid.2 space is rest
  have next := @List.splitOnP_append_cons_of_forall_mem _ isWhitespace [] (by simp) space is rest
  rw [List.nil_append] at next
  rw [splitWhitespace, splitWhitespace, first, next, List.filter_cons_of_pos (by simpa using solid.1)]
  rfl

theorem splitWhitespace_space {space : Char} (is : isWhitespace space = true) (rest : Text) :
    splitWhitespace (space :: rest) = splitWhitespace rest := by
  have next := @List.splitOnP_append_cons_of_forall_mem _ isWhitespace [] (by simp) space is rest
  rw [List.nil_append] at next
  rw [splitWhitespace, next]
  rfl

theorem splitWhitespace_fields (fields : List Text)
    (solid : ∀ field ∈ fields, field ≠ [] ∧ ∀ c ∈ field, isWhitespace c = false) :
    splitWhitespace (fields.flatMap (' ' :: ·) ++ ['\n']) = fields := by
  induction fields with
  | nil => decide
  | cons field rest ih =>
    have first := solid field List.mem_cons_self
    have later := ih fun field member => solid field (List.mem_cons_of_mem _ member)
    obtain ⟨space, behind, shape, is⟩ : ∃ space behind,
        rest.flatMap (' ' :: ·) ++ ['\n'] = space :: behind ∧ isWhitespace space = true := by
      cases rest with
      | nil => exact ⟨'\n', [], rfl, by decide⟩
      | cons next rest => exact ⟨' ', _, rfl, by decide⟩
    rw [List.flatMap_cons, List.cons_append, List.cons_append, splitWhitespace_space (by decide), List.append_assoc, shape,
      splitWhitespace_cons first is, ← shape, later]

end Lines

section Stat
variable {process : Process}

theorem digit_solid {c : Char} (digit : c.isDigit = true) : isWhitespace c = false ∧ c ≠ ')' := by
  simp only [Char.isDigit, ge_iff_le, Bool.and_eq_true, decide_eq_true_eq, UInt32.le_iff_toNat_le] at digit
  have least : 48 ≤ c.toNat := digit.1
  have largest : c.toNat ≤ 57 := digit.2
  constructor
  · simp only [isWhitespace, Bool.or_eq_false_iff, Bool.and_eq_false_iff, decide_eq_false_iff_not, beq_eq_false_iff_ne]
    omega
  · rintro rfl
    exact absurd least (by decide)

theorem showInt_solid (n : Int) :
    showInt n ≠ [] ∧ ∀ c ∈ showInt n, isWhitespace c = false ∧ c ≠ ')' := by
  refine ⟨?_, fun c member => ?_⟩
  · cases n with
    | ofNat n => exact Nat.toDigits_ne_nil
    | negSucc n => exact List.cons_ne_nil _ _
  · rcases showInt_chars member with digit | rfl
    · exact digit_solid digit
    · exact ⟨by decide, by decide⟩

theorem fields_solid {field : Text} (member : field ∈ process.fields) :
    field ≠ [] ∧ ∀ c ∈ field, isWhitespace c = false ∧ c ≠ ')' := by
  have letter : ∀ c ∈ [process.state.letter], isWhitespace c = false ∧ c ≠ ')' := by
    intro c member
    rw [List.mem_singleton.mp member]
    cases process.state <;> exact ⟨by decide, by decide⟩
  simp only [Process.fields, List.mem_append, List.mem_cons, List.not_mem_nil, or_false, List.mem_map] at member
  rcases member with (rfl | rfl | rfl | rfl) | ⟨n, _, rfl⟩
  · exact ⟨List.cons_ne_nil _ _, letter⟩
  · exact showInt_solid _
  · exact showInt_solid _
  · exact showInt_solid _
  · exact showInt_solid _

/-- Only the name can hold a parenthesis. -/
theorem tail_plain : ')' ∉ process.tail := by
  intro member
  rcases List.mem_append.mp member with inside | feed
  · obtain ⟨field, found, here⟩ := List.mem_flatMap.mp inside
    rcases List.mem_cons.mp here with space | here
    · exact absurd space (by decide)
    · exact ((fields_solid found).2 _ here).2 rfl
  · exact absurd (List.mem_singleton.mp feed) (by decide)

theorem tail_session : (splitWhitespace process.tail)[3]?.bind parseI32 = some process.session := by
  have split : splitWhitespace process.tail = process.fields := splitWhitespace_fields _ fun field member =>
    ⟨(fields_solid member).1, fun c inside => ((fields_solid member).2 c inside).1⟩
  rw [split]
  exact parseSigned_showInt process.session_ge process.session_le

/-- The line is read when the name can be, and then its session is. -/
theorem target_process (id : Int) : target id ⟨showNat process.pid, some process.stat⟩ =
    if (fromUtf8 process.comm).isSome = true ∧ process.session = id then some (process.pid : Int) else none := by
  have pid : parseI32 (showNat process.pid) = some (process.pid : Int) := by
    have small := process.pid_le
    exact @parseSigned_showInt (-2 ^ 31) (2 ^ 31 - 1) (process.pid : Int) (by omega) (by omega)
  have line := fromUtf8_between (showNat process.pid ++ [' ', '(']) (')' :: process.tail) process.comm
  unfold target
  rw [pid]
  dsimp only [Option.bind_some]
  rw [Process.stat, line]
  cases read : fromUtf8 process.comm with
  | none => rfl
  | some name =>
    have split : rsplitOnce ')' (showNat process.pid ++ [' ', '('] ++ name ++ ')' :: process.tail) =
        some (showNat process.pid ++ [' ', '('] ++ name, process.tail) := rsplitOnce_append tail_plain
    simp only [Option.map_some, split, tail_session, Option.some.injEq, Option.isSome_some, true_and]

end Stat

section Kill
variable {caller process : Process} {table : Table} {sid : Nat}

theorem target_proc {pid : Int} : pid ∈ table.proc.filterMap (target sid) ↔
    ∃ process ∈ table.processes, ((fromUtf8 process.comm).isSome = true ∧ process.session = sid) ∧ process.pid = pid := by
  rw [List.mem_filterMap]
  constructor
  · rintro ⟨entry, member, found⟩
    rcases List.mem_append.mp member with other | own
    · unfold target at found
      rw [table.named entry other] at found
      cases found
    · obtain ⟨process, listed, rfl⟩ := List.mem_map.mp own
      rw [target_process] at found
      split_ifs at found with matched
      cases found
      exact ⟨process, listed, matched, rfl⟩
  · rintro ⟨process, listed, matched, rfl⟩
    refine ⟨_, List.mem_append_right _ (List.mem_map_of_mem listed), ?_⟩
    rw [target_process, if_pos matched]

theorem reaches_group (child : 1 < sid) : reaches caller process (-sid) = true ↔ process.group = sid := by
  unfold reaches
  rw [if_neg (by omega), if_neg (by omega), if_neg (by omega), decide_eq_true_iff, neg_neg]

theorem reaches_process {other : Process} (listed : process ∈ table.processes) (listed' : other ∈ table.processes) :
    reaches caller process other.pid = true ↔ process = other := by
  have positive := other.pid_pos
  unfold reaches
  rw [if_pos (by omega), decide_eq_true_iff, Int.ofNat_inj]
  exact ⟨fun same => List.inj_on_of_nodup_map table.distinct listed listed' same, fun same => by rw [same]⟩

/-- What is killed for a session: its group, and what can be read of the rest. -/
theorem killed_iff (child : 1 < sid) (small : sid ≤ 2 ^ 31 - 1) (listed : process ∈ table.processes) :
    Killed caller table sid process ↔
      process.group = sid ∨ (fromUtf8 process.comm).isSome = true ∧ process.session = sid := by
  unfold Killed killProcessGroup
  rw [if_pos small]
  constructor
  · rintro ⟨call, calls, reached⟩
    rcases List.mem_cons.mp calls with rfl | calls
    · exact .inl ((reaches_group child).mp reached)
    · obtain ⟨other, listed', matched, rfl⟩ := target_proc.mp calls
      obtain rfl := (reaches_process listed listed').mp reached
      exact .inr matched
  · rintro (group | matched)
    · exact ⟨_, List.mem_cons_self, (reaches_group child).mpr group⟩
    · exact ⟨process.pid, List.mem_cons_of_mem _ (target_proc.mpr ⟨process, listed, matched, rfl⟩),
        (reaches_process listed listed).mpr rfl⟩

end Kill

/-- A session is closed exactly when its processes outside the group have names that are text. `sid` is the pid of a
child, so it is neither that of `init` nor zero. -/
theorem closed_iff (caller : Process) (table : Table) (sid : Nat) (child : 1 < sid) :
    Closed caller table sid ↔ ∀ process ∈ table.processes, process.session = sid →
      process.group = sid ∨ (fromUtf8 process.comm).isSome = true := by
  by_cases small : sid ≤ 2 ^ 31 - 1
  · constructor
    · intro closed process listed member
      exact ((killed_iff child small listed).mp (closed.session process listed member)).imp_right And.left
    · intro readable
      refine ⟨fun process listed member => ?_, fun process listed killed => ?_⟩
      · exact (killed_iff child small listed).mpr ((readable process listed member).imp_right fun text => ⟨text, member⟩)
      · rcases (killed_iff child small listed).mp killed with group | ⟨_, member⟩
        · exact .inr group
        · exact .inl member
  · have nobody (process : Process) : process.session ≠ sid := fun same => by
      have bound := process.session_le
      omega
    refine ⟨fun _ process _ member => absurd member (nobody process), fun _ =>
      ⟨fun process _ member => absurd member (nobody process), fun process _ killed => ?_⟩⟩
    obtain ⟨call, calls, _⟩ := killed
    unfold killProcessGroup at calls
    rw [if_neg small] at calls
    cases calls

section Examples

def agent : Process := ⟨300, ascii "pbox-agent", .sleeping, 1, 300, 300, [], by decide, by decide, by decide, by decide⟩

def shell : Process := ⟨812, ascii "bash", .sleeping, 300, 812, 812, [], by decide, by decide, by decide, by decide⟩

/-- A background job of the shell, in a group of its own. -/
def job (comm : Bytes) : Process := ⟨830, comm, .running, 812, 830, 812, [], by decide, by decide, by decide, by decide⟩

def terminal (comm : Bytes) : Table :=
  ⟨[agent, shell, job comm], [⟨"uptime".toList, none⟩], (by decide : [300, 812, 830].Nodup), by decide⟩

theorem spaced_closed : Closed agent (terminal (ascii "a) S 1 1
1")) 812 :=
  (closed_iff agent _ 812 (by decide)).mpr (by decide)

/-- A long name is cut in the middle of a character. -/
theorem cut_survives : ¬∀ (caller : Process) (table : Table) (sid : Nat), 1 < sid → Closed caller table sid := by
  intro always
  have closed := always agent (terminal (ascii "backups-of-caf" ++ [0xc3])) 812 (by decide)
  have listed : job (ascii "backups-of-caf" ++ [0xc3]) ∈ (terminal (ascii "backups-of-caf" ++ [0xc3])).processes :=
    List.mem_cons_of_mem _ (List.mem_cons_of_mem _ List.mem_cons_self)
  rcases (killed_iff (by decide) (by decide) listed).mp (closed.session _ listed rfl) with group | ⟨text, _⟩
  · exact absurd group (by decide)
  · exact absurd text (by decide)

end Examples

end Pbox.Agent.ProcessGroup
