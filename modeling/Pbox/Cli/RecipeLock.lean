import Mathlib.Logic.Function.Basic
import Pbox.Lib.Numerals
import Pbox.Lib.Transition

/-! The lock file of a recipe cache: `acquire_lock`, `stale_lock` and the drop of a lock, one file
operation a step, in any number of processes. A process is known by its pid, which another one
may get after its death. Whoever looks at the file does so by path: staleness is judged in one
step and the file renamed away in a later one. -/

namespace Pbox.Cli.RecipeLock
open Pbox.Lib.Strings Pbox.Lib.Numerals Pbox.Lib.Transition

def u32Max : Nat := 2 ^ 32 - 1

/-- An hour in the nanoseconds of the system clock. -/
def STALE_AGE : Nat := 3600 * 10 ^ 9

/-- What a process has left to do, at its first or its second attempt. -/
inductive Pc where
  | idle
  | opening (attempt : Nat)
  | inspecting (attempt : Nat)
  | reading (attempt modified : Nat)
  | probing (attempt pid : Nat)
  | dating (attempt modified : Nat)
  | quarantining (attempt : Nat)
  | removing (attempt : Nat)
  | writing (rest : Text)
  | undoing
  | holding
  deriving DecidableEq

structure Process where
  alive : Bool
  generation : Nat
  pc : Pc
  deriving DecidableEq

/-- The file at the lock's path, with the process that created it. -/
structure LockFile where
  owner : Nat
  generation : Nat
  contents : Text
  modified : Nat
  deriving DecidableEq

structure Cache where
  file : Option LockFile
  process : Nat → Process
  clock : Nat

inductive Action where
  | starts (pid : Nat)
  | dies (pid : Nat)
  | clock (now : Nat)
  | acquires (pid : Nat)
  | proceeds (pid : Nat)
  | fails (pid : Nat)
  | writes (pid count : Nat)
  | drops (pid : Nat)

/-- The line `pid=..` of a lock file, when it holds a number. -/
def recordedPid (contents : Text) : Option Nat :=
  ((contents.splitOn '\n').findSome? (stripPrefix "pid=".toList)).bind fun value =>
    parseUnsigned u32Max (trim value)

/-- What a process writes to the file it has created. -/
def record (pid : Nat) : Text := "pid=".toList ++ showNat pid ++ ['\n']

/-- `continue` in the loop of two attempts. -/
def retry (attempt : Nat) : Pc := if attempt = 0 then .opening 1 else .idle

def Cache.setPc (s : Cache) (pid : Nat) (pc : Pc) : Cache :=
  { s with process := Function.update s.process pid { s.process pid with pc } }

/-- The next operation of a call, when the operating system carries it out. -/
def proceed (s : Cache) (pid : Nat) : Option Cache :=
  match (s.process pid).pc with
  | .idle | .holding => none
  | .opening attempt =>
    match s.file with
    | none =>
      let created := { owner := pid, generation := (s.process pid).generation, contents := [], modified := s.clock }
      some ({ s with file := some created }.setPc pid (.writing (record pid)))
    | some _ => some (s.setPc pid (.inspecting attempt))
  | .inspecting attempt =>
    match s.file with
    | none => some (s.setPc pid .idle)
    | some file => some (s.setPc pid (.reading attempt file.modified))
  | .reading attempt modified =>
    match s.file with
    | none => some (s.setPc pid .idle)
    | some file =>
      match recordedPid file.contents with
      | some recorded => some (s.setPc pid (.probing attempt recorded))
      | none => some (s.setPc pid (.dating attempt modified))
  | .probing attempt recorded =>
    if (s.process recorded).alive then some (s.setPc pid .idle) else some (s.setPc pid (.quarantining attempt))
  | .dating attempt modified =>
    if modified + STALE_AGE ≤ s.clock then some (s.setPc pid (.quarantining attempt)) else some (s.setPc pid .idle)
  | .quarantining attempt =>
    match s.file with
    | none => some (s.setPc pid (retry attempt))
    | some _ => some ({ s with file := none }.setPc pid (.removing attempt))
  | .removing attempt => some (s.setPc pid (retry attempt))
  | .writing rest => if rest = [] then some (s.setPc pid .holding) else none
  | .undoing => some ({ s with file := none }.setPc pid .idle)

/-- The next operation of a call, or the removal in a drop, when it fails. -/
def fail (s : Cache) (pid : Nat) : Option Cache :=
  match (s.process pid).pc with
  | .opening _ | .inspecting _ | .reading _ _ | .quarantining _ | .removing _ | .undoing | .holding =>
    some (s.setPc pid .idle)
  | .writing rest => if rest = [] then none else some (s.setPc pid .undoing)
  | _ => none

/-- A write reaches the file at the path as long as that is the file the process created. -/
def LockFile.append (s : Cache) (pid : Nat) (text : Text) (file : LockFile) : LockFile :=
  if file.owner = pid ∧ file.generation = (s.process pid).generation then
    { file with contents := file.contents ++ text, modified := s.clock }
  else file

def step (s : Cache) : Action → Option Cache
  | .starts pid =>
    if (s.process pid).alive then none
    else
      let born := { alive := true, generation := (s.process pid).generation + 1, pc := .idle }
      some { s with process := Function.update s.process pid born }
  | .dies pid =>
    if (s.process pid).alive then
      some { s with process := Function.update s.process pid { s.process pid with alive := false, pc := .idle } }
    else none
  | .clock now => some { s with clock := now }
  | .acquires pid =>
    if (s.process pid).alive ∧ (s.process pid).pc = .idle then some (s.setPc pid (.opening 0)) else none
  | .proceeds pid => if (s.process pid).alive then proceed s pid else none
  | .fails pid => if (s.process pid).alive then fail s pid else none
  | .writes pid count =>
    match (s.process pid).pc with
    | .writing rest =>
      if (s.process pid).alive ∧ 0 < count ∧ count ≤ rest.length then
        some ({ s with file := s.file.map (LockFile.append s pid (rest.take count)) }.setPc pid
          (.writing (rest.drop count)))
      else none
    | _ => none
  | .drops pid =>
    if (s.process pid).alive ∧ (s.process pid).pc = .holding then
      some ({ s with file := none }.setPc pid .idle)
    else none

def Cache.Holds (s : Cache) (pid : Nat) : Prop := (s.process pid).alive = true ∧ (s.process pid).pc = .holding

def LockFile.CreatedBy (file : LockFile) (s : Cache) (pid : Nat) : Prop :=
  file.owner = pid ∧ file.generation = (s.process pid).generation

/-- No file, the file of a live holder, or a file whose creator has died, with anything in it. -/
def Initial (s : Cache) : Prop :=
  (s.file = none ∧ ∀ pid, (s.process pid).pc = .idle) ∨
  (∃ file, s.file = some file ∧ (∀ pid, file.CreatedBy s pid → (s.process pid).alive = false) ∧
    ∀ pid, (s.process pid).pc = .idle) ∨
  (∃ file holder, s.file = some file ∧ file.CreatedBy s holder ∧ file.contents = record holder ∧
    s.Holds holder ∧ ∀ pid, pid ≠ holder → (s.process pid).pc = .idle)

def system : System Cache Action where
  init := Initial
  step := step

/-- One live holder, and the file that its drop would remove is its own. -/
structure Exclusive (s : Cache) : Prop where
  single : ∀ first second, s.Holds first → s.Holds second → first = second
  own : ∀ pid file, s.Holds pid → s.file = some file → file.CreatedBy s pid

/-- A rename moves away only a file whose creator has died. -/
def Orderly (s : Cache) (action : Action) : Prop :=
  ∀ pid attempt file, action = .proceeds pid → (s.process pid).pc = .quarantining attempt → s.file = some file →
    ∀ creator, file.CreatedBy s creator → (s.process creator).alive = false

section Invariant

/-- Between its `create_new` and the removal a process has the file. -/
def Pc.Owns : Pc → Prop
  | .writing _ | .undoing | .holding => True
  | _ => False

def Inv (s : Cache) : Prop :=
  ∀ pid, (s.process pid).alive = true → (s.process pid).pc.Owns →
    ∃ file, s.file = some file ∧ file.CreatedBy s pid

variable {s t : Cache} {pid : Nat} {pc : Pc}

@[simp] theorem setPc_same : ((s.setPc pid pc).process pid) = { s.process pid with pc } :=
  Function.update_self ..

theorem setPc_other {other : Nat} (different : other ≠ pid) : (s.setPc pid pc).process other = s.process other :=
  Function.update_of_ne different ..

@[simp] theorem setPc_alive (other : Nat) : ((s.setPc pid pc).process other).alive = (s.process other).alive := by
  by_cases same : other = pid
  · rw [same, setPc_same]
  · rw [setPc_other same]

@[simp] theorem setPc_generation (other : Nat) :
    ((s.setPc pid pc).process other).generation = (s.process other).generation := by
  by_cases same : other = pid
  · rw [same, setPc_same]
  · rw [setPc_other same]

@[simp] theorem setPc_file : (s.setPc pid pc).file = s.file := rfl

/-- What a step of a call can do: look and give up or go on, create the file, remove the file it
has, or rename the file away. -/
inductive Moves (s : Cache) (pid : Nat) : Cache → Prop
  | stays (pc : Pc) (keeps : pc.Owns → (s.process pid).pc.Owns) : Moves s pid (s.setPc pid pc)
  | creates (file : LockFile) (pc : Pc) (absent : s.file = none) (created : file.CreatedBy s pid) :
    Moves s pid ({ s with file := some file }.setPc pid pc)
  | removes (pc : Pc) (owned : (s.process pid).pc.Owns) (rests : ¬pc.Owns) :
    Moves s pid ({ s with file := none }.setPc pid pc)
  | renames (attempt : Nat) (file : LockFile) (was : (s.process pid).pc = .quarantining attempt)
      (present : s.file = some file) : Moves s pid ({ s with file := none }.setPc pid (.removing attempt))

theorem retry_rests (attempt : Nat) : ¬(retry attempt).Owns := by
  unfold retry
  split <;> exact id

theorem proceed_moves (taken : proceed s pid = some t) : Moves s pid t := by
  unfold proceed at taken
  cases pc : (s.process pid).pc with
  | idle => simp [pc] at taken
  | holding => simp [pc] at taken
  | opening attempt =>
    rw [pc] at taken
    cases file : s.file with
    | none =>
      simp only [file, Option.some.injEq] at taken
      exact taken ▸ .creates _ _ file ⟨rfl, rfl⟩
    | some => 
      simp only [file, Option.some.injEq] at taken
      exact taken ▸ .stays _ False.elim
  | inspecting attempt =>
    rw [pc] at taken
    cases file : s.file <;> simp only [file, Option.some.injEq] at taken <;> exact taken ▸ .stays _ False.elim
  | reading attempt modified =>
    rw [pc] at taken
    cases file : s.file with
    | none =>
      simp only [file, Option.some.injEq] at taken
      exact taken ▸ .stays _ False.elim
    | some found =>
      simp only [file] at taken
      split at taken <;> cases taken <;> exact .stays _ False.elim
  | probing attempt recorded =>
    rw [pc] at taken
    simp only at taken
    split at taken <;> cases taken <;> exact .stays _ False.elim
  | dating attempt modified =>
    rw [pc] at taken
    simp only at taken
    split at taken <;> cases taken <;> exact .stays _ False.elim
  | quarantining attempt =>
    rw [pc] at taken
    cases file : s.file with
    | none =>
      simp only [file, Option.some.injEq] at taken
      exact taken ▸ .stays _ fun owns => absurd owns (retry_rests attempt)
    | some found =>
      simp only [file, Option.some.injEq] at taken
      exact taken ▸ .renames attempt found pc file
  | removing attempt =>
    simp only [pc, Option.some.injEq] at taken
    exact taken ▸ .stays _ fun owns => absurd owns (retry_rests attempt)
  | writing rest =>
    rw [pc] at taken
    simp only at taken
    split at taken
    · cases taken
      exact .stays _ fun _ => by rw [pc]; trivial
    · cases taken
  | undoing =>
    simp only [pc, Option.some.injEq] at taken
    exact taken ▸ .removes _ (by rw [pc]; trivial) id

theorem fail_stays (taken : fail s pid = some t) :
    ∃ pc, t = s.setPc pid pc ∧ (pc.Owns → (s.process pid).pc.Owns) := by
  unfold fail at taken
  split at taken
  case h_8 rest was =>
    split at taken
    · cases taken
    · cases taken
      exact ⟨_, rfl, fun _ => by rw [was]; trivial⟩
  case h_9 => cases taken
  all_goals
    cases taken
    exact ⟨_, rfl, False.elim⟩

/-- The live owner of the file is the only one. -/
theorem owner_unique {first second : Nat} (inv : Inv s) (alive : (s.process first).alive = true)
    (alive' : (s.process second).alive = true) (owns : (s.process first).pc.Owns)
    (owns' : (s.process second).pc.Owns) : first = second := by
  obtain ⟨file, present, mine⟩ := inv first alive owns
  obtain ⟨file', present', theirs⟩ := inv second alive' owns'
  cases present.symm.trans present'
  exact mine.1.symm.trans theirs.1

/-- A change of one process and of the file keeps the invariant if the process still has the file
when it should and nobody else lost it. -/
theorem inv_setPc {file : Option LockFile} 
    (mine : pc.Owns → ∃ f, file = some f ∧ f.CreatedBy s pid)
    (others : ∀ other, other ≠ pid → (s.process other).alive = true → (s.process other).pc.Owns →
      ∃ f, file = some f ∧ f.CreatedBy s other) : Inv ({ s with file }.setPc pid pc) := by
  intro other alive owns
  rw [setPc_alive] at alive
  by_cases same : other = pid
  · subst same
    rw [setPc_same] at owns
    obtain ⟨f, present, created⟩ := mine owns
    exact ⟨f, present, by rw [LockFile.CreatedBy, setPc_generation]; exact created⟩
  · rw [setPc_other same] at owns
    obtain ⟨f, present, created⟩ := others other same alive owns
    exact ⟨f, present, by rw [LockFile.CreatedBy, setPc_generation]; exact created⟩

theorem inv_stays (inv : Inv s) (keeps : pc.Owns → (s.process pid).pc.Owns)
    (alive : (s.process pid).alive = true) : Inv (s.setPc pid pc) :=
  inv_setPc (fun owns => inv pid alive (keeps owns)) fun other _ => inv other

theorem inv_moves (inv : Inv s) (alive : (s.process pid).alive = true) (moves : Moves s pid t)
    (orderly : ∀ attempt file, (s.process pid).pc = .quarantining attempt → s.file = some file →
      ∀ creator, file.CreatedBy s creator → (s.process creator).alive = false) : Inv t := by
  cases moves with
  | stays pc keeps => exact inv_stays inv keeps alive
  | creates file pc absent created =>
    refine inv_setPc (fun _ => ⟨file, rfl, created⟩) ?_
    intro other _ living owns
    obtain ⟨f, present, _⟩ := inv other living owns
    rw [absent] at present
    cases present
  | removes pc owned rests =>
    refine inv_setPc (fun owns => absurd owns rests) ?_
    intro other different living owns
    exact absurd (owner_unique inv living alive owns owned) different
  | renames attempt file was present =>
    refine inv_setPc False.elim ?_
    intro other _ living owns
    obtain ⟨f, present', created⟩ := inv other living owns
    cases present.symm.trans present'
    rw [orderly attempt file was present other created] at living
    cases living

theorem append_createdBy {file : LockFile} {text : Text} {other : Nat} (created : file.CreatedBy s other) :
    (file.append s pid text).CreatedBy s other := by
  unfold LockFile.append
  split <;> exact created

/-- A process that starts or dies has nothing, and the file stays the others'. -/
theorem inv_restarts (inv : Inv s) (process : Process) (idle : process.pc = .idle) :
    Inv { s with process := Function.update s.process pid process } := by
  intro other alive owns
  by_cases same : other = pid
  · subst same
    simp only [Function.update_self, idle] at owns
    exact owns.elim
  · simp only [Function.update_of_ne same] at alive owns
    obtain ⟨file, present, created⟩ := inv other alive owns
    exact ⟨file, present, by simpa only [LockFile.CreatedBy, Function.update_of_ne same] using created⟩

theorem inv_step {action : Action} (inv : Inv s) (orderly : Orderly s action)
    (taken : step s action = some t) : Inv t := by
  cases action with
  | starts pid =>
    simp only [step] at taken
    split at taken
    · cases taken
    · cases taken
      exact inv_restarts inv _ rfl
  | dies pid =>
    simp only [step] at taken
    split at taken
    · cases taken
      exact inv_restarts inv _ rfl
    · cases taken
  | clock now =>
    cases taken
    exact inv
  | acquires pid =>
    simp only [step] at taken
    split at taken
    next ready =>
      cases taken
      exact inv_stays inv False.elim ready.1
    next => cases taken
  | proceeds pid =>
    simp only [step] at taken
    split at taken
    next alive => exact inv_moves inv alive (proceed_moves taken) fun attempt file => orderly pid attempt file rfl
    next => cases taken
  | fails pid =>
    simp only [step] at taken
    split at taken
    next alive =>
      obtain ⟨pc, rfl, keeps⟩ := fail_stays taken
      exact inv_stays inv keeps alive
    next => cases taken
  | writes pid count =>
    simp only [step] at taken
    split at taken
    next rest was =>
      split at taken
      next ready =>
        cases taken
        have appended {other : Nat} (alive : (s.process other).alive = true) (owns : (s.process other).pc.Owns) :
            ∃ f, s.file.map (LockFile.append s pid (rest.take count)) = some f ∧ f.CreatedBy s other := by
          obtain ⟨file, present, created⟩ := inv other alive owns
          exact ⟨_, by rw [present]; rfl, append_createdBy created⟩
        refine inv_setPc (fun _ => appended ready.1 ?_) fun other _ => appended
        rw [was]
        trivial
      next => cases taken
    next => cases taken
  | drops pid =>
    simp only [step] at taken
    split at taken
    next held =>
      cases taken
      refine inv_moves inv held.1 (.removes _ (by rw [held.2]; trivial) id) ?_
      intro _ _ was
      simp [held.2] at was
    next => cases taken

theorem initial_inv (start : Initial s) : Inv s := by
  intro pid alive owns
  rcases start with ⟨_, idle⟩ | ⟨_, _, _, idle⟩ | ⟨file, holder, present, created, _, _, idle⟩
  · rw [idle] at owns
    exact owns.elim
  · rw [idle] at owns
    exact owns.elim
  · by_cases same : pid = holder
    · exact ⟨file, present, same ▸ created⟩
    · rw [idle pid same] at owns
      exact owns.elim

theorem exclusive_of_inv (inv : Inv s) : Exclusive s where
  single first second holds holds' :=
    owner_unique inv holds.1 holds'.1 (by rw [holds.2]; trivial) (by rw [holds'.2]; trivial)
  own pid file holds present := by
    obtain ⟨found, present', created⟩ := inv pid holds.1 (by rw [holds.2]; trivial)
    cases present.symm.trans present'
    exact created

end Invariant

/-- In a run in which every rename moves away the file of a dead process, a lock has one live
holder at a time and a drop removes its own file. -/
theorem orderly_exclusive (s : Cache) (reached : system.ReachableBy Orderly s) : Exclusive s :=
  exclusive_of_inv
    (reached.invariant (fun _ => initial_inv) fun _ _ _ inv orderly taken => inv_step inv orderly taken)

section Race

def newcomer : Process := { alive := true, generation := 1, pc := .idle }

/-- The file of a process 99 that died before this. -/
def abandoned : Cache where
  file := some { owner := 99, generation := 1, contents := record 99, modified := 0 }
  process := fun pid => if pid < 2 then newcomer else { alive := false, generation := 0, pc := .idle }
  clock := 0

theorem abandoned_initial : Initial abandoned := by
  refine .inr (.inl ⟨_, rfl, ?_, ?_⟩)
  · rintro pid ⟨rfl, _⟩
    decide
  · intro pid
    simp only [abandoned, newcomer]
    split <;> rfl

/-- A call that finds the file stale, up to its rename. -/
def judges (pid : Nat) : List Action :=
  [.acquires pid, .proceeds pid, .proceeds pid, .proceeds pid, .proceeds pid]

/-- From the rename to the lock. -/
def recovers (pid : Nat) : List Action :=
  [.proceeds pid, .proceeds pid, .proceeds pid, .writes pid (record pid).length, .proceeds pid]

/-- One recovery after the other. -/
def inTurn : List Action := judges 0 ++ recovers 0 ++ [.drops 0, .acquires 1, .proceeds 1, .writes 1 6, .proceeds 1]

/-- Two processes find the file stale before either renames it. -/
def crossing : List Action := judges 0 ++ judges 1 ++ recovers 0 ++ recovers 1

/-- `Orderly`, decided: the file that is renamed away has no live creator. -/
def orderly (s : Cache) : Action → Bool
  | .proceeds pid =>
    match (s.process pid).pc, s.file with
    | .quarantining _, some file =>
      !((s.process file.owner).alive && file.generation == (s.process file.owner).generation)
    | _, _ => true
  | _ => true

theorem orderly_sound (s : Cache) (action : Action) (holds : orderly s action = true) : Orderly s action := by
  rintro pid attempt file rfl was present creator ⟨rfl, same⟩
  simp only [orderly, was, present, same, beq_self_eq_true, Bool.and_true, Bool.not_eq_true'] at holds
  exact holds

theorem inTurn_runs : (system.runBy orderly abandoned inTurn).isSome = true := by decide

theorem inTurn_exclusive : Exclusive ((system.runBy orderly abandoned inTurn).get inTurn_runs) :=
  orderly_exclusive _
    (System.reachableBy_of_runBy orderly_sound (.start abandoned_initial) (Option.some_get _).symm)

theorem crossing_runs : (system.run abandoned crossing).isSome = true := by decide

/-- The second recovery renames the first one's live lock away: both hold the lock, and the first
one's drop would remove the other's file. -/
theorem crossing_not_exclusive : ¬∀ s, system.Reachable s → Exclusive s := by
  intro always
  have reached : system.Reachable ((system.run abandoned crossing).get crossing_runs) :=
    System.reachable_of_run (.start abandoned_initial) (Option.some_get _).symm
  have single := (always _ reached).single 0 1 (by unfold Cache.Holds; decide) (by unfold Cache.Holds; decide)
  cases single

end Race

end Pbox.Cli.RecipeLock
