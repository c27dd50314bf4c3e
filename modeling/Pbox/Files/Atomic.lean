import Mathlib.Algebra.Group.Nat.Defs
import Pbox.Lib.Transition
import Pbox.Files.UploadSpec

/-! Uploads that run at the same time. Each call draws a number for its temporary file and creates
that file as a new one, so no two calls write to one file even when the numbers come round. -/

namespace Pbox.Files
open Pbox.Lib.Strings Pbox.Lib.Framing Pbox.Lib.Effects Pbox.Lib.Transition
open Pbox.Agent.Session (Bytes Status PROTOCOL)

section Calls

/-- A call of `put_file`: before it has a temporary name, with one, with the file, and at its end. -/
inductive Call where
  | idle
  | named (draw : Nat) (destination : Path)
  | holding (draw : Nat) (destination : Path)
  | over
  deriving DecidableEq

structure Calls where
  drawn : Nat
  files : Fs
  calls : Nat → Call

inductive CallAct where
  | draw (u : Nat) (destination : Path)
  | create (u : Nat) (mode : UInt32)
  | write (u : Nat) (file : File)
  | overwrite (u : Nat) (file : File)
  | move (u : Nat)
  | discard (u : Nat)
  | fail (u : Nat)

def CallAct.call : CallAct → Nat
  | draw u _ | create u _ | write u _ | overwrite u _ | move u | discard u | fail u => u

/-- `fetch_add` on the counter of 64 bits that all calls share. -/
def uploadIdOf (draw : Nat) : Nat := draw % 2 ^ 64

variable (process : Nat)

def temporaryOf (draw : Nat) (destination : Path) : Path :=
  temporaryPath destination process (uploadIdOf draw)

def Calls.become (s : Calls) (u : Nat) (call : Call) : Calls :=
  { s with calls := Function.update s.calls u call }

def Calls.step (s : Calls) : CallAct → Option Calls
  | .draw u destination =>
    match s.calls u with
    | .idle => some { s.become u (.named s.drawn destination) with drawn := s.drawn + 1 }
    | _ => none
  | .create u mode =>
    match s.calls u with
    | .named draw destination =>
      if (s.files (temporaryOf process draw destination)).isSome then some (s.become u .over)
      else
        some { s.become u (.holding draw destination) with
          files := Function.update s.files (temporaryOf process draw destination) (some ⟨[], mode⟩) }
    | _ => none
  | .write u file =>
    match s.calls u with
    | .holding draw destination =>
      some { s with files := Function.update s.files (temporaryOf process draw destination) (some file) }
    | _ => none
  | .overwrite u file =>
    match s.calls u with
    | .holding _ destination => some { s with files := Function.update s.files destination (some file) }
    | _ => none
  | .move u =>
    match s.calls u with
    | .holding draw destination =>
      some { s.become u .over with
        files := Function.update (s.files.remove (temporaryOf process draw destination)) destination
          (s.files (temporaryOf process draw destination)) }
    | _ => none
  | .discard u =>
    match s.calls u with
    | .holding draw destination =>
      some { s.become u .over with files := s.files.remove (temporaryOf process draw destination) }
    | _ => none
  | .fail u =>
    match s.calls u with
    | .named _ _ => some (s.become u .over)
    | _ => none

/-- The uploads of one agent process on any files, one action of one call at a time. -/
def uploads : System Calls CallAct where
  init s := s.drawn = 0 ∧ ∀ u, s.calls u = .idle
  step := Calls.step process

end Calls

section Exclusive
variable {process : Nat} {s t : Calls} {a : CallAct} {u v : Nat} {path : Path}

/-- The number and the destination of a call in progress. -/
def Call.draws : Call → Option (Nat × Path)
  | .named draw destination | .holding draw destination => some (draw, destination)
  | _ => none

/-- The temporary file that a call writes to. -/
def Call.held (process : Nat) : Call → Option Path
  | .holding draw destination => some (temporaryOf process draw destination)
  | _ => none

structure Numbered (s : Calls) : Prop where
  drawn : ∀ u draw destination, (s.calls u).draws = some (draw, destination) → draw < s.drawn
  distinct : ∀ u v draw first second, (s.calls u).draws = some (draw, first) →
    (s.calls v).draws = some (draw, second) → u = v

structure Exclusive (process : Nat) (s : Calls) : Prop where
  present : ∀ u path, (s.calls u).held process = some path → (s.files path).isSome = true
  apart : ∀ u v path, (s.calls u).held process = some path → (s.calls v).held process = some path → u = v

/-- All that a step can do: draw a number, create a file of a free name, write to a file, or end a
call, which may move or remove the call's own file. -/
inductive Stepped (process : Nat) (s : Calls) : Calls → Prop
  | draws (u : Nat) (destination : Path) (before : s.calls u = .idle) :
    Stepped process s ⟨s.drawn + 1, s.files, Function.update s.calls u (.named s.drawn destination)⟩
  | creates (u draw : Nat) (destination : Path) (file : File) (before : s.calls u = .named draw destination)
    (free : s.files (temporaryOf process draw destination) = none) :
    Stepped process s ⟨s.drawn, Function.update s.files (temporaryOf process draw destination) (some file),
      Function.update s.calls u (.holding draw destination)⟩
  | writes (path : Path) (file : File) :
    Stepped process s ⟨s.drawn, Function.update s.files path (some file), s.calls⟩
  | ends (u : Nat) (files : Fs)
    (kept : ∀ path, (s.calls u).held process = some path ∨ files path = s.files path ∨
      ∃ own, (s.calls u).held process = some own ∧ files path = s.files own) :
    Stepped process s ⟨s.drawn, files, Function.update s.calls u .over⟩

theorem step_cases (taken : (uploads process).step s a = some t) : Stepped process s t := by
  cases a with
  | draw u destination =>
    simp only [uploads, Calls.step] at taken
    split at taken
    next before =>
      cases taken
      exact .draws u destination before
    next => cases taken
  | create u mode =>
    simp only [uploads, Calls.step] at taken
    split at taken
    next draw destination before =>
      split at taken
      next =>
        cases taken
        exact .ends u s.files fun path => .inr (.inl rfl)
      next free =>
        cases taken
        exact .creates u draw destination _ before (by simpa using free)
    next => cases taken
  | write u file =>
    simp only [uploads, Calls.step] at taken
    split at taken
    next =>
      cases taken
      exact .writes _ file
    next => cases taken
  | overwrite u file =>
    simp only [uploads, Calls.step] at taken
    split at taken
    next =>
      cases taken
      exact .writes _ file
    next => cases taken
  | move u =>
    simp only [uploads, Calls.step] at taken
    split at taken
    next draw destination before =>
      cases taken
      apply Stepped.ends u
      intro path
      rw [before]
      by_cases target : path = destination
      · exact .inr (.inr ⟨_, rfl, by rw [target, Function.update_self]⟩)
      · by_cases own : path = temporaryOf process draw destination
        · exact .inl (congrArg some own.symm)
        · right
          left
          rw [Function.update_of_ne target, Fs.remove, Function.update_of_ne own]
    next => cases taken
  | discard u =>
    simp only [uploads, Calls.step] at taken
    split at taken
    next draw destination before =>
      cases taken
      apply Stepped.ends u
      intro path
      rw [before]
      by_cases own : path = temporaryOf process draw destination
      · exact .inl (congrArg some own.symm)
      · right
        left
        rw [Fs.remove, Function.update_of_ne own]
    next => cases taken
  | fail u =>
    simp only [uploads, Calls.step] at taken
    split at taken
    next =>
      cases taken
      exact .ends u s.files fun path => .inr (.inl rfl)
    next => cases taken

/-- What a call that was given another state has is what it had, or comes from that state. -/
theorem update_or {α : Type} {call : Call} {has : Call → Option α} {x : α} {calls : Nat → Call}
    (known : has (Function.update calls u call v) = some x) :
    v = u ∧ has call = some x ∨ v ≠ u ∧ has (calls v) = some x := by
  by_cases same : v = u
  · subst same
    rw [Function.update_self] at known
    exact .inl ⟨rfl, known⟩
  · rw [Function.update_of_ne same] at known
    exact .inr ⟨same, known⟩

/-- A call that keeps its number, or loses it, takes none from another. -/
theorem Numbered.keep {call : Call} {files : Fs} (numbered : Numbered s)
    (fewer : ∀ x, call.draws = some x → (s.calls u).draws = some x) :
    Numbered ⟨s.drawn, files, Function.update s.calls u call⟩ := by
  have before {v : Nat} {x : Nat × Path} (known : (Function.update s.calls u call v).draws = some x) :
      (s.calls v).draws = some x := by
    rcases update_or known with ⟨rfl, here⟩ | ⟨_, there⟩
    · exact fewer x here
    · exact there
  exact ⟨fun v draw destination known => numbered.drawn v draw destination (before known),
    fun v w draw first second one two => numbered.distinct v w draw first second (before one) (before two)⟩

theorem step_numbered (numbered : Numbered s) (stepped : Stepped process s t) : Numbered t := by
  cases stepped with
  | draws u destination before =>
    obtain ⟨drawn, distinct⟩ := numbered
    constructor
    · intro v draw other known
      rcases update_or known with ⟨_, here⟩ | ⟨_, there⟩
      · cases here
        exact Nat.lt_succ_self _
      · exact Nat.lt_succ_of_lt (drawn v draw other there)
    · intro v w draw first second one two
      rcases update_or one with ⟨rfl, here⟩ | ⟨_, there⟩
      · cases here
        rcases update_or two with ⟨same, _⟩ | ⟨_, there⟩
        · exact same.symm
        · exact absurd (drawn w _ second there) (Nat.lt_irrefl _)
      · rcases update_or two with ⟨rfl, here⟩ | ⟨_, there'⟩
        · cases here
          exact absurd (drawn v _ first there) (Nat.lt_irrefl _)
        · exact distinct v w draw first second there there'
  | creates u draw destination file before free =>
    apply numbered.keep
    intro x here
    rw [before]
    exact here
  | writes path file => exact ⟨numbered.drawn, numbered.distinct⟩
  | ends u files kept =>
    apply numbered.keep
    intro x here
    cases here

theorem step_exclusive (exclusive : Exclusive process s) (stepped : Stepped process s t) : Exclusive process t := by
  obtain ⟨present, apart⟩ := exclusive
  cases stepped with
  | draws u destination before =>
    have held {v : Nat} {path : Path}
        (known : (Function.update s.calls u (.named s.drawn destination) v).held process = some path) :
        (s.calls v).held process = some path := by
      rcases update_or known with ⟨_, here⟩ | ⟨_, there⟩
      · cases here
      · exact there
    exact ⟨fun v path known => present v path (held known),
      fun v w path one two => apart v w path (held one) (held two)⟩
  | creates u draw destination file before free =>
    constructor
    · intro v path known
      by_cases new : path = temporaryOf process draw destination
      · rw [new]
        show (Function.update s.files _ (some file) _).isSome = true
        rw [Function.update_self]
        rfl
      · show (Function.update s.files _ (some file) path).isSome = true
        rw [Function.update_of_ne new]
        rcases update_or known with ⟨_, here⟩ | ⟨_, there⟩
        · exact absurd (Option.some.inj here).symm new
        · exact present v path there
    · -- a name that was free is held by no call, and so by nobody but the call that creates it
      have vacant {v : Nat} (there : (s.calls v).held process = some (temporaryOf process draw destination)) :
          False := by
        have taken := present v _ there
        rw [free] at taken
        cases taken
      intro v w path one two
      rcases update_or one with ⟨first, here⟩ | ⟨_, there⟩
      · rcases update_or two with ⟨second, _⟩ | ⟨_, there⟩
        · exact first.trans second.symm
        · cases here
          exact (vacant there).elim
      · rcases update_or two with ⟨_, here⟩ | ⟨_, there'⟩
        · cases here
          exact (vacant there).elim
        · exact apart v w path there there'
  | writes path file =>
    refine ⟨fun v own known => ?_, apart⟩
    show (Function.update s.files path (some file) own).isSome = true
    by_cases same : own = path
    · rw [same, Function.update_self]
      rfl
    · rw [Function.update_of_ne same]
      exact present v own known
  | ends u files kept =>
    have held {v : Nat} {path : Path} (known : (Function.update s.calls u .over v).held process = some path) :
        v ≠ u ∧ (s.calls v).held process = some path := by
      rcases update_or known with ⟨_, here⟩ | there
      · cases here
      · exact there
    constructor
    · intro v path known
      obtain ⟨other, there⟩ := held known
      rcases kept path with own | same | ⟨own, mine, same⟩
      · exact absurd (apart v u path there own) other
      · show (files path).isSome = true
        rw [same]
        exact present v path there
      · show (files path).isSome = true
        rw [same]
        exact present u own mine
    · exact fun v w path one two => apart v w path (held one).2 (held two).2

/-- The run lemma of both invariants. -/
theorem reachable_exclusive (reached : (uploads process).Reachable s) : Numbered s ∧ Exclusive process s := by
  apply reached.invariant
  · rintro s ⟨_, idle⟩
    refine ⟨⟨fun u draw destination known => ?_, fun u v draw first second known => ?_⟩,
      ⟨fun u path known => ?_, fun u v path known => ?_⟩⟩ <;>
    · rw [idle] at known
      cases known
  · intro s a t ⟨numbered, exclusive⟩ taken
    exact ⟨step_numbered numbered (step_cases taken), step_exclusive exclusive (step_cases taken)⟩

/-- Two calls on one file have different names as long as the numbers between their draws have not
come round. -/
theorem temporaryOf_ne {first second : Nat} (different : first ≠ second) (ahead : first < second + 2 ^ 64)
    (behind : second < first + 2 ^ 64) (destination : Path) :
    temporaryOf process first destination ≠ temporaryOf process second destination := by
  intro same
  have ids : first % 2 ^ 64 = second % 2 ^ 64 := temporaryPath_injective same
  omega

end Exclusive

section Runs
variable {host : Host} {stream : List FileEvent} {first : FileChunk} {destination : Path} {draw u : Nat}
  {s : Calls} {t : Fs} {outcome : Except Status FileResult}

theorem step_create (before : s.calls u = .named draw destination) (mode : UInt32)
    (free : s.files (temporaryOf host.process draw destination) = none) :
    (uploads host.process).step s (.create u mode) =
      some ⟨s.drawn, Function.update s.files (temporaryOf host.process draw destination) (some ⟨[], mode⟩),
        Function.update s.calls u (.holding draw destination)⟩ := by
  simp only [uploads, Calls.step, before, free, Option.isSome_none, if_neg Bool.false_ne_true]
  rfl

theorem step_fail (before : s.calls u = .named draw destination) :
    (uploads host.process).step s (.fail u) = some ⟨s.drawn, s.files, Function.update s.calls u .over⟩ := by
  simp only [uploads, Calls.step, before]
  rfl

variable {drawn : Nat} {files : Fs} {calls : Nat → Call}

theorem step_write (before : calls u = .holding draw destination) (file : File) :
    (uploads host.process).step ⟨drawn, files, calls⟩ (.write u file) =
      some ⟨drawn, Function.update files (temporaryOf host.process draw destination) (some file), calls⟩ := by
  simp only [uploads, Calls.step, before]

theorem step_overwrite (before : calls u = .holding draw destination) (file : File) :
    (uploads host.process).step ⟨drawn, files, calls⟩ (.overwrite u file) =
      some ⟨drawn, Function.update files destination (some file), calls⟩ := by
  simp only [uploads, Calls.step, before]

theorem step_move (before : calls u = .holding draw destination) :
    (uploads host.process).step ⟨drawn, files, calls⟩ (.move u) =
      some ⟨drawn, Function.update (files.remove (temporaryOf host.process draw destination)) destination
        (files (temporaryOf host.process draw destination)), Function.update calls u .over⟩ := by
  simp only [uploads, Calls.step, before]
  rfl

theorem step_discard (before : calls u = .holding draw destination) :
    (uploads host.process).step ⟨drawn, files, calls⟩ (.discard u) =
      some ⟨drawn, files.remove (temporaryOf host.process draw destination), Function.update calls u .over⟩ := by
  simp only [uploads, Calls.step, before]
  rfl

/-- Every upload is a run of the actions of its call: what it does to the files, the system can do. -/
theorem receiveUpload_run (before : s.calls u = .named draw destination)
    (ran : (receiveUpload host stream first (temporaryOf host.process draw destination) destination).from s.files =
      (outcome, t)) :
    ∃ actions, (∀ a ∈ actions, a.call = u) ∧ (uploads host.process).run s actions =
      some ⟨s.drawn, t, Function.update s.calls u .over⟩ := by
  have different : temporaryOf host.process draw destination ≠ destination := temporaryPath_ne _ _ _
  have holding : Function.update s.calls u (.holding draw destination) u = .holding draw destination :=
    Function.update_self _ _ _
  have failing (same : t = s.files) : ∃ actions : List CallAct, (∀ a ∈ actions, a.call = u) ∧
      (uploads host.process).run s actions = some ⟨s.drawn, t, Function.update s.calls u .over⟩ := by
    refine ⟨[.fail u], by simp [CallAct.call], ?_⟩
    simp only [System.run, step_fail before, Option.bind_some, same]
  cases outcome with
  | error status =>
    obtain ⟨others, kept, same⟩ := (ends_receiveUpload different).failed_of ran
    by_cases free : s.files (temporaryOf host.process draw destination) = none
    · rcases kept with kept | kept
      · apply failing
        funext path
        by_cases here : path = destination
        · rw [here, kept]
        · exact others path here
      · obtain ⟨file, written⟩ := Option.isSome_iff_exists.mp kept
        refine ⟨[.create u 0, .overwrite u file, .discard u], by simp [CallAct.call], ?_⟩
        have moved : Fs.remove (Function.update (Function.update s.files (temporaryOf host.process draw destination)
            (some ⟨[], 0⟩)) destination (some file)) (temporaryOf host.process draw destination) = t := by
          rw [Function.update_comm different, remove_update]
          · funext path
            by_cases here : path = destination
            · rw [here, Function.update_self, written]
            · rw [Function.update_of_ne here, others path here]
          · rw [Function.update_of_ne different, free]
        simp only [System.run, step_create before 0 free, Option.bind_some,
          step_overwrite holding, step_discard holding, moved, Function.update_idem]
    · exact failing (same (.inr free))
  | ok result =>
    obtain ⟨free, contents, _, _, stored⟩ := (ends_receiveUpload different).ok_of ran
    obtain ⟨file, written⟩ : ∃ file, t = Function.update s.files destination (some file) := ⟨_, stored⟩
    refine ⟨[.create u 0, .write u file, .move u], by simp [CallAct.call], ?_⟩
    simp only [System.run, step_create before 0 free, Option.bind_some, step_write holding,
      step_move holding, Function.update_idem, Function.update_self, remove_update free,
      written]

end Runs

section Atomicity

/-- The permission bits that an upload asks for; zero asks for none, and the file stays private. -/
def requestedMode (host : Host) (mode : UInt32) : UInt32 :=
  if mode ≠ 0 then safeMode mode else host.privateMode

/-- An upload by a move has happened as a whole or not at all, and its temporary file is gone. -/
def AllOrNothing (host : Host) (stream : List FileEvent) (first : FileChunk) (temporary destination : Path)
    (fs : Fs) : Except Status FileResult × Fs → Prop
  | (.error _, t) => t = fs
  | (.ok result, t) =>
    t temporary = none ∧ (∀ path, path ≠ destination → t path = fs path) ∧
      ∃ contents, Received first stream contents ∧ result.size = contents.length ∧
        t destination = some ⟨contents, requestedMode host first.mode⟩

variable {host : Host} {stream : List FileEvent} {first : FileChunk} {temporary destination : Path} {fs : Fs}

theorem receiveUpload_atomic (different : temporary ≠ destination) (atomic : first.atomicWrite = true) :
    AllOrNothing host stream first temporary destination fs
      ((receiveUpload host stream first temporary destination).from fs) := by
  rcases ran : (receiveUpload host stream first temporary destination).from fs with ⟨status | result, t⟩
  · exact ((ends_receiveUpload different).failed_of ran).unchanged (.inl atomic)
  · obtain ⟨free, contents, received, rfl, rfl⟩ := (ends_receiveUpload different).ok_of ran
    refine ⟨?_, fun path other => Function.update_of_ne other _ _, contents, received, rfl, ?_⟩
    · rw [Function.update_of_ne different, free]
    · rw [Function.update_self, atomic]
      rfl

/-- An upload whose client goes away behind the first chunk. -/
def cutChunk : FileChunk :=
  { path := "f".toList, mode := 0o644, atomicWrite := true, data := [0x61], protocolVersion := PROTOCOL }

def sampleFs : Fs := Function.update (fun _ => none) (.parse "f".toList) (some ⟨[0x62], 0o600⟩)

end Atomicity

end Pbox.Files
