import Mathlib.Algebra.Group.Nat.Defs
import Pbox.Lib.Transition

/-! The refresh loop of the inventory daemon, `run_daemon`, with reads that succeed. An iteration
reads the list of saved environments again when the snapshot is ten seconds old, but it stamps the
snapshot anew in any case. Times are nanoseconds of the system clock. -/

namespace Pbox.Cli.Inventory
open Pbox.Lib.Transition

def SECOND : Nat := 10 ^ 9

/-- The part of `inventory.json` that the test reads and that it decides. -/
structure Snapshot (Saved : Type) where
  updated : Nat
  saved : Saved

def Snapshot.age {Saved : Type} (snapshot : Snapshot Saved) (now : Nat) : Nat := now / SECOND - snapshot.updated

/-- How long the parts of an iteration take, and what `snapshots::inventory` would answer in it. -/
structure Iteration (Saved : Type) where
  discovery : Nat
  reading : Nat
  publishing : Nat
  probing : Nat
  closing : Nat
  listing : Saved

/-- An iteration that called `snapshots::inventory`: when it started, called and published. -/
structure Call (Saved : Type) where
  start : Nat
  call : Nat
  finish : Nat
  listing : Saved

/-- The daemon between two iterations. `called` and `finished` record what happened; the loop does
not read them. -/
structure Daemon (Saved : Type) where
  clock : Nat
  snapshot : Option (Snapshot Saved)
  called : Option (Call Saved)
  finished : Option Nat

section Loop
variable {Saved : Type}

/-- When an iteration tests the age of the snapshot. -/
def tested (s : Daemon Saved) (iteration : Iteration Saved) : Nat := s.clock + iteration.discovery

def calls (s : Daemon Saved) (iteration : Iteration Saved) : Bool :=
  match s.snapshot with
  | some previous => !decide (previous.age (tested s iteration) < 10)
  | none => true

def saved (s : Daemon Saved) (iteration : Iteration Saved) : Saved :=
  match s.snapshot with
  | some previous => if previous.age (tested s iteration) < 10 then previous.saved else iteration.listing
  | none => iteration.listing

/-- When it publishes for the first time. -/
def published (s : Daemon Saved) (iteration : Iteration Saved) : Nat :=
  tested s iteration + if calls s iteration then iteration.reading else 0

/-- When it publishes for the second time, with the results of the probes. -/
def finish (s : Daemon Saved) (iteration : Iteration Saved) : Nat :=
  published s iteration + iteration.publishing + iteration.probing

/-- One pass of the loop; `closing` is the last write and what the sleep takes beyond two seconds. -/
def iterate (s : Daemon Saved) (iteration : Iteration Saved) : Daemon Saved where
  clock := finish s iteration + iteration.closing + 2 * SECOND
  snapshot := some { updated := finish s iteration / SECOND, saved := saved s iteration }
  called :=
    if calls s iteration then
      some { start := s.clock, call := tested s iteration, finish := finish s iteration,
             listing := iteration.listing }
    else s.called
  finished := some (finish s iteration)

/-- The daemon finds no snapshot or one of an earlier daemon. -/
def Initial (s : Daemon Saved) : Prop := s.called = none ∧ s.finished = none

/-- The moment of a calling iteration that ten seconds are counted from. -/
inductive Reference where
  | start
  | call
  | finish
  deriving DecidableEq

def Reference.moment (reference : Reference) (call : Call Saved) : Nat :=
  match reference with
  | .start => call.start
  | .call => call.call
  | .finish => call.finish

/-- Ten seconds have passed since the last iteration that called. -/
def Due (reference : Reference) (s : Daemon Saved) : Prop :=
  ∃ call, s.called = some call ∧ reference.moment call + 10 * SECOND ≤ s.clock

/-- What is asked of an iteration: it calls if it is due, and the list it publishes is the last one
read, less than ten seconds and this iteration old. -/
structure Fresh (reference : Reference) (s : Daemon Saved) (iteration : Iteration Saved) : Prop where
  refreshes : Due reference s → calls s iteration = true
  bounded : ∀ call, (iterate s iteration).called = some call →
    saved s iteration = call.listing ∧
      finish s iteration < reference.moment call + 10 * SECOND + (finish s iteration - s.clock)

/-- The clock counts ten seconds from the second publication of the iteration before to this one's
test. -/
def Lull (s : Daemon Saved) (iteration : Iteration Saved) : Prop :=
  ∀ finish, s.finished = some finish → finish / SECOND + 10 ≤ tested s iteration / SECOND

/-- The snapshot's stamp is the last publication's, whenever its list was read. -/
def Stamped (s : Daemon Saved) : Prop :=
  ∀ call, s.called = some call → ∃ finish, s.finished = some finish ∧
    s.snapshot = some { updated := finish / SECOND, saved := call.listing }

variable {reference : Reference} {s : Daemon Saved} {iteration : Iteration Saved}

theorem initial_stamped (initial : Initial s) : Stamped s := by
  intro call found
  rw [initial.1] at found
  cases found

theorem saved_of_calls (call : calls s iteration = true) : saved s iteration = iteration.listing := by
  unfold calls at call
  unfold saved
  split
  next previous present =>
    rw [present] at call
    exact if_neg (by simpa using call)
  next => rfl

theorem saved_of_quiet {call : Call Saved} (stamped : Stamped s) (found : s.called = some call)
    (quiet : calls s iteration = false) : saved s iteration = call.listing := by
  obtain ⟨finish, _, present⟩ := stamped call found
  unfold calls at quiet
  unfold saved
  rw [present] at quiet ⊢
  exact if_pos (by simpa using quiet)

theorem stamped_iterate (stamped : Stamped s) : Stamped (iterate s iteration) := by
  intro call found
  refine ⟨finish s iteration, rfl, ?_⟩
  apply congrArg some
  apply congrArg (Snapshot.mk _)
  by_cases now : calls s iteration = true
  · simp only [iterate, now, if_true, Option.some.injEq] at found
    rw [saved_of_calls now, ← found]
  · simp only [iterate, now] at found
    exact saved_of_quiet stamped found (by simpa using now)

/-- A daemon that has called before calls again exactly after a lull. -/
theorem calls_iff (stamped : Stamped s) (due : Due reference s) : calls s iteration = true ↔ Lull s iteration := by
  obtain ⟨call, found, _⟩ := due
  obtain ⟨finish, finished, present⟩ := stamped call found
  unfold calls Lull
  rw [present, finished]
  show (!decide (_ < 10)) = true ↔ _
  rw [Bool.not_eq_true', decide_eq_false_iff_not]
  simp only [Snapshot.age, Option.some.injEq, forall_eq']
  omega

theorem clock_le_finish : s.clock ≤ finish s iteration := by
  unfold finish published tested
  omega

/-- The age of the list follows from the calls. -/
theorem bounded_of_refreshes (stamped : Stamped s) (refreshes : Due reference s → calls s iteration = true)
    {call : Call Saved} (found : (iterate s iteration).called = some call) :
    saved s iteration = call.listing ∧
      finish s iteration < reference.moment call + 10 * SECOND + (finish s iteration - s.clock) := by
  have later : s.clock ≤ finish s iteration := clock_le_finish
  have positive : 0 < SECOND := by decide
  by_cases now : calls s iteration = true
  · simp only [iterate, now, if_true, Option.some.injEq] at found
    subst found
    refine ⟨saved_of_calls now, ?_⟩
    have moment : s.clock ≤ reference.moment (⟨s.clock, tested s iteration, finish s iteration,
        iteration.listing⟩ : Call Saved) := by
      cases reference with
      | start => exact Nat.le_refl _
      | call => exact Nat.le_add_right _ _
      | finish => exact later
    omega
  · simp only [iterate, now] at found
    refine ⟨saved_of_quiet stamped found (by simpa using now), ?_⟩
    have early : s.clock < reference.moment call + 10 * SECOND := by
      by_contra due
      exact now (refreshes ⟨call, found, by omega⟩)
    omega

theorem fresh_iff (stamped : Stamped s) : Fresh reference s iteration ↔ (Due reference s → Lull s iteration) := by
  constructor
  · intro fresh due
    exact (calls_iff stamped due).mp (fresh.refreshes due)
  · intro lull
    have refreshes : Due reference s → calls s iteration = true := fun due =>
      (calls_iff stamped due).mpr (lull due)
    exact ⟨refreshes, fun call found => bounded_of_refreshes stamped refreshes found⟩

/-- The list stays fresh along a run exactly when a lull lies before each iteration that is due. -/
theorem run_fresh_iff (reference : Reference) (s : Daemon Saved) (initial : Initial s)
    (iterations : List (Iteration Saved)) :
    Along iterate (Fresh reference) s iterations ↔
      Along iterate (fun s iteration => Due reference s → Lull s iteration) s iterations :=
  along_congr (fun (s : Daemon Saved) _ => stamped_iterate (s := s)) (fun _ _ => fresh_iff)
    (initial_stamped initial) iterations

end Loop

section Samples

/-- An iteration whose parts take no time. -/
def quick : Iteration Nat := { discovery := 0, reading := 0, publishing := 0, probing := 0, closing := 0, listing := 1 }

/-- A second iteration whose sleep or discovery is held up for ten seconds. -/
def held : Iteration Nat := { quick with discovery := 8 * SECOND, listing := 2 }

def fresh : Daemon Nat := { clock := 0, snapshot := none, called := none, finished := none }

theorem held_fresh : Along iterate (Fresh .start) fresh [quick, held] := by
  refine (run_fresh_iff .start fresh ⟨rfl, rfl⟩ _).mpr ⟨?_, ?_, trivial⟩
  · rintro _ finish ⟨⟩
  · rintro _ finish ⟨⟩
    decide

/-- With two seconds between publications the seventh iteration is due, from whichever moment the
ten seconds count, and does not call. -/
theorem quick_not_fresh :
    ¬∃ reference, ∀ (s : Daemon Nat) (iterations : List (Iteration Nat)), Initial s →
      Along iterate (Fresh reference) s iterations := by
  rintro ⟨reference, always⟩
  have last := along_last (always fresh (List.replicate 6 quick ++ [quick]) ⟨rfl, rfl⟩)
  have due : Due reference ((List.replicate 6 quick).foldl iterate fresh) :=
    ⟨⟨0, 0, 0, 1⟩, by rfl, by cases reference <;> decide⟩
  have quiet : calls ((List.replicate 6 quick).foldl iterate fresh) quick = false := by decide
  rw [last.refreshes due] at quiet
  cases quiet

end Samples

end Pbox.Cli.Inventory
