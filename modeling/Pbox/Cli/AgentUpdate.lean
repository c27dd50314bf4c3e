import Pbox.Lib.Strings
import Pbox.Lib.Transition

/-! Updating the agent of a box while other clients use it: `prepare` call by call, on an agent that
keeps its terminal sessions in its own process. The restart that the update script queues comes at
a time of its own and ends every session that runs then. -/

namespace Pbox.Cli.AgentUpdate
open Pbox.Lib.Strings Pbox.Lib.Transition

structure Options where
  json : Bool
  killSessions : Bool
  yes : Bool
  /-- Standard input and standard error are terminals. -/
  interactive : Bool

/-- What the agent answers to `info`, as far as the update looks at it. -/
structure Info where
  digestMatches : Bool
  versionMatches : Bool
  capabilities : List String

/-- Sessions are numbered in the order in which they start. -/
structure Session where
  id : Nat
  name : Text
  deriving DecidableEq

inductive Pc where
  | checking (locked : Bool)
  | locking
  | listing
  | asking (shown : List Session)
  | closing (names : List Text)
  | relisting
  | uploading
  | installing
  | awaiting
  | finished
  deriving DecidableEq

/-- `restart` is a restart that has been queued. `relisted` is the number of sessions started when
the update last listed them, `confirmed` and `ended` record which sessions the user agreed to end
and which the restart has ended; no step reads these three. -/
structure Update where
  sessions : List Session
  next : Nat
  pc : Pc
  restart : Bool
  relisted : Nat
  confirmed : List Nat
  ended : List Session

inductive Action where
  | starts (name : Text)
  | ends (id : Nat)
  | proceeds
  | answers (yes : Bool)
  | fails
  | restarts

section Model
variable (info : Info) (options : Options)

def Info.has (capability : String) : Bool := info.capabilities.contains capability

/-- `agent_is_current`; the last case lists the sessions. -/
def agentIsCurrent (s : Update) : Bool :=
  if !info.digestMatches then false
  else if info.versionMatches && info.has "terminal-owner-refresh" &&
      ["terminal-history", "terminal-processes"].any (fun required => !info.has required) then
    !s.sessions.isEmpty
  else true

/-- The next call of the update, when it succeeds. -/
def proceed (s : Update) : Option Update :=
  match s.pc with
  | .checking locked =>
    if agentIsCurrent info s then some { s with pc := .finished }
    else if !locked then some { s with pc := .locking }
    else if info.has "terminal-sessions" && !info.has "durable-sessions" then some { s with pc := .listing }
    else some { s with pc := .uploading, relisted := s.next }
  | .locking => some { s with pc := .checking true }
  | .listing =>
    if s.sessions.isEmpty then some { s with pc := .relisting }
    else if !options.killSessions then some { s with pc := .finished }
    else if options.yes then
      some { s with pc := .closing (s.sessions.map (·.name)), confirmed := s.sessions.map (·.id) }
    else if !options.json && options.interactive then some { s with pc := .asking s.sessions }
    else some { s with pc := .finished }
  | .asking _ => none
  | .closing [] => some { s with pc := .relisting }
  | .closing (name :: rest) =>
    if s.sessions.any (·.name == name) then
      some { s with sessions := s.sessions.filter (·.name != name), pc := .closing rest }
    else none
  | .relisting =>
    if s.sessions.isEmpty then some { s with pc := .uploading, relisted := s.next }
    else some { s with pc := .finished }
  | .uploading => some { s with pc := .installing }
  -- also when the reply is lost: the update then waits for the new agent all the same
  | .installing => some { s with pc := .awaiting, restart := true }
  | .awaiting => some { s with pc := .finished }
  | .finished => none

def step (s : Update) : Action → Option Update
  | .starts name =>
    if info.has "terminal-sessions" && !s.sessions.any (·.name == name) then
      some { s with sessions := s.sessions ++ [⟨s.next, name⟩], next := s.next + 1 }
    else none
  | .ends id =>
    if s.sessions.any (·.id == id) then some { s with sessions := s.sessions.filter (·.id != id) } else none
  | .proceeds => proceed info options s
  | .answers yes =>
    match s.pc with
    | .asking shown =>
      if yes then some { s with pc := .closing (shown.map (·.name)), confirmed := shown.map (·.id) }
      else some { s with pc := .finished }
    | _ => none
  | .fails => if s.pc = .finished then none else some { s with pc := .finished }
  | .restarts =>
    if s.restart then some { s with sessions := [], ended := s.ended ++ s.sessions, restart := false } else none

/-- The update begins on an agent without durable sessions, with any sessions running there. -/
structure Initial (s : Update) : Prop where
  legacy : info.has "durable-sessions" = false
  able : info.has "terminal-sessions" = false → s.sessions = []
  numbered : ∀ session ∈ s.sessions, session.id < s.next
  pc : s.pc = .checking false
  restart : s.restart = false
  confirmed : s.confirmed = []
  ended : s.ended = []

def system : System Update Action where
  init := Initial info
  step := step info options

end Model

/-- The restart has ended no session but those the user agreed to end. -/
def Preserved (s : Update) : Prop := ∀ session ∈ s.ended, session.id ∈ s.confirmed

/-- When the agent restarts, no session runs that was started after the last listing. -/
def Orderly (s : Update) (action : Action) : Prop :=
  action = .restarts → ∀ session ∈ s.sessions, session.id < s.relisted

section Invariant
variable {info : Info} {options : Options} {s t : Update}

/-- The update goes on with the sessions gone, or has queued the restart. -/
def Committed (s : Update) : Prop :=
  s.pc = .uploading ∨ s.pc = .installing ∨ s.pc = .awaiting ∨ s.restart = true

structure Inv (info : Info) (s : Update) : Prop where
  legacy : info.has "durable-sessions" = false
  able : info.has "terminal-sessions" = false → s.sessions = []
  numbered : ∀ session ∈ s.sessions, session.id < s.next
  shown : ∀ shown, s.pc = .asking shown → ∀ session ∈ shown, session.id < s.next
  agreed : ∀ id ∈ s.confirmed, id < s.next
  queued : s.restart = true → s.pc = .awaiting ∨ s.pc = .finished
  listed : Committed s → s.relisted ≤ s.next
  before : Committed s → ∀ id ∈ s.confirmed, id < s.relisted
  after : Committed s → ∀ session ∈ s.sessions, s.relisted ≤ session.id

theorem initial_inv (start : Initial info s) : Inv info s := by
  have idle : ¬Committed s := by
    unfold Committed
    rw [start.pc, start.restart]
    simp
  refine ⟨start.legacy, start.able, start.numbered, ?_, ?_, ?_, fun late => absurd late idle,
    fun late => absurd late idle, fun late => absurd late idle⟩
  · intro shown asking
    rw [start.pc] at asking
    cases asking
  · rw [start.confirmed]
    simp
  · rw [start.restart]
    simp

/-- A step that starts no session, asks nothing new and commits to nothing new. -/
theorem inv_less {pc : Pc} {restart : Bool} {sessions ended : List Session} (inv : Inv info s)
    (fewer : ∀ session ∈ sessions, session ∈ s.sessions)
    (shown : ∀ shown, pc = .asking shown → ∀ session ∈ shown, session.id < s.next)
    (queued : restart = true → pc = .awaiting ∨ pc = .finished)
    (committed : Committed { s with pc, restart } → Committed s) :
    Inv info { s with sessions, pc, restart, ended } where
  legacy := inv.legacy
  able none := List.eq_nil_iff_forall_not_mem.mpr fun session member => by
    have old := fewer session member
    rw [inv.able none] at old
    cases old
  numbered session member := inv.numbered session (fewer session member)
  shown := shown
  agreed := inv.agreed
  queued := queued
  listed late := inv.listed (committed late)
  before late := inv.before (committed late)
  after late session member := inv.after (committed late) session (fewer session member)

/-- A step of the update before it commits to the restart. -/
theorem inv_early {pc : Pc} {sessions : List Session} (inv : Inv info s)
    (fewer : ∀ session ∈ sessions, session ∈ s.sessions)
    (shown : ∀ shown, pc = .asking shown → ∀ session ∈ shown, session.id < s.next)
    (early : s.pc ≠ .awaiting ∧ s.pc ≠ .finished) (still : pc ≠ .uploading ∧ pc ≠ .installing ∧ pc ≠ .awaiting) :
    Inv info { s with sessions, pc } := by
  have idle : s.restart = false := by
    by_contra queued
    rcases inv.queued (by simpa using queued) with awaiting | finished
    · exact early.1 awaiting
    · exact early.2 finished
  refine inv_less inv fewer shown (fun queued => absurd (idle.symm.trans queued) (by decide)) ?_
  rintro (uploading | installing | awaiting | queued)
  · exact absurd uploading still.1
  · exact absurd installing still.2.1
  · exact absurd awaiting still.2.2
  · exact .inr (.inr (.inr queued))

/-- The user's consent names sessions that run or have run, before anything is decided. -/
theorem inv_consents {shown : List Session} {names : List Text} (inv : Inv info s)
    (early : s.pc = .listing ∨ ∃ shown, s.pc = .asking shown) (old : ∀ session ∈ shown, session.id < s.next) :
    Inv info { s with pc := .closing names, confirmed := shown.map (·.id) } := by
  have apart : s.pc ≠ .awaiting ∧ s.pc ≠ .finished := by
    rcases early with pc | ⟨_, pc⟩ <;> rw [pc] <;> simp
  have moved : Inv info { s with pc := .closing names } :=
    inv_early inv (fun _ => id) nofun apart (by simp)
  have idle : ¬Committed { s with pc := .closing names } := by
    rintro (uploading | installing | awaiting | queued)
    · cases uploading
    · cases installing
    · cases awaiting
    · rcases moved.queued queued with awaiting | finished
      · cases awaiting
      · cases finished
  refine ⟨moved.legacy, moved.able, moved.numbered, moved.shown, ?_, moved.queued,
    fun late => absurd late idle, fun late => absurd late idle, fun late => absurd late idle⟩
  intro id member
  obtain ⟨session, among, rfl⟩ := List.mem_map.mp member
  exact old session among

/-- The update commits to the restart when no session runs. -/
theorem inv_commits (inv : Inv info s) (none : s.sessions = [])
    (early : s.pc ≠ .awaiting ∧ s.pc ≠ .finished) : Inv info { s with pc := .uploading, relisted := s.next } where
  legacy := inv.legacy
  able := inv.able
  numbered := inv.numbered
  shown := nofun
  agreed := inv.agreed
  queued queued := by
    rcases inv.queued queued with awaiting | finished
    · exact absurd awaiting early.1
    · exact absurd finished early.2
  listed _ := Nat.le_refl _
  before _ := inv.agreed
  after _ session member := by
    have old : session ∈ s.sessions := member
    rw [none] at old
    cases old

theorem inv_starts {name : Text} (inv : Inv info s) (able : info.has "terminal-sessions" = true) :
    Inv info { s with sessions := s.sessions ++ [⟨s.next, name⟩], next := s.next + 1 } where
  legacy := inv.legacy
  able none := by
    rw [able] at none
    cases none
  numbered session member := by
    rcases List.mem_append.mp member with old | new
    · exact Nat.lt_succ_of_lt (inv.numbered session old)
    · rw [List.mem_singleton.mp new]
      exact Nat.lt_succ_self _
  shown shown asking session member := Nat.lt_succ_of_lt (inv.shown shown asking session member)
  agreed id member := Nat.lt_succ_of_lt (inv.agreed id member)
  queued := inv.queued
  listed late := Nat.le_succ_of_le (inv.listed late)
  before := inv.before
  after late session member := by
    rcases List.mem_append.mp member with old | new
    · exact inv.after late session old
    · rw [List.mem_singleton.mp new]
      exact inv.listed late

theorem inv_proceed (inv : Inv info s) (taken : proceed info options s = some t) : Inv info t := by
  have same : ∀ session ∈ s.sessions, session ∈ s.sessions := fun _ => id
  unfold proceed at taken
  cases pc : s.pc with
  | checking locked =>
    rw [pc] at taken
    have early : s.pc ≠ .awaiting ∧ s.pc ≠ .finished := by
      rw [pc]
      simp
    simp only at taken
    split_ifs at taken with current unlocked legacy
    · cases taken
      exact inv_early inv same nofun early (by simp)
    · cases taken
      exact inv_early inv same nofun early (by simp)
    · cases taken
      exact inv_early inv same nofun early (by simp)
    · cases taken
      refine inv_commits inv (inv.able ?_) early
      rw [inv.legacy] at legacy
      simpa using legacy
  | locking =>
    rw [pc] at taken
    cases taken
    exact inv_early inv same nofun (by rw [pc]; simp) (by simp)
  | listing =>
    rw [pc] at taken
    have early : s.pc ≠ .awaiting ∧ s.pc ≠ .finished := by
      rw [pc]
      simp
    simp only at taken
    split_ifs at taken with empty refused yes asks
    · cases taken
      exact inv_early inv same nofun early (by simp)
    · cases taken
      exact inv_early inv same nofun early (by simp)
    · cases taken
      exact inv_consents inv (.inl pc) inv.numbered
    · cases taken
      refine inv_early inv same ?_ early (by simp)
      rintro shown ⟨⟩
      exact inv.numbered
    · cases taken
      exact inv_early inv same nofun early (by simp)
  | asking shown =>
    rw [pc] at taken
    cases taken
  | closing names =>
    rw [pc] at taken
    have early : s.pc ≠ .awaiting ∧ s.pc ≠ .finished := by
      rw [pc]
      simp
    cases names with
    | nil =>
      cases taken
      exact inv_early inv same nofun early (by simp)
    | cons name rest =>
      simp only at taken
      split_ifs at taken
      cases taken
      exact inv_early inv (fun _ member => List.mem_of_mem_filter member) nofun early (by simp)
  | relisting =>
    rw [pc] at taken
    have early : s.pc ≠ .awaiting ∧ s.pc ≠ .finished := by
      rw [pc]
      simp
    simp only at taken
    split_ifs at taken with empty
    · cases taken
      exact inv_commits inv (List.isEmpty_iff.mp empty) early
    · cases taken
      exact inv_early inv same nofun early (by simp)
  | uploading =>
    rw [pc] at taken
    cases taken
    refine inv_less inv same nofun (fun queued => ?_) fun _ => .inl pc
    rcases inv.queued queued with awaiting | finished
    · simp [pc] at awaiting
    · simp [pc] at finished
  | installing =>
    rw [pc] at taken
    cases taken
    exact inv_less inv same nofun (fun _ => .inl rfl) fun _ => .inr (.inl pc)
  | awaiting =>
    rw [pc] at taken
    cases taken
    exact inv_less inv same nofun (fun _ => .inr rfl) fun _ => .inr (.inr (.inl pc))
  | finished =>
    rw [pc] at taken
    cases taken

theorem inv_step {action : Action} (inv : Inv info s) (taken : step info options s action = some t) :
    Inv info t := by
  have same : ∀ session ∈ s.sessions, session ∈ s.sessions := fun _ => id
  cases action with
  | starts name =>
    simp only [step, Option.ite_none_right_eq_some, Option.some.injEq, Bool.and_eq_true] at taken
    obtain ⟨⟨able, _⟩, rfl⟩ := taken
    exact inv_starts inv able
  | ends id =>
    simp only [step, Option.ite_none_right_eq_some, Option.some.injEq] at taken
    obtain ⟨_, rfl⟩ := taken
    exact inv_less inv (fun _ member => List.mem_of_mem_filter member) inv.shown inv.queued fun late => late
  | proceeds => exact inv_proceed inv taken
  | answers yes =>
    cases pc : s.pc with
    | asking shown =>
      simp only [step, pc] at taken
      split_ifs at taken
      · cases taken
        exact inv_consents inv (.inr ⟨shown, pc⟩) (inv.shown shown pc)
      · cases taken
        exact inv_early inv same nofun (by rw [pc]; simp) (by simp)
    | _ => simp [step, pc] at taken
  | fails =>
    simp only [step, Option.ite_none_left_eq_some, Option.some.injEq] at taken
    obtain ⟨_, rfl⟩ := taken
    refine inv_less inv same nofun (fun _ => .inr rfl) ?_
    rintro (uploading | installing | awaiting | queued)
    · cases uploading
    · cases installing
    · cases awaiting
    · exact .inr (.inr (.inr queued))
  | restarts =>
    simp only [step, Option.ite_none_right_eq_some, Option.some.injEq] at taken
    obtain ⟨queued, rfl⟩ := taken
    exact inv_less inv nofun inv.shown nofun fun _ => .inr (.inr (.inr queued))

theorem reachable_inv (reached : (system info options).Reachable s) : Inv info s :=
  reached.invariant (fun _ => initial_inv) (fun _ _ _ => inv_step)

theorem proceed_ended (taken : proceed info options s = some t) : t.ended = s.ended := by
  unfold proceed at taken
  split at taken <;> grind

/-- Only a restart ends sessions for the update. -/
theorem ended_step {action : Action} (taken : step info options s action = some t) :
    t.ended = s.ended ∨ (action = .restarts ∧ s.restart = true ∧ t.ended = s.ended ++ s.sessions) := by
  cases action with
  | restarts =>
    simp only [step, Option.ite_none_right_eq_some, Option.some.injEq] at taken
    obtain ⟨queued, rfl⟩ := taken
    exact .inr ⟨rfl, queued, rfl⟩
  | proceeds => exact .inl (proceed_ended taken)
  | answers yes =>
    cases pc : s.pc with
    | asking shown =>
      simp only [step, pc] at taken
      split_ifs at taken <;> cases taken <;> exact .inl rfl
    | _ => simp [step, pc] at taken
  | starts name =>
    simp only [step, Option.ite_none_right_eq_some, Option.some.injEq] at taken
    exact .inl (taken.2 ▸ rfl)
  | ends id =>
    simp only [step, Option.ite_none_right_eq_some, Option.some.injEq] at taken
    exact .inl (taken.2 ▸ rfl)
  | fails =>
    simp only [step, Option.ite_none_left_eq_some, Option.some.injEq] at taken
    exact .inl (taken.2 ▸ rfl)

/-- What runs at the restart was started after the last listing. -/
theorem none_old (inv : Inv info s) (queued : s.restart = true)
    (old : ∀ session ∈ s.sessions, session.id < s.relisted) : s.sessions = [] := by
  apply List.eq_nil_iff_forall_not_mem.mpr
  intro session member
  have late := inv.after (.inr (.inr (.inr queued))) session member
  have early := old session member
  omega

/-- A restart preserves the sessions nobody gave up exactly when none of those it ends was started
after the last listing. -/
theorem restart_preserves_iff (inv : Inv info s) (unended : s.ended = [])
    (taken : step info options s .restarts = some t) : Preserved t ↔ Orderly s .restarts := by
  simp only [step, Option.ite_none_right_eq_some, Option.some.injEq] at taken
  obtain ⟨queued, rfl⟩ := taken
  unfold Preserved
  simp only [unended, List.nil_append]
  constructor
  · intro preserved _ session member
    exact inv.before (.inr (.inr (.inr queued))) _ (preserved session member)
  · intro old
    rw [none_old inv queued (old rfl)]
    simp

theorem orderly_ended (reached : (system info options).ReachableBy Orderly s) : s.ended = [] := by
  induction reached with
  | start initial => exact initial.ended
  | next before orderly taken ih =>
    have inv := reachable_inv before.reachable
    rcases ended_step taken with same | ⟨restarts, queued, ended⟩
    · exact same.trans ih
    · rw [ended, ih, none_old inv queued (orderly restarts)]
      rfl

end Invariant

/-- In a run whose restart meets no session started after the last listing, the update ends only
sessions that the user agreed to end. -/
theorem orderly_preserved (info : Info) (options : Options) (s : Update)
    (reached : (system info options).ReachableBy Orderly s) : Preserved s := by
  intro session member
  rw [orderly_ended reached] at member
  cases member

section Samples

def legacyInfo : Info where
  digestMatches := false
  versionMatches := false
  capabilities := ["exec", "terminal-sessions"]

def killing : Options := { json := true, killSessions := true, yes := true, interactive := false }

/-- One session runs on the agent when the update begins. -/
def busy : Update where
  sessions := [⟨0, "work".toList⟩]
  next := 1
  pc := .checking false
  restart := false
  relisted := 0
  confirmed := []
  ended := []

theorem busy_initial : Initial legacyInfo busy := by
  refine ⟨rfl, nofun, ?_, rfl, rfl, rfl, rfl⟩
  decide

/-- The update ends the session with consent; another client's session comes and goes. -/
def agreedUpdate : List Action :=
  List.replicate 7 .proceeds ++ [.starts "late".toList, .proceeds, .proceeds, .ends 1, .restarts, .proceeds]

/-- Another client's session starts after the last listing and runs at the restart. -/
def lateUpdate : List Action :=
  List.replicate 7 .proceeds ++ [.starts "late".toList, .proceeds, .proceeds, .restarts]

def orderly (s : Update) : Action → Bool
  | .restarts => s.sessions.all (·.id < s.relisted)
  | _ => true

theorem orderly_sound (s : Update) (action : Action) (holds : orderly s action = true) : Orderly s action := by
  rintro rfl session member
  exact of_decide_eq_true (List.all_eq_true.mp holds session member)

theorem agreedUpdate_runs : ((system legacyInfo killing).runBy orderly busy agreedUpdate).isSome = true := by
  decide

theorem agreedUpdate_preserved :
    Preserved (((system legacyInfo killing).runBy orderly busy agreedUpdate).get agreedUpdate_runs) :=
  orderly_preserved legacyInfo killing _
    (System.reachableBy_of_runBy orderly_sound (.start busy_initial) (Option.some_get _).symm)

theorem lateUpdate_runs : ((system legacyInfo killing).run busy lateUpdate).isSome = true := by decide

theorem lateUpdate_not_preserved :
    ¬∀ (info : Info) (options : Options) (s : Update), (system info options).Reachable s → Preserved s := by
  intro always
  have preserved := always legacyInfo killing (((system legacyInfo killing).run busy lateUpdate).get lateUpdate_runs)
    (System.reachable_of_run (.start busy_initial) (Option.some_get _).symm)
  exact absurd (preserved ⟨1, "late".toList⟩ (by decide)) (by decide)

end Samples

end Pbox.Cli.AgentUpdate
