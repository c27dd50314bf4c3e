import Pbox.Agent.Session
import Pbox.Lib.Maps
import Pbox.Lib.Transition
import Mathlib.Data.List.Nodup
import Mathlib.Data.List.Perm.Subperm

/-! The registry of terminal sessions. A session is inserted by a call, run by an owner task and
removed by that task, each in its own turn with the lock. The worker that the insertion yields,
with its execution permit, is one seat here; it passes from the call to the owner. -/

namespace Pbox.Agent.Registry
set_option linter.dupNamespace false
open Pbox.Lib.Strings Pbox.Lib.Maps Pbox.Lib.Transition Pbox.Agent.Session Pbox.Lib.Checks

/-- What the registry holds of a session: which one it is and the guest user it belongs to. -/
structure Session where
  id : Nat
  user : Text
  deriving DecidableEq

/-- Where the worker of a session is: with the call that inserted the session, in its owner
task, or in what is left of that task after the session's removal. -/
inductive Stage where
  | inserted (createOnly : Bool) (request : ExecRequest)
  | subscribed (request : ExecRequest)
  | running (notified : Bool)
  | stopping
  | removed
  deriving DecidableEq

def Stage.starting : Stage → Bool
  | .inserted _ _ | .subscribed _ => true
  | _ => false

def Stage.owner : Stage → Bool
  | .running _ | .stopping => true
  | _ => false

def Stage.live (stage : Stage) : Bool := stage.starting || stage.owner

structure Seat where
  session : Nat
  name : Text
  stage : Stage
  deriving DecidableEq

structure Registry where
  names : Assoc Text Session
  seats : List Seat
  permits : Nat
  execs : Nat
  next : Nat

/-- The insertion: a new session, its worker and a permit for it. -/
def insertSession (s : Registry) (first : ExecRequest) (createOnly : Bool) : Registry :=
  { s with
    names := s.names.insert first.sessionName ⟨s.next, first.user⟩
    seats := s.seats ++ [⟨s.next, first.sessionName, .inserted createOnly first⟩]
    permits := s.permits - 1
    next := s.next + 1 }

/-- `prepare` under the registry's lock: the registry, the session of that name, and whether
this call inserted it and holds its worker. -/
def prepare (s : Registry) (first : ExecRequest) (createOnly : Bool) :
    Except Status (Registry × Session × Bool) := do
  let first ← normalise first
  match Assoc.find s.names first.sessionName with
  | some session =>
    if createOnly then
      .error (.of .alreadyExists "session already exists; read it or attach with pbox ssh")
    else if session.user ≠ first.user then
      .error (.of .failedPrecondition
        "session belongs to a different guest user; choose another session name or use --user")
    else .ok (s, session, false)
  | none =>
    if s.permits = 0 then
      .error (.of .resourceExhausted
        "too many running commands or terminal sessions; close an unused session")
    else .ok (insertSession s first createOnly, ⟨s.next, first.user⟩, true)

def get (s : Registry) (name : Text) : Except Status Session :=
  match Assoc.find s.names name with
  | some session => .ok session
  | none => .error (.of .notFound ("session '" ++ String.ofList name ++ "' was not found"))

def seatOf (s : Registry) (session : Nat) : Option Seat :=
  s.seats.find? fun seat => seat.session = session

def setStage (seats : List Seat) (session : Nat) (stage : Stage) : List Seat :=
  seats.map fun seat => if seat.session = session then { seat with stage := stage } else seat

/-- The worker is dropped and its permit goes back. -/
def dropWorker (s : Registry) (session : Nat) : Registry :=
  { s with seats := s.seats.eraseP fun seat => seat.session = session, permits := s.permits + 1 }

inductive Action where
  | start (request : ExecRequest)
  | attach (request : ExecRequest)
  | checkAgain (session : Nat)
  | spawn (session : Nat)
  | close (name : Text)
  | ownerNotified (session : Nat)
  | processEnds (session : Nat)
  | remove (session : Nat)
  | retire (session : Nat)
  | exec
  | execDone

/-- A call that fails leaves the registry as it was. -/
def call (s : Registry) (request : ExecRequest) (createOnly : Bool) : Registry :=
  match prepare s request createOnly with
  | .ok (after, _) => after
  | .error _ => s

def step (s : Registry) : Action → Option Registry
  | .start request => some (call s request true)
  | .attach request => some (call s request false)
  | .checkAgain session =>
    -- `attach` computes the size again after the insertion; an error would drop the worker.
    match seatOf s session with
    | some ⟨_, _, .inserted false request⟩ =>
      match dimensions request.terminalRows request.terminalCols with
      | .ok _ => some { s with seats := setStage s.seats session (.subscribed request) }
      | .error _ => some (dropWorker s session)
    | _ => none
  | .spawn session =>
    match seatOf s session with
    | some ⟨_, _, .inserted true _⟩ | some ⟨_, _, .subscribed _⟩ =>
      some { s with seats := setStage s.seats session (.running false) }
    | _ => none
  | .close name =>
    match get s name with
    | .ok session =>
      match seatOf s session.id with
      | some ⟨_, _, .running _⟩ =>
        some { s with seats := setStage s.seats session.id (.running true) }
      | _ => some s
    | .error _ => some s
  | .ownerNotified session =>
    match seatOf s session with
    | some ⟨_, _, .running true⟩ => some { s with seats := setStage s.seats session .stopping }
    | _ => none
  | .processEnds session =>
    match seatOf s session with
    | some ⟨_, _, .running _⟩ => some { s with seats := setStage s.seats session .stopping }
    | _ => none
  | .remove session =>
    -- The owner removes its session by the name it was started with.
    match seatOf s session with
    | some ⟨_, name, .stopping⟩ =>
      some { s with names := s.names.erase name, seats := setStage s.seats session .removed }
    | _ => none
  | .retire session =>
    match seatOf s session with
    | some ⟨_, _, .removed⟩ => some (dropWorker s session)
    | _ => none
  | .exec =>
    if 0 < s.permits then some { s with permits := s.permits - 1, execs := s.execs + 1 } else none
  | .execDone =>
    if 0 < s.execs then some { s with permits := s.permits + 1, execs := s.execs - 1 } else none

def initial (slots : Nat) : Registry :=
  { names := ∅, seats := [], permits := slots, execs := 0, next := 0 }

def system (slots : Nat) : System Registry Action where
  init s := s = initial slots
  step := step

/-- A call's second look at the size cannot fail. -/
def Stage.Sized : Stage → Prop
  | .inserted _ request => ∃ size, dimensions request.terminalRows request.terminalCols = .ok size
  | _ => True

structure InvAt (names : Assoc Text Session) (seats : List Seat) (next : Nat) : Prop where
  distinct : (seats.map Seat.session).Nodup
  numbered : ∀ seat ∈ seats, seat.session < next
  held : ∀ seat ∈ seats, seat.stage.live = true →
    ∃ session, Assoc.find names seat.name = some session ∧ session.id = seat.session
  owned : ∀ name session, Assoc.find names name = some session →
    ∃ seat ∈ seats, seat.session = session.id ∧ seat.name = name ∧ seat.stage.live = true
  sized : ∀ seat ∈ seats, seat.stage.Sized

structure Inv (slots : Nat) (s : Registry) : Prop extends InvAt s.names s.seats s.next where
  counted : s.permits + s.execs + s.seats.length = slots

section Seats
variable {names : Assoc Text Session} {seats : List Seat} {next : Nat}

theorem same_seat (distinct : (seats.map Seat.session).Nodup) {first second : Seat}
    (one : first ∈ seats) (two : second ∈ seats) (same : first.session = second.session) :
    first = second := List.inj_on_of_nodup_map distinct one two same

/-- A session's seat is the only one of its number. -/
theorem filter_session (distinct : (seats.map Seat.session).Nodup) {seat : Seat}
    (member : seat ∈ seats) : seats.filter (fun other => other.session = seat.session) = [seat] := by
  induction seats with
  | nil => cases member
  | cons head rest ih =>
    rw [List.map_cons, List.nodup_cons] at distinct
    rcases List.mem_cons.mp member with rfl | later
    · have none : rest.filter (fun other => other.session = seat.session) = [] := by
        rw [List.filter_eq_nil_iff]
        intro other there
        have different : other.session ≠ seat.session := fun same =>
          distinct.1 (same ▸ List.mem_map_of_mem there)
        simpa using different
      rw [List.filter_cons_of_pos (by simp), none]
    · have different : head.session ≠ seat.session := fun same =>
        distinct.1 (same ▸ List.mem_map_of_mem later)
      rw [List.filter_cons_of_neg (by simpa using different), ih distinct.2 later]

theorem map_setStage (session : Nat) (stage : Stage) :
    (setStage seats session stage).map Seat.session = seats.map Seat.session := by
  unfold setStage
  rw [List.map_map]
  refine List.map_congr_left fun seat _ => ?_
  show (if seat.session = session then { seat with stage := stage } else seat).session = seat.session
  split <;> rfl

theorem mem_setStage {session : Nat} {stage : Stage} {seat : Seat} :
    seat ∈ setStage seats session stage ↔
      (∃ old ∈ seats, old.session = session ∧ seat = { old with stage := stage }) ∨
        (seat ∈ seats ∧ seat.session ≠ session) := by
  unfold setStage
  rw [List.mem_map]
  constructor
  · rintro ⟨old, member, rfl⟩
    split
    next here => exact .inl ⟨old, member, here, rfl⟩
    next other => exact .inr ⟨member, other⟩
  · rintro (⟨old, member, here, rfl⟩ | ⟨member, other⟩)
    · exact ⟨old, member, if_pos here⟩
    · exact ⟨seat, member, if_neg other⟩

theorem seatOf_some {s : Registry} {session : Nat} {seat : Seat} (found : seatOf s session = some seat) :
    seat ∈ s.seats ∧ seat.session = session :=
  ⟨List.mem_of_find?_eq_some found, by simpa using List.find?_some found⟩

end Seats

/-- Everything `prepare` can do to the registry. -/
theorem prepare_ok {s after : Registry} {request : ExecRequest} {createOnly created : Bool}
    {session : Session} (ok : prepare s request createOnly = .ok (after, session, created)) :
    after = s ∨ ∃ first, normalise request = .ok first ∧
      Assoc.find s.names first.sessionName = none ∧ s.permits ≠ 0 ∧
      after = insertSession s first createOnly := by
  obtain ⟨first, normal, ok⟩ := bind_ok ok
  split at ok
  next =>
    split_ifs at ok
    cases ok
    exact .inl rfl
  next absent =>
    split_ifs at ok with spent
    cases ok
    exact .inr ⟨first, normal, absent, spent, rfl⟩

/-- A call that may not join a session inserts one of its own. -/
theorem prepare_create {s after : Registry} {request : ExecRequest} {created : Bool} {session : Session}
    (ok : prepare s request true = .ok (after, session, created)) :
    after = call s request true ∧ session.id = s.next ∧ after.next = s.next + 1 := by
  have called : call s request true = after := by rw [call, ok]
  obtain ⟨first, normal, ok⟩ := bind_ok ok
  split at ok
  next => cases ok
  next absent =>
    split_ifs at ok with spent
    cases ok
    exact ⟨called.symm, rfl, rfl⟩

/-- What a call finds registered under the name it asks for. -/
theorem prepare_exists {s : Registry} {request : ExecRequest} {message : Text}
    (refused : prepare s request true = .error ⟨.alreadyExists, message⟩) :
    ∃ first session, normalise request = .ok first ∧ Assoc.find s.names first.sessionName = some session := by
  unfold prepare at refused
  cases normal : normalise request with
  | error status =>
    rw [normal] at refused
    cases refused
    exact absurd normal (normalise_code · rfl)
  | ok first =>
    rw [normal] at refused
    cases found : Assoc.find s.names first.sessionName with
    | some session => exact ⟨first, session, rfl, found⟩
    | none =>
      simp only [Bind.bind, Except.bind, found] at refused
      split_ifs at refused
      cases refused

theorem call_cases (s : Registry) (request : ExecRequest) (createOnly : Bool) :
    call s request createOnly = s ∨ ∃ first, normalise request = .ok first ∧
      Assoc.find s.names first.sessionName = none ∧ s.permits ≠ 0 ∧
      call s request createOnly = insertSession s first createOnly := by
  unfold call
  split
  next after rest ok => exact prepare_ok ok
  next => exact .inl rfl

section Steps
variable {names : Assoc Text Session} {seats : List Seat} {next : Nat}

theorem inv_insert {request first : ExecRequest} {createOnly : Bool} (inv : InvAt names seats next)
    (normal : normalise request = .ok first) (absent : Assoc.find names first.sessionName = none) :
    InvAt (names.insert first.sessionName ⟨next, first.user⟩)
      (seats ++ [⟨next, first.sessionName, .inserted createOnly first⟩]) (next + 1) where
  distinct := by
    rw [List.map_append]
    refine inv.distinct.append (List.nodup_singleton _) (List.disjoint_singleton.mpr fun member => ?_)
    obtain ⟨seat, there, same⟩ := List.mem_map.mp member
    exact absurd (inv.numbered seat there) (same ▸ Nat.lt_irrefl _)
  numbered seat member := by
    rcases List.mem_append.mp member with earlier | last
    · exact Nat.lt_succ_of_lt (inv.numbered seat earlier)
    · rw [List.mem_singleton.mp last]
      exact Nat.lt_succ_self next
  held seat member live := by
    rcases List.mem_append.mp member with earlier | last
    · obtain ⟨session, found, same⟩ := inv.held seat earlier live
      have different : seat.name ≠ first.sessionName := fun here => by
        rw [here, absent] at found
        cases found
      exact ⟨session, find_insert_iff.mpr (.inr ⟨different, found⟩), same⟩
    · rw [List.mem_singleton.mp last]
      exact ⟨⟨next, first.user⟩, find_insert_iff.mpr (.inl ⟨rfl, rfl⟩), rfl⟩
  owned name session found := by
    rcases find_insert_iff.mp found with ⟨rfl, rfl⟩ | ⟨_, before⟩
    · exact ⟨_, List.mem_append_right _ (List.mem_singleton_self _), rfl, rfl, rfl⟩
    · obtain ⟨seat, member, rest⟩ := inv.owned name session before
      exact ⟨seat, List.mem_append_left _ member, rest⟩
  sized seat member := by
    rcases List.mem_append.mp member with earlier | last
    · exact inv.sized seat earlier
    · rw [List.mem_singleton.mp last]
      obtain ⟨size, rows, cols⟩ := normalise_size normal
      exact ⟨size, by rw [rows, cols, dimensions_again]⟩

theorem numbered_setStage (numbered : ∀ seat ∈ seats, seat.session < next) (session : Nat) (stage : Stage) :
    ∀ seat ∈ setStage seats session stage, seat.session < next := by
  intro seat there
  rcases mem_setStage.mp there with ⟨old, before, _, rfl⟩ | ⟨before, _⟩
  · exact numbered old before
  · exact numbered seat before

theorem sized_setStage (before : ∀ seat ∈ seats, seat.stage.Sized) (session : Nat) {stage : Stage} (sized : stage.Sized) :
    ∀ seat ∈ setStage seats session stage, seat.stage.Sized := by
  intro seat there
  rcases mem_setStage.mp there with ⟨_, _, _, rfl⟩ | ⟨unchanged, _⟩
  · exact sized
  · exact before seat unchanged

/-- A worker moves on without leaving its session. -/
theorem inv_setStage {seat : Seat} {stage : Stage} (inv : InvAt names seats next) (member : seat ∈ seats)
    (was : seat.stage.live = true) (stays : stage.live = true) (sized : stage.Sized) :
    InvAt names (setStage seats seat.session stage) next where
  distinct := by
    rw [map_setStage]
    exact inv.distinct
  numbered := numbered_setStage inv.numbered _ _
  held other there live := by
    rcases mem_setStage.mp there with ⟨old, before, same, rfl⟩ | ⟨before, _⟩
    · exact inv.held old before (by rw [same_seat inv.distinct before member same, was])
    · exact inv.held other before live
  owned name session found := by
    obtain ⟨other, there, same, named, live⟩ := inv.owned name session found
    by_cases here : other.session = seat.session
    · exact ⟨{ other with stage := stage }, mem_setStage.mpr (.inl ⟨other, there, here, rfl⟩), same,
        named, stays⟩
    · exact ⟨other, mem_setStage.mpr (.inr ⟨there, here⟩), same, named, live⟩
  sized := sized_setStage inv.sized _ sized

/-- The owner removes its session by name: the name is its own, and every other entry stays. -/
theorem inv_remove {seat : Seat} (inv : InvAt names seats next) (member : seat ∈ seats)
    (was : seat.stage = .stopping) :
    InvAt (names.erase seat.name) (setStage seats seat.session .removed) next where
  distinct := by
    rw [map_setStage]
    exact inv.distinct
  numbered := numbered_setStage inv.numbered _ _
  held other there live := by
    rcases mem_setStage.mp there with ⟨_, _, _, rfl⟩ | ⟨before, different⟩
    · cases live
    · obtain ⟨session, found, same⟩ := inv.held other before live
      obtain ⟨own, mine, ours⟩ := inv.held seat member (by rw [was]; rfl)
      refine ⟨session, find_erase_iff.mpr ⟨fun named => different ?_, found⟩, same⟩
      rw [named, mine, Option.some.injEq] at found
      rw [← same, ← found, ours]
  owned name session found := by
    obtain ⟨different, before⟩ := find_erase_iff.mp found
    obtain ⟨other, there, same, named, live⟩ := inv.owned name session before
    have apart : other.session ≠ seat.session := fun here =>
      different (by rw [← named, same_seat inv.distinct there member here])
    exact ⟨other, mem_setStage.mpr (.inr ⟨there, apart⟩), same, named, live⟩
  sized := sized_setStage inv.sized _ trivial

theorem inv_retire {seat : Seat} (inv : InvAt names seats next) (member : seat ∈ seats)
    (was : seat.stage = .removed) :
    InvAt names (seats.eraseP fun other => other.session = seat.session) next where
  distinct := inv.distinct.sublist (List.eraseP_sublist.map _)
  numbered other there := inv.numbered other (List.mem_of_mem_eraseP there)
  held other there := inv.held other (List.mem_of_mem_eraseP there)
  owned name session found := by
    obtain ⟨other, there, same, named, live⟩ := inv.owned name session found
    have apart : other.session ≠ seat.session := fun here => by
      rw [same_seat inv.distinct there member here, was] at live
      cases live
    exact ⟨other, (List.mem_eraseP_of_neg (by simpa using apart)).mpr there, same, named, live⟩
  sized other there := inv.sized other (List.mem_of_mem_eraseP there)

end Steps

section Runs
variable {slots : Nat} {s t : Registry}

theorem inv_call (inv : Inv slots s) (request : ExecRequest) (createOnly : Bool) :
    Inv slots (call s request createOnly) := by
  rcases call_cases s request createOnly with same | ⟨first, normal, absent, free, same⟩
  · rw [same]
    exact inv
  · rw [same]
    refine ⟨inv_insert inv.toInvAt normal absent, ?_⟩
    have counted := inv.counted
    simp only [insertSession, List.length_append, List.length_singleton]
    omega

theorem inv_moves {session : Nat} {seat : Seat} {stage : Stage} (inv : Inv slots s)
    (found : seatOf s session = some seat) (was : seat.stage.live = true) (stays : stage.live = true)
    (sized : stage.Sized) : Inv slots { s with seats := setStage s.seats session stage } := by
  obtain ⟨member, rfl⟩ := seatOf_some found
  refine ⟨inv_setStage inv.toInvAt member was stays sized, ?_⟩
  simpa only [setStage, List.length_map] using inv.counted

/-- Dropping a worker turns one seat into one free permit. -/
theorem counted_dropWorker {seat : Seat} (member : seat ∈ s.seats) :
    (dropWorker s seat.session).permits + (dropWorker s seat.session).execs +
      (dropWorker s seat.session).seats.length = s.permits + s.execs + s.seats.length := by
  have shorter := List.length_eraseP_of_mem
    (p := fun other : Seat => decide (other.session = seat.session)) member (decide_eq_true rfl)
  have some := List.length_pos_of_mem member
  simp only [dropWorker, shorter]
  omega

theorem inv_step {a : Action} (inv : Inv slots s) (taken : step s a = some t) : Inv slots t := by
  cases a with
  | start request => cases taken; exact inv_call inv request true
  | attach request => cases taken; exact inv_call inv request false
  | checkAgain session =>
    simp only [step] at taken
    split at taken
    next found =>
      split at taken
      next => cases taken; exact inv_moves inv found rfl rfl trivial
      next failed =>
        obtain ⟨size, ok⟩ := inv.sized _ (seatOf_some found).1
        rw [ok] at failed
        cases failed
    next => cases taken
  | spawn session =>
    simp only [step] at taken
    split at taken
    next found => cases taken; exact inv_moves inv found rfl rfl trivial
    next found => cases taken; exact inv_moves inv found rfl rfl trivial
    next => cases taken
  | close name =>
    simp only [step] at taken
    split at taken
    next =>
      split at taken
      next found => cases taken; exact inv_moves inv found rfl rfl trivial
      next => cases taken; exact inv
    next => cases taken; exact inv
  | ownerNotified session | processEnds session =>
    simp only [step] at taken
    split at taken
    next found => cases taken; exact inv_moves inv found rfl rfl trivial
    next => cases taken
  | remove session =>
    simp only [step] at taken
    split at taken
    next found =>
      cases taken
      obtain ⟨member, rfl⟩ := seatOf_some found
      refine ⟨inv_remove inv.toInvAt member rfl, ?_⟩
      simpa only [setStage, List.length_map] using inv.counted
    next => cases taken
  | retire session =>
    simp only [step] at taken
    split at taken
    next found =>
      cases taken
      obtain ⟨member, rfl⟩ := seatOf_some found
      exact ⟨inv_retire inv.toInvAt member rfl, (counted_dropWorker member).trans inv.counted⟩
    next => cases taken
  | exec | execDone =>
    simp only [step] at taken
    split at taken
    next =>
      cases taken
      refine ⟨inv.toInvAt, ?_⟩
      have counted := inv.counted
      dsimp only
      omega
    next => cases taken

/-- A registered session stays registered until its own owner removes it. -/
theorem kept_or_removed {a : Action} {name : Text} {session : Session} (inv : Inv slots s)
    (taken : step s a = some t) (found : Assoc.find s.names name = some session) :
    Assoc.find t.names name = some session ∨
      (a = .remove session.id ∧ Assoc.find t.names name = none) := by
  cases a with
  | start request | attach request =>
    cases taken
    left
    rcases call_cases s request _ with same | ⟨first, _, absent, _, same⟩
    · rw [same]
      exact found
    · rw [same]
      refine find_insert_iff.mpr (.inr ⟨fun here => ?_, found⟩)
      rw [here, absent] at found
      cases found
  | remove id =>
    simp only [step] at taken
    split at taken
    next owner own seat =>
      cases taken
      obtain ⟨member, rfl⟩ := seatOf_some seat
      by_cases here : name = own
      · right
        obtain ⟨mine, held, same⟩ := inv.held _ member rfl
        rw [here, held, Option.some.injEq] at found
        refine ⟨by rw [← found, same], ?_⟩
        rw [Option.eq_none_iff_forall_ne_some]
        exact fun other present => (find_erase_iff.mp present).1 here
      · exact .inl (find_erase_iff.mpr ⟨here, found⟩)
    next => cases taken
  | _ =>
    left
    simp only [step] at taken
    repeat' split at taken
    all_goals cases taken
    all_goals exact found

/-- A step registers no session but a new one. -/
theorem found_before {a : Action} {name : Text} {session : Session} (taken : step s a = some t)
    (found : Assoc.find t.names name = some session) :
    Assoc.find s.names name = some session ∨ session.id = s.next := by
  cases a with
  | start request | attach request =>
    cases taken
    rcases call_cases s request _ with same | ⟨first, _, _, _, same⟩
    · rw [same] at found
      exact .inl found
    · rw [same] at found
      rcases find_insert_iff.mp found with ⟨_, rfl⟩ | ⟨_, before⟩
      · exact .inr rfl
      · exact .inl before
  | remove id =>
    simp only [step] at taken
    split at taken
    next => cases taken; exact .inl (find_erase_iff.mp found).2
    next => cases taken
  | _ =>
    left
    simp only [step] at taken
    repeat' split at taken
    all_goals cases taken
    all_goals exact found

theorem next_le {a : Action} (taken : step s a = some t) : s.next ≤ t.next := by
  cases a with
  | start request | attach request =>
    cases taken
    rcases call_cases s request _ with same | ⟨first, _, _, _, same⟩
    · rw [same]
    · rw [same]
      exact Nat.le_succ _
  | _ =>
    simp only [step] at taken
    repeat' split at taken
    all_goals cases taken
    all_goals exact Nat.le_refl _

/-- Registered sessions have seats of their own, so there are no more of them than seats. -/
theorem length_le_slots (inv : Inv slots s) : s.names.entries.length ≤ slots := by
  have apart : (s.names.entries.map fun entry => entry.2.id).Nodup := by
    refine List.Nodup.map_on ?_ s.names.nodupKeys.nodup
    intro one first two second same
    obtain ⟨seat, member, mine, named, _⟩ := inv.owned one.1 one.2 (find_some_iff.mpr first)
    obtain ⟨other, there, yours, called, _⟩ := inv.owned two.1 two.2 (find_some_iff.mpr second)
    have seats := same_seat inv.distinct member there (by rw [mine, yours, same])
    have names : one.1 = two.1 := by rw [← named, ← called, seats]
    obtain ⟨key, value⟩ := one
    obtain ⟨_, value'⟩ := two
    cases names
    rw [entries_unique first second]
  have seated : (s.names.entries.map fun entry => entry.2.id) ⊆ s.seats.map Seat.session := by
    intro id member
    obtain ⟨entry, there, rfl⟩ := List.mem_map.mp member
    obtain ⟨seat, held, same, _⟩ := inv.owned entry.1 entry.2 (find_some_iff.mpr there)
    exact List.mem_map.mpr ⟨seat, held, same⟩
  have fewer := (List.subperm_of_subset apart seated).length_le
  simp only [List.length_map] at fewer
  have counted := inv.counted
  omega

end Runs

theorem initial_inv (slots : Nat) : Inv slots (initial slots) where
  distinct := List.nodup_nil
  numbered _ member := absurd member List.not_mem_nil
  held _ member := absurd member List.not_mem_nil
  owned name session found := by
    have empty : Assoc.find (initial slots).names name = none := find_empty name
    rw [empty] at found
    cases found
  sized _ member := absurd member List.not_mem_nil
  counted := rfl

/-- What holds of the registry at any moment. The worker of a registered session is in one place
only: with the call that inserted it, where no check can fail any more, or in its owner. -/
structure Consistent (slots : Nat) (s : Registry) : Prop where
  unique : ∀ name first second, Sigma.mk name first ∈ s.names.entries →
    Sigma.mk name second ∈ s.names.entries → first = second
  kept : ∀ a t name session, step s a = some t → Assoc.find s.names name = some session →
    Assoc.find t.names name = some session ∨
      (a = .remove session.id ∧ Assoc.find t.names name = none)
  owned : ∀ name session, Assoc.find s.names name = some session →
    ∃ seat, s.seats.filter (fun other => other.session = session.id) = [seat] ∧ seat.name = name ∧
      (seat.stage.owner = true ∨ seat.stage.starting = true)
  unfailing : ∀ seat ∈ s.seats, ∀ createOnly request, seat.stage = .inserted createOnly request →
    ∃ size, dimensions request.terminalRows request.terminalCols = .ok size
  own : ∀ seat ∈ s.seats, seat.stage = .stopping →
    ∃ session, Assoc.find s.names seat.name = some session ∧ session.id = seat.session
  bounded : s.names.entries.length ≤ slots

/-- Names, owners, removals and slots fit together in every reachable state. -/
theorem reachable_consistent (slots : Nat) (s : Registry) (reached : (system slots).Reachable s) :
    Consistent slots s := by
  have inv : Inv slots s := reached.invariant (fun _ start => start ▸ initial_inv slots)
    (fun _ _ _ inv taken => inv_step inv taken)
  refine ⟨fun _ _ _ one two => entries_unique one two,
    fun _ _ _ _ taken found => kept_or_removed inv taken found, ?_, ?_, ?_, length_le_slots inv⟩
  · intro name session found
    obtain ⟨seat, member, same, named, live⟩ := inv.owned name session found
    refine ⟨seat, same ▸ filter_session inv.distinct member, named, ?_⟩
    exact (Bool.or_eq_true_iff.mp live).symm
  · intro seat member createOnly request was
    have sized := inv.sized seat member
    rw [was] at sized
    exact sized
  · intro seat member was
    exact inv.held seat member (by rw [was]; rfl)

/-- A session is started, closed, removed, and its name taken again before the slot is free. -/
def reopened : List Action :=
  [.start shell, .spawn 0, .attach shell, .close "main".toList, .ownerNotified 0, .remove 0,
    .attach shell, .checkAgain 1, .spawn 1, .retire 0, .processEnds 1]

theorem reopened_runs : ((system 2).run (initial 2) reopened).isSome = true := by decide

theorem reopened_consistent : Consistent 2 (((system 2).run (initial 2) reopened).get reopened_runs) :=
  reachable_consistent 2 _ (System.reachable_of_run (.start rfl) (Option.some_get _).symm)

/-- A session just inserted has no owner task yet. -/
theorem inserted_runs : ((system 1).run (initial 1) [.attach shell]).isSome = true := by decide

/-- Not every registered session has an owner task at every moment. -/
theorem inserted_without_owner :
    ¬∀ s, (system 1).Reachable s → ∀ name session, Assoc.find s.names name = some session →
      ∃ seat, s.seats.filter (fun other => other.session = session.id ∧ other.stage.owner = true) =
        [seat] := by
  intro owned
  obtain ⟨seat, alone⟩ := owned (((system 1).run (initial 1) [.attach shell]).get inserted_runs)
    (System.reachable_of_run (.start rfl) (Option.some_get _).symm) "main".toList ⟨0, "pbox".toList⟩
    (by decide)
  have none : (((system 1).run (initial 1) [.attach shell]).get inserted_runs).seats.filter
      (fun other => other.session = 0 ∧ other.stage.owner = true) = [] := by decide
  rw [none] at alone
  cases alone

end Pbox.Agent.Registry
