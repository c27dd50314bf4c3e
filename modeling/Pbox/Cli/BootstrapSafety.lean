import Pbox.Cli.Bootstrap

/-! While a container of the box exists whose guest still trusts the bootstrap key, the key is on disk,
as long as no removal rests on a wrong guess about the creation. -/

namespace Pbox.Cli.BootstrapSafety
open Pbox.Lib.Transition Pbox.Cli.BootstrapFiles Pbox.Cli.Bootstrap

def HasKey (disk : Option Directory) : Prop := ∃ directory, disk = some directory ∧ directory.sshKey = true

/-- A container of the box, complete or not, whose guest has not been cleaned. -/
def Uncleaned (remote : Remote) : Prop :=
  ∃ place, remote = .creating place ∨ remote = .existing place false

def Recoverable (s : State) : Prop := Uncleaned s.remote → HasKey s.disk

/-- `run_new` has not sent its creation request, or is going to send another one. -/
def NewPc.mayAsk : NewPc → Bool
  | .start | .ready _ | .saving _ .request => true
  | _ => false

/-- No container that has not been cleaned exists or can still come. -/
structure Closed (s : State) : Prop where
  settled : ¬Uncleaned s.remote
  landed : ∀ place, s.request ≠ .flying place
  asked : NewPc.mayAsk s.new = false
  answered : ∀ operation place, s.new = .requesting operation place → s.request = .accepted

/-- A removal follows a definite answer: an error of the creation request means that nothing was or will
be created, and a repair that finds neither a recorded VMID nor a box does so after the creation. -/
def Definite (s : State) : Action → Prop
  | .new .errors => s.remote = .absent ∧ ∀ place, s.request ≠ .flying place
  | .repair r (.discovers none) =>
    ∀ key operation, s.repairs r = .loaded key operation → operation.vmid = none → Closed s
  | _ => True

/-- The directory is about to be removed. -/
def NewPc.ends (pc : NewPc) : Prop := pc = .removing ∨ ∃ operation, pc = .saving operation .remove

def RepairPc.ends (pc : RepairPc) : Prop := pc = .removing ∨ ∃ key operation, pc = .saving key operation .remove

structure Sound (s : State) : Prop where
  early : NewPc.mayAsk s.new = true → s.remote = .absent ∧ ∀ place, s.request ≠ .flying place
  flying : ∀ place, s.request = .flying place → s.remote = .absent
  requesting : ∀ operation place, s.new = .requesting operation place → s.request = .accepted ∨ s.remote = .absent
  key : s.new = .start ∨ HasKey s.disk ∨ Closed s
  newEnds : NewPc.ends s.new → Closed s
  repairEnds : ∀ r, RepairPc.ends (s.repairs r) → Closed s

section Proofs
variable {settings : Settings} {s t : State}

theorem absent_settled (absent : s.remote = .absent) : ¬Uncleaned s.remote := by
  rintro ⟨place, creating | existing⟩
  · rw [absent] at creating
    cases creating
  · rw [absent] at existing
    cases existing

theorem initial_sound (initial : Initial s) : Sound s := by
  obtain ⟨_, ⟨request, remote⟩, ⟨new, repairs⟩⟩ := initial
  have landed (place : Place) : s.request ≠ .flying place := by
    rw [request]
    rintro ⟨⟩
  refine ⟨fun _ => ⟨remote, landed⟩, fun place flying => (landed place flying).elim, fun _ _ _ => .inr remote,
    .inl new, fun ends => ?_, fun r ends => ?_⟩
  · rw [new] at ends
    rcases ends with ends | ⟨_, ends⟩ <;> cases ends
  · rw [repairs r] at ends
    rcases ends with ends | ⟨_, _, ends⟩ <;> cases ends

theorem Sound.recoverable (sound : Sound s) : Recoverable s := by
  intro uncleaned
  rcases sound.key with start | key | closed
  · exact (absent_settled (sound.early (by rw [start]; rfl)).1 uncleaned).elim
  · exact key
  · exact (closed.settled uncleaned).elim

theorem Closed.goes (closed : Closed s) {pc : NewPc} (asked : NewPc.mayAsk pc = false)
    (past : ∀ operation place, pc ≠ .requesting operation place) : Closed (s.goes pc) :=
  ⟨closed.settled, closed.landed, asked, fun operation place now => (past operation place now).elim⟩

/-- `run_new` moves on without a call that changes PVE. -/
theorem Sound.goes (sound : Sound s) {pc : NewPc} (begun : s.new ≠ .start)
    (asks : NewPc.mayAsk pc = true → s.remote = .absent ∧ ∀ place, s.request ≠ .flying place)
    (closes : Closed s → NewPc.mayAsk pc = false) (past : ∀ operation place, pc ≠ .requesting operation place)
    (ends : NewPc.ends pc → ¬Uncleaned s.remote ∧ ∀ place, s.request ≠ .flying place) : Sound (s.goes pc) := by
  obtain ⟨_, flying, _, key, _, repairEnds⟩ := sound
  refine ⟨asks, flying, fun operation place now => (past operation place now).elim, ?_, fun ending => ?_,
    fun r ending => (repairEnds r ending).goes (closes (repairEnds r ending)) past⟩
  · rcases key with start | key | closed
    · exact (begun start).elim
    · exact .inr (.inl key)
    · exact .inr (.inr (closed.goes (closes closed) past))
  · have quiet : NewPc.mayAsk pc = false := by rcases ending with rfl | ⟨_, rfl⟩ <;> rfl
    exact ⟨(ends ending).1, (ends ending).2, quiet, fun operation place now => (past operation place now).elim⟩

/-- A change on disk that keeps the key, or comes when it is not needed any more. -/
theorem Sound.writes (sound : Sound s) {disk : Option Directory} (keeps : (HasKey s.disk → HasKey disk) ∨ Closed s) :
    Sound { s with disk } := by
  obtain ⟨early, flying, requesting, key, newEnds, repairEnds⟩ := sound
  have same (closed : Closed s) : Closed { s with disk } :=
    ⟨closed.settled, closed.landed, closed.asked, closed.answered⟩
  refine ⟨early, flying, requesting, ?_, fun ends => same (newEnds ends), fun r ends => same (repairEnds r ends)⟩
  rcases key with start | key | closed
  · exact .inl start
  · rcases keeps with keeps | closed
    · exact .inr (.inl (keeps key))
    · exact .inr (.inr (same closed))
  · exact .inr (.inr (same closed))

/-- A repair moves on. -/
theorem Sound.turns (sound : Sound s) {r : Nat} {pc : RepairPc} (ends : RepairPc.ends pc → Closed s) :
    Sound (s.turns r pc) := by
  obtain ⟨early, flying, requesting, key, newEnds, repairEnds⟩ := sound
  have same (closed : Closed s) : Closed (s.turns r pc) :=
    ⟨closed.settled, closed.landed, closed.asked, closed.answered⟩
  refine ⟨early, flying, requesting, key.imp_right (Or.imp_right same), fun ending => same (newEnds ending),
    fun other ending => ?_⟩
  by_cases self : other = r
  · subst self
    simp only [State.turns, Function.update_self] at ending
    exact same (ends ending)
  · simp only [State.turns, Function.update_of_ne self] at ending
    exact same (repairEnds other ending)

/-- A change of the container that brings none which has not been cleaned. -/
theorem Sound.settles (sound : Sound s) {remote : Remote} (absent : s.remote = .absent → remote = .absent)
    (settled : ¬Uncleaned s.remote → ¬Uncleaned remote) : Sound { s with remote } := by
  obtain ⟨early, flying, requesting, key, newEnds, repairEnds⟩ := sound
  have same (closed : Closed s) : Closed { s with remote } :=
    ⟨settled closed.settled, closed.landed, closed.asked, closed.answered⟩
  exact ⟨fun asks => (early asks).imp_left absent, fun place now => absent (flying place now),
    fun operation place now => (requesting operation place now).imp_right absent,
    key.imp_right (Or.imp_right same), fun ends => same (newEnds ends), fun r ends => same (repairEnds r ends)⟩

/-- The guest has been cleaned where a complete container is; no request can be open beside it. -/
theorem Sound.closed_of_existing (sound : Sound s) {place : Place} {cleaned : Bool}
    (existing : s.remote = .existing place cleaned) : Closed { s with remote := .existing place true } := by
  refine ⟨?_, fun other flying => ?_, ?_, fun operation other now => ?_⟩
  · rintro ⟨other, creating | uncleaned⟩ <;> cases ‹_›
  · have absent := sound.flying other flying
    rw [existing] at absent
    cases absent
  · by_contra asks
    have absent := (sound.early (by simpa using asks)).1
    rw [existing] at absent
    cases absent
  · rcases sound.requesting operation other now with accepted | absent
    · exact accepted
    · rw [existing] at absent
      cases absent

theorem Sound.cleaned (sound : Sound s) : Sound { s with remote := s.remote.clean } := by
  refine sound.settles (fun absent => by rw [absent]; rfl) fun settled => ?_
  rintro ⟨place, uncleaned⟩
  cases remote : s.remote with
  | absent => rw [remote] at uncleaned; rcases uncleaned with uncleaned | uncleaned <;> cases uncleaned
  | creating other => exact settled ⟨other, .inl remote⟩
  | existing other cleaned => rw [remote] at uncleaned; rcases uncleaned with uncleaned | uncleaned <;> cases uncleaned

/-- A record is written into the directory that is there. -/
theorem save_keeps {key : BootstrapKey} {operation : BootstrapOperation} {disk : Option Directory}
    {directory : Directory} (saved : saveOperation key operation disk = .ok directory) (has : HasKey disk) :
    HasKey (some directory) := by
  obtain ⟨before, rfl, present⟩ := has
  unfold saveOperation at saved
  split at saved
  · cases saved
  · split at saved
    · cases saved
    · cases saved
      exact ⟨_, rfl, present⟩

/-- After a record has been written `run_new` only asks when it was going to, and removes the directory
when the record says that the guest has been cleaned. -/
theorem afterNew_asks {operation : BootstrapOperation} {next : After}
    (asks : NewPc.mayAsk (afterNew operation next) = true) : next = .request := by
  cases next <;> first | rfl | cases asks

theorem afterNew_ends {operation : BootstrapOperation} {next : After} (ends : NewPc.ends (afterNew operation next)) :
    next = .remove := by
  cases next <;> rcases ends with ends | ⟨_, ends⟩ <;> first | rfl | cases ends

theorem afterNew_past (operation : BootstrapOperation) (next : After) (other : BootstrapOperation) (place : Place) :
    afterNew operation next ≠ .requesting other place := by
  cases next <;> rintro ⟨⟩

theorem generates_sound (sound : Sound s) (taken : newStep settings s .generates = some t) : Sound t := by
  simp only [newStep] at taken
  split at taken
  next start =>
    cases taken
    have early := sound.early (by rw [start]; rfl)
    have unclosed (closed : Closed s) : False := by
      have asked := closed.asked
      rw [start] at asked
      cases asked
    refine ⟨fun _ => early, sound.flying, fun _ _ now => (by cases now), .inr (.inl ⟨_, rfl, rfl⟩),
      fun ends => ?_,
      fun r ends => (unclosed (sound.repairEnds r ends)).elim⟩
    rcases ends with ends | ⟨_, ends⟩ <;> cases ends
  next => cases taken

theorem newSaves_sound (sound : Sound s) {written : Bool} (taken : newStep settings s (.saves written) = some t) :
    Sound t := by
  simp only [newStep] at taken
  split at taken
  next operation next saving =>
    have begun : s.new ≠ .start := by
      rw [saving]
      rintro ⟨⟩
    have early (first : next = .request) := sound.early (by rw [saving, first]; rfl)
    split at taken
    next directory saved =>
      cases taken
      have wrote := sound.writes (.inl (save_keeps saved))
      refine wrote.goes begun (fun asks => early (afterNew_asks asks)) (fun closed => ?_)
        (afterNew_past operation next) fun ends => ?_
      · by_contra asks
        have first := afterNew_asks (by simpa using asks)
        have asked := closed.asked
        rw [show State.new { s with disk := some directory } = s.new from rfl, saving, first] at asked
        cases asked
      · have closed := sound.newEnds (.inr ⟨operation, by rw [saving, afterNew_ends ends]⟩)
        exact ⟨closed.settled, closed.landed⟩
    next => cases taken
    next =>
      cases taken
      refine sound.goes begun (fun asks => ?_) (fun _ => ?_) (fun _ _ => ?_) fun ends => ?_
      · split at asks <;> cases asks
      · split <;> rfl
      · split <;> rintro ⟨⟩
      · split at ends
        next first => exact ⟨absent_settled (early first).1, (early first).2⟩
        next => rcases ends with ends | ⟨_, ends⟩ <;> cases ends
  next => cases taken

/-- A step to a place from which nothing is asked and nothing removed. -/
theorem Sound.passes (sound : Sound s) {pc : NewPc} (begun : s.new ≠ .start) (quiet : NewPc.mayAsk pc = false)
    (past : ∀ operation place, pc ≠ .requesting operation place) (goesOn : ¬NewPc.ends pc) : Sound (s.goes pc) :=
  sound.goes begun (fun asks => by rw [quiet] at asks; cases asks) (fun _ => quiet) past fun ends => (goesOn ends).elim

theorem newStep_sound {a : NewAction} (sound : Sound s) (definite : Definite s (.new a))
    (taken : newStep settings s a = some t) : Sound t := by
  cases a with
  | generates => exact generates_sound sound taken
  | saves written => exact newSaves_sound sound taken
  | requests place =>
    simp only [newStep] at taken
    split at taken
    next operation now =>
      simp only [Option.ite_none_right_eq_some, Option.some.injEq] at taken
      obtain ⟨_, rfl⟩ := taken
      have early := sound.early (by rw [now]; rfl)
      have unclosed (closed : Closed s) : False := by
        have asked := closed.asked
        rw [now] at asked
        cases asked
      refine ⟨fun asks => (by cases asks), fun _ _ => early.1, fun _ _ _ => .inr early.1, ?_, fun ends => ?_,
        fun r ends => (unclosed (sound.repairEnds r ends)).elim⟩
      · rcases sound.key with start | key | closed
        · rw [now] at start
          cases start
        · exact .inr (.inl key)
        · exact (unclosed closed).elim
      · rcases ends with ends | ⟨_, ends⟩ <;> cases ends
    next => cases taken
  | unallocated =>
    simp only [newStep] at taken
    split at taken
    next operation now =>
      cases taken
      have early := sound.early (by rw [now]; rfl)
      exact sound.goes (by rw [now]; rintro ⟨⟩) (fun _ => early) (fun _ => rfl) (by rintro _ _ ⟨⟩)
        fun _ => ⟨absent_settled early.1, early.2⟩
    next => cases taken
  | created =>
    simp only [newStep] at taken
    split at taken
    next operation place now =>
      simp only [Option.ite_none_right_eq_some, Option.some.injEq] at taken
      obtain ⟨_, rfl⟩ := taken
      refine sound.passes (by rw [now]; rintro ⟨⟩) rfl (by rintro _ _ ⟨⟩) ?_
      rintro (ends | ⟨_, ends⟩) <;> cases ends
    next => cases taken
  | conflicts =>
    simp only [newStep] at taken
    split at taken
    next operation place now =>
      simp only [Option.ite_none_right_eq_some, Option.some.injEq] at taken
      obtain ⟨rejected, rfl⟩ := taken
      have landed (other : Place) : s.request ≠ .flying other := by
        rw [rejected]
        rintro ⟨⟩
      have absent : s.remote = .absent := by
        rcases sound.requesting operation place now with accepted | absent
        · rw [rejected] at accepted
          cases accepted
        · exact absent
      refine sound.goes (by rw [now]; rintro ⟨⟩) (fun _ => ⟨absent, landed⟩) (fun closed => ?_) (by rintro _ _ ⟨⟩) ?_
      · have accepted := closed.answered operation place now
        rw [rejected] at accepted
        cases accepted
      · rintro (ends | ⟨_, ends⟩) <;> cases ends
    next => cases taken
  | errors =>
    simp only [newStep] at taken
    split at taken
    next operation place now =>
      cases taken
      exact sound.goes (by rw [now]; rintro ⟨⟩) (fun asks => by cases asks) (fun _ => rfl) (by rintro _ _ ⟨⟩)
        fun _ => ⟨absent_settled definite.1, definite.2⟩
    next => cases taken
  | finishes ok =>
    simp only [newStep] at taken
    split at taken
    next operation place now =>
      cases taken
      refine sound.passes (by rw [now]; rintro ⟨⟩) (by split <;> rfl) (fun _ _ => by split <;> rintro ⟨⟩) ?_
      split <;> rintro (ends | ⟨_, ends⟩) <;> cases ends
    next => cases taken
  | addresses ip =>
    simp only [newStep] at taken
    split at taken
    next operation place now =>
      cases taken
      refine sound.passes (by rw [now]; rintro ⟨⟩) (by cases ip <;> rfl) (fun _ _ => by cases ip <;> rintro ⟨⟩) ?_
      cases ip <;> rintro (ends | ⟨_, ends⟩) <;> cases ends
    next => cases taken
  | installs =>
    simp only [newStep] at taken
    split at taken
    next operation place now =>
      cases taken
      refine sound.passes (by rw [now]; rintro ⟨⟩) rfl (by rintro _ _ ⟨⟩) ?_
      rintro (ends | ⟨_, ends⟩) <;> cases ends
    next => cases taken
  | cleans =>
    simp only [newStep] at taken
    split at taken
    next operation _ place cleaned now existing =>
      cases taken
      have closed := sound.closed_of_existing existing
      have settled : Sound { s with remote := .existing place true } := by
        refine sound.settles (fun absent => ?_) fun _ => closed.settled
        rw [existing] at absent
        cases absent
      exact settled.goes (by rw [now]; rintro ⟨⟩) (fun asks => by cases asks) (fun _ => rfl) (by rintro _ _ ⟨⟩)
        fun _ => ⟨closed.settled, closed.landed⟩
    next => cases taken
  | unlinks file =>
    simp only [newStep] at taken
    split at taken
    next now =>
      cases taken
      exact sound.writes (.inr (sound.newEnds (.inl now)))
    next => cases taken
  | removes =>
    simp only [newStep] at taken
    split at taken
    next now =>
      cases taken
      have wrote : Sound { s with disk := rmdir s.disk } := sound.writes (.inr (sound.newEnds (.inl now)))
      refine wrote.passes (by rw [show State.new { s with disk := rmdir s.disk } = s.new from rfl, now]; rintro ⟨⟩) rfl
        (by rintro _ _ ⟨⟩) ?_
      rintro (ends | ⟨_, ends⟩) <;> cases ends
    next => cases taken
  | fails =>
    cases taken
    by_cases start : s.new = .start
    · -- nothing has been asked for yet, and nothing will be
      have early := sound.early (by rw [start]; rfl)
      have closed : Closed (s.goes .ended) :=
        ⟨absent_settled early.1, early.2, rfl, fun _ _ now => by cases now⟩
      exact ⟨fun asks => (by cases asks), sound.flying, fun _ _ now => (by cases now), .inr (.inr closed),
        fun _ => closed, fun _ _ => closed⟩
    · refine sound.passes start rfl (by rintro _ _ ⟨⟩) ?_
      rintro (ends | ⟨_, ends⟩) <;> cases ends

theorem found_ends {key : BootstrapKey} {operation : BootstrapOperation} {seen : Option Place}
    (ends : RepairPc.ends (found key operation seen)) : seen = none ∧ operation.vmid = none := by
  unfold found at ends
  cases seen with
  | some place =>
    dsimp only at ends
    split at ends <;> rcases ends with ends | ⟨_, _, ends⟩ <;> cases ends
  | none =>
    dsimp only at ends
    split at ends
    · rcases ends with ends | ⟨_, _, ends⟩ <;> cases ends
    next unrecorded => exact ⟨rfl, by simpa using unrecorded⟩

theorem branch_goesOn (key : BootstrapKey) (operation : BootstrapOperation) (place : Place) (agent : Bool)
    (ip : BitVec 32) : ¬RepairPc.ends (branch settings key operation place agent ip) := by
  unfold branch
  dsimp only
  split_ifs <;> rintro (ends | ⟨_, _, ends⟩) <;> cases ends

theorem repairStep_sound {r : Nat} {a : RepairAction} (sound : Sound s) (definite : Definite s (.repair r a))
    (taken : repairStep settings s r a = some t) : Sound t := by
  cases a with
  | looks =>
    simp only [repairStep] at taken
    split at taken
    next now =>
      cases taken
      refine sound.turns fun ends => ?_
      split at ends
      · split at ends <;> rcases ends with ends | ⟨_, _, ends⟩ <;> cases ends
      · rcases ends with ends | ⟨_, _, ends⟩ <;> cases ends
    next => cases taken
  | discovers seen =>
    simp only [repairStep] at taken
    split at taken
    next key operation now =>
      simp only [Option.ite_none_right_eq_some, Option.some.injEq] at taken
      obtain ⟨_, rfl⟩ := taken
      refine sound.turns fun ends => ?_
      obtain ⟨rfl, unrecorded⟩ := found_ends ends
      exact definite key operation now unrecorded
    next => cases taken
  | branches agent ip =>
    simp only [repairStep] at taken
    split at taken
    next key operation place now =>
      cases taken
      exact sound.turns fun ends => (branch_goesOn key operation place agent ip ends).elim
    next => cases taken
  | saves written =>
    simp only [repairStep] at taken
    split at taken
    next key operation next now =>
      split at taken
      next directory saved =>
        cases taken
        have turned : Sound (s.turns r (afterRepair key operation next)) := by
          refine sound.turns fun ends => sound.repairEnds r (.inr ⟨key, operation, ?_⟩)
          rw [now]
          cases next <;> rcases ends with ends | ⟨_, _, ends⟩ <;> first | rfl | cases ends
        exact turned.writes (.inl (save_keeps saved))
      next => cases taken
      next =>
        cases taken
        refine sound.turns fun ends => ?_
        rcases ends with ends | ⟨_, _, ends⟩ <;> cases ends
    next => cases taken
  | installs =>
    simp only [repairStep] at taken
    split at taken
    next key operation place now =>
      cases taken
      refine sound.turns fun ends => ?_
      rcases ends with ends | ⟨_, _, ends⟩ <;> cases ends
    next => cases taken
  | cleans =>
    simp only [repairStep] at taken
    split at taken
    next key operation direct place cleaned now existing =>
      cases taken
      have closed := sound.closed_of_existing existing
      have settled : Sound { s with remote := .existing place true } := by
        refine sound.settles (fun absent => ?_) fun _ => closed.settled
        rw [existing] at absent
        cases absent
      exact settled.turns fun _ => closed
    next => cases taken
  | unlinks file =>
    simp only [repairStep] at taken
    split at taken
    next now =>
      cases taken
      exact sound.writes (.inr (sound.repairEnds r (.inl now)))
    next => cases taken
  | removes =>
    simp only [repairStep] at taken
    split at taken
    next now =>
      cases taken
      have closed := sound.repairEnds r (.inl now)
      have turned : Sound (s.turns r .ended) := sound.turns fun _ => closed
      exact turned.writes (.inr ⟨closed.settled, closed.landed, closed.asked, closed.answered⟩)
    next => cases taken
  | fails =>
    cases taken
    refine sound.turns fun ends => ?_
    rcases ends with ends | ⟨_, _, ends⟩ <;> cases ends

/-- PVE begins a creation: nothing has been removed that it needs. -/
theorem accepts_sound {place : Place} (sound : Sound s) (flying : s.request = .flying place) :
    Sound { s with request := .accepted, remote := .creating place } := by
  have unclosed (closed : Closed s) : False := closed.landed place flying
  have unasked : NewPc.mayAsk s.new = false := by
    by_contra asks
    exact (sound.early (by simpa using asks)).2 place flying
  refine ⟨fun asks => ?_, fun _ now => (by cases now), fun _ _ _ => .inl rfl, ?_, fun ends => ?_, fun r ends => ?_⟩
  · rw [unasked] at asks
    cases asks
  · rcases sound.key with start | key | closed
    · exact .inl start
    · exact .inr (.inl key)
    · exact (unclosed closed).elim
  · exact (unclosed (sound.newEnds ends)).elim
  · exact (unclosed (sound.repairEnds r ends)).elim

theorem rejects_sound {place : Place} (sound : Sound s) (flying : s.request = .flying place) :
    Sound { s with request := .rejected } := by
  have absent := sound.flying place flying
  have unclosed (closed : Closed s) : False := closed.landed place flying
  refine ⟨fun asks => ?_, fun _ now => (by cases now), fun _ _ _ => .inr absent, ?_, fun ends => ?_, fun r ends => ?_⟩
  · exact ((sound.early asks).2 place flying).elim
  · rcases sound.key with start | key | closed
    · exact .inl start
    · exact .inr (.inl key)
    · exact (unclosed closed).elim
  · exact (unclosed (sound.newEnds ends)).elim
  · exact (unclosed (sound.repairEnds r ends)).elim

theorem completes_sound {place : Place} (sound : Sound s) (creating : s.remote = .creating place) :
    Sound { s with remote := .existing place false } := by
  refine sound.settles (fun absent => ?_) fun settled => (settled ⟨place, .inl creating⟩).elim
  rw [creating] at absent
  cases absent

theorem vanishes_sound (sound : Sound s) : Sound { s with remote := .absent } :=
  sound.settles (fun _ => rfl) fun _ => @absent_settled { s with remote := .absent } rfl

theorem step_sound {a : Action} (sound : Sound s) (definite : Definite s a) (taken : step settings s a = some t) :
    Sound t := by
  cases a with
  | new action => exact newStep_sound sound definite taken
  | repair r action => exact repairStep_sound sound definite taken
  | accepts =>
    simp only [step] at taken
    split at taken
    next place flying => exact Option.some.inj taken ▸ accepts_sound sound flying
    next => cases taken
  | rejects =>
    simp only [step] at taken
    split at taken
    next place flying => exact Option.some.inj taken ▸ rejects_sound sound flying
    next => cases taken
  | completes =>
    simp only [step] at taken
    split at taken
    next place creating => exact Option.some.inj taken ▸ completes_sound sound creating
    next => cases taken
  | collapses =>
    simp only [step] at taken
    split at taken
    next => exact Option.some.inj taken ▸ vanishes_sound sound
    next => cases taken
  | destroyed =>
    simp only [step] at taken
    split at taken
    next => exact Option.some.inj taken ▸ vanishes_sound sound
    next => cases taken
  | cleanedUnseen => exact Option.some.inj taken ▸ sound.cleaned

/-- In a run whose removals follow definite answers, the key of every container that has not been cleaned is
on disk. -/
theorem key_kept (settings : Settings) {s : State} (reached : (system settings).ReachableBy Definite s) :
    Recoverable s :=
  (reached.invariant (fun _ initial => initial_sound initial)
    fun _ _ _ sound definite taken => step_sound sound definite taken).recoverable

end Proofs

section Sample

def sampleSettings : Settings where
  boxId := "pbx_t3yzd9y3".toList
  node := "pve".toList
  port := 7443
  publicKey := "ssh-ed25519 AAAA pbox".toList
  process := 17
  stamp := 1700000000
  others := []

def samplePlace : Place := ⟨"pve".toList, 9000⟩

def blank : State := ⟨none, .none, .absent, .start, fun _ => .looking⟩

theorem blank_initial : Initial blank := ⟨rfl, ⟨rfl, rfl⟩, ⟨rfl, fun _ => rfl⟩⟩

/-- PVE carries the creation out but its reply is lost. -/
def lostReply : List Action :=
  [.new .generates, .new (.saves true), .new (.requests samplePlace), .accepts, .new .errors, .new (.unlinks .sshKey),
    .new (.unlinks .publicKey), .new (.unlinks .operation), .new .removes, .completes]

/-- The new container trusts a key that is gone. -/
theorem lost_reply_loses_key : ∃ s, (system sampleSettings).Reachable s ∧
    s.remote = .existing samplePlace false ∧ s.disk = none ∧ ¬Recoverable s := by
  obtain ⟨s, ran⟩ := Option.isSome_iff_exists.mp
    (show ((system sampleSettings).run blank lostReply).isSome = true by decide)
  have last : ((system sampleSettings).run blank lostReply).map (fun s => (s.remote, s.disk)) =
      some (.existing samplePlace false, none) := by decide
  rw [ran, Option.map_some, Option.some.injEq, Prod.mk.injEq] at last
  refine ⟨s, System.reachable_of_run (.start blank_initial) ran, last.1, last.2, fun recoverable => ?_⟩
  obtain ⟨directory, present, _⟩ := recoverable ⟨samplePlace, .inr last.1⟩
  rw [last.2] at present
  cases present

def certain : Action → Bool
  | .new .errors | .repair _ (.discovers none) => false
  | _ => true

theorem certain_definite (s : State) (a : Action) (known : certain a = true) : Definite s a := by
  unfold certain at known
  unfold Definite
  split at known
  · cases known
  · cases known
  · trivial

/-- `run_new` fails while it installs the agent, and a repair takes the box over. -/
def repairedRun : List Action :=
  [.new .generates, .new (.saves true), .new (.requests samplePlace), .accepts, .new .created, .new (.saves true),
    .completes, .new (.finishes true), .new (.saves true), .new (.addresses (some 7)), .new (.saves true),
    .new (.saves true), .new .fails, .repair 0 .looks, .repair 0 (.discovers (some samplePlace)),
    .repair 0 (.branches false 7)]

theorem repairedRun_keeps : ∃ s, (system sampleSettings).ReachableBy Definite s ∧
    s.remote = .existing samplePlace false ∧ Recoverable s := by
  obtain ⟨s, ran⟩ := Option.isSome_iff_exists.mp
    (show ((system sampleSettings).runBy (fun _ => certain) blank repairedRun).isSome = true by decide)
  have last : ((system sampleSettings).runBy (fun _ => certain) blank repairedRun).map (·.remote) =
      some (.existing samplePlace false) := by decide
  rw [ran, Option.map_some, Option.some.injEq] at last
  have reached : (system sampleSettings).ReachableBy Definite s :=
    System.reachableBy_of_runBy certain_definite (.start blank_initial) ran
  exact ⟨s, reached, last, key_kept sampleSettings reached⟩

end Sample

end Pbox.Cli.BootstrapSafety
