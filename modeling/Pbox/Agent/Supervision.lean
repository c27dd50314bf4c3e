import Pbox.Agent.Supervisor
import Pbox.Lib.Spacing

/-! What holds of `supervise` however processes end, fork and are inherited: the pid it keeps for a service is that of
its one process, restarts keep their distance, the end of the application ends the services, and the workspace ends
without processes or after they have been killed. -/

namespace Pbox.Agent.Supervisor
open Pbox.Lib.Strings Pbox.Lib.Transition Pbox.Lib.Spacing

/-! The processes of the system. -/

section Processes
variable {processes : List Process} {process other : Process} {pid parent : Nat} {argv : List Text}

theorem mem_without : process ∈ without pid processes ↔ process ∈ processes ∧ process.pid ≠ pid := by
  unfold without
  rw [List.mem_filter, decide_eq_true_eq]

theorem exit_pid (process : Process) : (exit pid process).pid = process.pid := by
  unfold exit
  split
  · rfl
  · split <;> rfl

theorem exit_role (process : Process) : (exit pid process).role = process.role := by
  unfold exit
  split
  · rfl
  · split <;> rfl

theorem exit_own (own : process.parent = 1) : (exit pid process).parent = 1 := by
  unfold exit
  split
  · exact own
  · split
    · rfl
    · exact own

theorem WellFormed.same (formed : WellFormed processes) (first : process ∈ processes) (second : other ∈ processes)
    (pids : process.pid = other.pid) : process = other :=
  List.inj_on_of_nodup_map formed.pids first second pids

theorem WellFormed.cons (formed : WellFormed processes) (notInit : pid ≠ 1) (fresh : ∀ other ∈ processes, other.pid ≠ pid)
    (role : Role) (under : parent = 1 ∨ ∃ other ∈ processes, other.pid = parent ∧ other.zombie = false) :
    WellFormed (⟨pid, parent, false, role, argv⟩ :: processes) where
  pids := by
    rw [List.map_cons, List.nodup_cons]
    refine ⟨fun member => ?_, formed.pids⟩
    obtain ⟨other, among, same⟩ := List.mem_map.mp member
    exact fresh other among same
  init := by
    intro other member
    rcases List.mem_cons.mp member with rfl | among
    · exact notInit
    · exact formed.init other among
  rooted := ⟨under, formed.rooted⟩

theorem Rooted.exit (rooted : Rooted processes) (pids : (processes.map (·.pid)).Nodup) (pid : Nat) :
    Rooted (processes.map (exit pid)) := by
  induction processes with
  | nil => trivial
  | cons process rest ih =>
    obtain ⟨under, rooted⟩ := rooted
    rw [List.map_cons, List.nodup_cons] at pids
    refine ⟨?_, ih rooted pids.2⟩
    by_cases left : process.parent = pid ∧ process.pid ≠ pid
    · left
      unfold Supervisor.exit
      rw [if_neg left.2, if_pos left.1]
    · have same : (Supervisor.exit pid process).parent = process.parent := by
        unfold Supervisor.exit
        split
        · rfl
        next notSelf => rw [if_neg fun parent => left ⟨parent, notSelf⟩]
      rw [same]
      rcases under with own | ⟨above, member, parent, runs⟩
      · exact Or.inl own
      · have distinct : process.pid ≠ above.pid := fun twice => pids.1 (List.mem_map.mpr ⟨above, member, twice.symm⟩)
        have stays : above.pid ≠ pid := by
          intro ends
          exact left ⟨parent.symm.trans ends, fun self => distinct (self.trans ends.symm)⟩
        refine Or.inr ⟨Supervisor.exit pid above, List.mem_map_of_mem member, (exit_pid above).trans parent, ?_⟩
        unfold Supervisor.exit
        rw [if_neg stays]
        split <;> exact runs

/-- Only what has ended is waited for, and nothing has it for its parent any more. -/
theorem Rooted.without (rooted : Rooted processes)
    (ended : ∀ process ∈ processes, process.pid = pid → process.zombie = true) : Rooted (without pid processes) := by
  induction processes with
  | nil => trivial
  | cons process rest ih =>
    obtain ⟨under, rooted⟩ := rooted
    have later := ih rooted fun _ member => ended _ (List.mem_cons_of_mem _ member)
    unfold Supervisor.without at later ⊢
    rw [List.filter_cons]
    split
    next kept =>
      refine ⟨?_, later⟩
      rcases under with own | ⟨above, member, parent, runs⟩
      · exact Or.inl own
      · have stays : above.pid ≠ pid := by
          intro same
          rw [ended above (List.mem_cons_of_mem _ member) same] at runs
          cases runs
        exact Or.inr ⟨above, List.mem_filter.mpr ⟨member, decide_eq_true stays⟩, parent, runs⟩
    next => exact later

theorem WellFormed.exit (formed : WellFormed processes) (pid : Nat) : WellFormed (processes.map (exit pid)) where
  pids := by
    rw [List.map_map]
    have same : (fun process : Process => process.pid) ∘ Supervisor.exit pid = fun process => process.pid :=
      funext exit_pid
    rw [same]
    exact formed.pids
  init := by
    intro process member
    obtain ⟨own, among, rfl⟩ := List.mem_map.mp member
    rw [exit_pid]
    exact formed.init own among
  rooted := formed.rooted.exit formed.pids pid

theorem WellFormed.without (formed : WellFormed processes) (member : process ∈ processes) (ended : process.zombie = true) :
    WellFormed (without process.pid processes) where
  pids := List.Nodup.sublist (List.Sublist.map _ List.filter_sublist) formed.pids
  init := fun _ among => formed.init _ (mem_without.mp among).1
  rooted := formed.rooted.without fun _ among same => (formed.same among member same) ▸ ended

/-- Where pid 1 has no children there are no processes. -/
theorem Rooted.empty (rooted : Rooted processes) (childless : ∀ process ∈ processes, process.parent ≠ 1) :
    processes = [] := by
  induction processes with
  | nil => rfl
  | cons process rest ih =>
    obtain ⟨under, rooted⟩ := rooted
    have none_ := ih rooted fun _ member => childless _ (List.mem_cons_of_mem _ member)
    subst none_
    rcases under with own | ⟨above, member, _⟩
    · exact absurd own (childless process List.mem_cons_self)
    · cases member

end Processes

/-! What a step of `supervise` can do. -/

section Inversion
variable {setup : Setup} {s t : State} {pid : Nat}

theorem fresh_iff : s.fresh pid = true ↔ pid ≠ 1 ∧ ∀ process ∈ s.processes, process.pid ≠ pid := by
  unfold State.fresh
  rw [Bool.and_eq_true, decide_eq_true_eq, List.all_eq_true]
  simp only [decide_eq_true_eq]

theorem zombie_of_any (found : s.zombies.any (·.pid = pid) = true) :
    ∃ process ∈ s.processes, process.pid = pid ∧ process.parent = 1 ∧ process.zombie = true := by
  obtain ⟨process, member, same⟩ := List.any_eq_true.mp found
  obtain ⟨child, ended⟩ := List.mem_filter.mp member
  obtain ⟨among, own⟩ := List.mem_filter.mp child
  exact ⟨process, among, of_decide_eq_true same, of_decide_eq_true own, ended⟩

inductive Proceeds (setup : Setup) (s : State) : State → Prop
  | boots {pid : Nat} {argv : List Text} (here : s.pc = .booting) (notInit : pid ≠ 1)
    (fresh : ∀ process ∈ s.processes, process.pid ≠ pid) :
    Proceeds setup s { s.spawn pid .application argv with application := some pid, pc := .checking }
  | goes {pc : Pc} (here : s.pc = .booting ∧ pc = .checking ∨
      s.pc = .checking ∧ pc = (if s.stop then .terminating else .starting .terminals) ∨
      (∃ service, s.pc = .starting service ∧ pc = after service) ∨ s.pc = .reaping ∧ (∃ until_, pc = .sleeping until_) ∨
      (∃ until_, s.pc = .sleeping until_) ∧ pc = .checking) : Proceeds setup s (s.goto pc)
  | starts {service : Service} {pid : Nat} (here : s.pc = .starting service) (empty : s.slot service = none)
    (due : s.next service ≤ s.clock) (notInit : pid ≠ 1) (fresh : ∀ process ∈ s.processes, process.pid ≠ pid) :
    Proceeds setup s (s.start setup service pid)
  | reaps {process : Process} (here : s.pc = .reaping) (member : process ∈ s.processes) (own : process.parent = 1)
    (ended : process.zombie = true) : Proceeds setup s (s.reap process.pid)
  | terminates (here : s.pc = .terminating) :
    Proceeds setup s { s with terminated := some s.clock, pc := .draining (s.clock + GRACE) }
  | drains {deadline : Nat} {pc : Pc} (here : s.pc = .draining deadline)
    (onward : pc = .returned ∧ s.children = [] ∨ (∃ until_, pc = .pausing deadline until_) ∨
      pc = .killing ∧ deadline ≤ s.clock) : Proceeds setup s (s.goto pc)
  | collects {deadline until_ : Nat} {process : Process} (here : s.pc = .draining deadline) (member : process ∈ s.processes)
    (ended : process.zombie = true) :
    Proceeds setup s { s with processes := without process.pid s.processes, pc := .pausing deadline until_ }
  | resumes {deadline until_ : Nat} (here : s.pc = .pausing deadline until_) : Proceeds setup s (s.goto (.draining deadline))
  | kills (here : s.pc = .killing) : Proceeds setup s { s with killed := true, pc := .returned }

theorem proceed_cases (taken : proceed setup s pid = some t) : Proceeds setup s t := by
  unfold proceed at taken
  split at taken
  next here =>
    split at taken
    next =>
      cases taken
      exact .goes (Or.inl ⟨here, rfl⟩)
    next argv _ =>
      split at taken
      next fresh =>
        cases taken
        obtain ⟨notInit, unused⟩ := fresh_iff.mp fresh
        exact .boots here notInit unused
      next => cases taken
  next here =>
    cases taken
    exact .goes (Or.inr (Or.inl ⟨here, rfl⟩))
  next service here =>
    split at taken
    next due =>
      split at taken
      next fresh =>
        cases taken
        obtain ⟨notInit, unused⟩ := fresh_iff.mp fresh
        exact .starts here (Option.isNone_iff_eq_none.mp due.1) due.2 notInit unused
      next => cases taken
    next =>
      cases taken
      exact .goes (Or.inr (Or.inr (Or.inl ⟨service, here, rfl⟩)))
  next here =>
    split at taken
    next =>
      cases taken
      exact .goes (Or.inr (Or.inr (Or.inr (Or.inl ⟨here, _, rfl⟩))))
    next =>
      split at taken
      next found =>
        cases taken
        obtain ⟨process, member, rfl, own, ended⟩ := zombie_of_any found
        exact .reaps here member own ended
      next => cases taken
  next until_ here =>
    split at taken
    next =>
      cases taken
      exact .goes (Or.inr (Or.inr (Or.inr (Or.inr ⟨⟨until_, here⟩, rfl⟩))))
    next => cases taken
  next here =>
    cases taken
    exact .terminates here
  next deadline here =>
    split at taken
    next =>
      split at taken
      next childless =>
        cases taken
        exact .drains here (Or.inl ⟨rfl, childless⟩)
      next =>
        split at taken
        next =>
          cases taken
          exact .drains here (Or.inr (Or.inl ⟨_, rfl⟩))
        next =>
          split at taken
          next found =>
            cases taken
            obtain ⟨process, member, rfl, _, ended⟩ := zombie_of_any found
            exact .collects here member ended
          next => cases taken
    next late =>
      cases taken
      exact .drains here (Or.inr (Or.inr ⟨rfl, Nat.le_of_not_lt late⟩))
  next deadline until_ here =>
    split at taken
    next =>
      cases taken
      exact .resumes here
    next => cases taken
  next here =>
    cases taken
    exact .kills here
  next => cases taken
  next => cases taken

end Inversion

/-! Slots and processes. -/

def Pc.looping : Pc → Bool
  | .draining _ | .pausing _ _ | .killing | .returned => false
  | _ => true

/-- Where a slot is empty its last process has been waited for, and the next one is not due before the restart time. -/
def Dated (s : State) (service : Service) : Prop :=
  match s.slot service with
  | some _ => ∃ life rest, s.lives service = life :: rest ∧ life.ended = none ∧ life.started ≤ s.clock
  | none => ∀ life ∈ (s.lives service).head?, ∃ ended, life.ended = some ended ∧ life.started ≤ ended ∧
    ended + RESTART ≤ s.next service

structure Supervised (s : State) : Prop where
  formed : WellFormed s.processes
  own : ∀ process ∈ s.processes, process.role ≠ .other → process.parent = 1
  known : ∀ process ∈ s.processes, ∀ service, process.role = .service service → s.slot service = some process.pid
  tracked : s.pc.looping = true → ∀ service pid, s.slot service = some pid →
    ∃ process ∈ s.processes, process.pid = pid ∧ process.role = .service service
  application : ∀ process ∈ s.processes, process.role = .application → s.application = some process.pid
  present : s.pc.looping = true → ∀ pid, s.application = some pid → s.stop = false →
    ∃ process ∈ s.processes, process.pid = pid ∧ process.role = .application
  spaced : ∀ service, Spaced RESTART ((s.lives service).map (·.started))
  dated : ∀ service, Dated s service

section Supervision
variable {setup : Setup} {s t : State}

theorem supervised_init (initial : (system setup).init s) : Supervised s := by
  obtain ⟨_, slots, _, application, lives, _, _, formed, others⟩ := initial
  refine ⟨formed, ?_, ?_, ?_, ?_, ?_, ?_, ?_⟩
  · exact fun process member role => absurd (others process member) role
  · intro process member service role
    rw [others process member] at role
    cases role
  · intro _ service pid held
    rw [slots] at held
    cases held
  · intro process member role
    rw [others process member] at role
    cases role
  · intro _ pid held
    rw [application] at held
    cases held
  · intro service
    rw [lives]
    exact List.Pairwise.nil
  · intro service
    unfold Dated
    rw [slots, lives]
    rintro _ ⟨⟩

/-- A step that changes nothing but the place in the loop, the clock and the flag. -/
theorem Supervised.moves (supervised : Supervised s) {pc : Pc} {stop : Bool} {clock : Nat}
    (looping : pc.looping = true → s.pc.looping = true) (stops : stop = false → s.stop = false) (later : s.clock ≤ clock) :
    Supervised { s with pc, stop, clock } where
  formed := supervised.formed
  own := supervised.own
  known := supervised.known
  tracked := fun loops => supervised.tracked (looping loops)
  application := supervised.application
  present := fun loops pid held goes => supervised.present (looping loops) pid held (stops goes)
  spaced := supervised.spaced
  dated := by
    intro service
    have dated := supervised.dated service
    unfold Dated at dated ⊢
    split at dated
    next held =>
      obtain ⟨life, rest, shape, running, started⟩ := dated
      simp only [held]
      exact ⟨life, rest, shape, running, started.trans later⟩
    next empty =>
      simp only [empty]
      exact dated

theorem endLife_starts (time : Nat) (lives : List Life) :
    (endLife time lives).map (·.started) = lives.map (·.started) := by
  cases lives <;> rfl

theorem supervised_boot (supervised : Supervised s) {pid : Nat} {argv : List Text} (looping : s.pc.looping = true)
    (notInit : pid ≠ 1) (fresh : ∀ process ∈ s.processes, process.pid ≠ pid) (booting : s.application = none) :
    Supervised { s.spawn pid .application argv with application := some pid, pc := .checking } where
  formed := supervised.formed.cons notInit fresh _ (Or.inl rfl)
  own := by
    intro process member role
    rcases List.mem_cons.mp member with rfl | older
    · rfl
    · exact supervised.own process older role
  known := by
    intro process member service role
    rcases List.mem_cons.mp member with rfl | older
    · cases role
    · exact supervised.known process older service role
  tracked := by
    intro _ service own held
    obtain ⟨process, member, pids, role⟩ := supervised.tracked looping service own held
    exact ⟨process, List.mem_cons_of_mem _ member, pids, role⟩
  application := by
    intro process member role
    rcases List.mem_cons.mp member with rfl | older
    · rfl
    · have held := supervised.application process older role
      rw [booting] at held
      cases held
  present := by
    intro _ own held _
    cases held
    exact ⟨_, List.mem_cons_self, rfl, rfl⟩
  spaced := supervised.spaced
  dated := supervised.dated

theorem supervised_start (supervised : Supervised s) {service : Service} {pid : Nat} (looping : s.pc.looping = true)
    (empty : s.slot service = none) (due : s.next service ≤ s.clock) (notInit : pid ≠ 1)
    (fresh : ∀ process ∈ s.processes, process.pid ≠ pid) : Supervised (s.start setup service pid) where
  formed := supervised.formed.cons notInit fresh _ (Or.inl rfl)
  own := by
    intro process member role
    rcases List.mem_cons.mp member with rfl | older
    · rfl
    · exact supervised.own process older role
  known := by
    intro process member other role
    rcases List.mem_cons.mp member with rfl | older
    · cases role
      exact Function.update_self _ _ _
    · have held := supervised.known process older other role
      have elsewhere : other ≠ service := by
        rintro rfl
        rw [empty] at held
        cases held
      exact (Function.update_of_ne elsewhere _ _).trans held
  tracked := by
    intro _ other own held
    by_cases same : other = service
    · subst same
      have shape : Function.update s.slot other (some pid) other = some own := held
      rw [Function.update_self] at shape
      cases shape
      exact ⟨_, List.mem_cons_self, rfl, rfl⟩
    · have held : s.slot other = some own := (Function.update_of_ne same _ _).symm.trans held
      obtain ⟨process, member, pids, role⟩ := supervised.tracked looping other own held
      exact ⟨process, List.mem_cons_of_mem _ member, pids, role⟩
  application := by
    intro process member role
    rcases List.mem_cons.mp member with rfl | older
    · cases role
    · exact supervised.application process older role
  present := by
    intro _ own held goes
    obtain ⟨process, member, pids, role⟩ := supervised.present looping own held goes
    exact ⟨process, List.mem_cons_of_mem _ member, pids, role⟩
  spaced := by
    intro other
    show Spaced RESTART ((Function.update s.lives service _ other).map _)
    by_cases same : other = service
    · subst same
      rw [Function.update_self, List.map_cons]
      apply (supervised.spaced other).cons
      intro earlier first
      have dated := supervised.dated other
      unfold Dated at dated
      rw [empty] at dated
      obtain ⟨life, head, rfl⟩ := Option.map_eq_some_iff.mp (List.head?_map.symm.trans first)
      obtain ⟨ended, _, order, wait⟩ := dated life head
      show life.started + RESTART ≤ s.clock
      omega
    · rw [Function.update_of_ne same]
      exact supervised.spaced other
  dated := by
    intro other
    by_cases same : other = service
    · subst same
      unfold Dated
      simp only [State.start, Function.update_self]
      exact ⟨_, _, rfl, rfl, Nat.le_refl _⟩
    · have dated := supervised.dated other
      unfold Dated at dated ⊢
      simp only [State.start, State.spawn, Function.update_of_ne same]
      exact dated

/-- A slot whose pid is waited for is emptied, and its service is not due before the restart time. -/
theorem supervised_reap (supervised : Supervised s) {process : Process} (looping : s.pc.looping = true)
    (member : process ∈ s.processes) (ended : process.zombie = true) : Supervised (s.reap process.pid) where
  formed := supervised.formed.without member ended
  own := fun _ among role => supervised.own _ (mem_without.mp among).1 role
  known := by
    intro other among service role
    obtain ⟨among, differs⟩ := mem_without.mp among
    have held := supervised.known other among service role
    show (if s.slot service = some process.pid then none else s.slot service) = _
    rw [if_neg, held]
    rw [held]
    exact fun same => differs (Option.some.inj same)
  tracked := by
    intro _ service pid held
    have held : (if s.slot service = some process.pid then none else s.slot service) = some pid := held
    split at held
    next => cases held
    next kept =>
      obtain ⟨other, among, pids, role⟩ := supervised.tracked looping service pid held
      refine ⟨other, mem_without.mpr ⟨among, fun same => kept ?_⟩, pids, role⟩
      rw [held, ← same, pids]
  application := fun _ among role => supervised.application _ (mem_without.mp among).1 role
  present := by
    intro _ pid held goes
    obtain ⟨goes, notEnded⟩ := Bool.or_eq_false_iff.mp (show (s.stop || s.application = some process.pid) = false from goes)
    obtain ⟨other, among, pids, role⟩ := supervised.present looping pid held goes
    refine ⟨other, mem_without.mpr ⟨among, fun same => of_decide_eq_false notEnded ?_⟩, pids, role⟩
    rw [show s.application = some pid from held, ← same, pids]
  spaced := by
    intro service
    show Spaced RESTART ((if _ then _ else _ : List Life).map _)
    split
    · rw [endLife_starts]
      exact supervised.spaced service
    · exact supervised.spaced service
  dated := by
    intro service
    have dated := supervised.dated service
    unfold Dated at dated ⊢
    by_cases held : s.slot service = some process.pid
    · simp only [State.reap, if_pos held]
      rw [held] at dated
      obtain ⟨life, rest, shape, _, started⟩ := dated
      rw [shape]
      rintro _ ⟨⟩
      exact ⟨s.clock, rfl, started, Nat.le_refl _⟩
    · simp only [State.reap, if_neg held]
      exact dated

/-- A process that is none of `supervise`'s own goes, or any process once the loop is left. -/
theorem supervised_without (supervised : Supervised s) {process : Process} {pc : Pc} (member : process ∈ s.processes)
    (ended : process.zombie = true) (looping : pc.looping = true → s.pc.looping = true ∧ process.role = .other) :
    Supervised { s with processes := without process.pid s.processes, pc } where
  formed := supervised.formed.without member ended
  own := fun _ among role => supervised.own _ (mem_without.mp among).1 role
  known := fun _ among service role => supervised.known _ (mem_without.mp among).1 service role
  tracked := by
    intro loops service pid held
    obtain ⟨loops, plain⟩ := looping loops
    obtain ⟨other, among, pids, role⟩ := supervised.tracked loops service pid held
    refine ⟨other, mem_without.mpr ⟨among, fun same => ?_⟩, pids, role⟩
    rw [supervised.formed.same among member same, plain] at role
    cases role
  application := fun _ among role => supervised.application _ (mem_without.mp among).1 role
  present := by
    intro loops pid held goes
    obtain ⟨loops, plain⟩ := looping loops
    obtain ⟨other, among, pids, role⟩ := supervised.present loops pid held goes
    refine ⟨other, mem_without.mpr ⟨among, fun same => ?_⟩, pids, role⟩
    rw [supervised.formed.same among member same, plain] at role
    cases role
  spaced := supervised.spaced
  dated := supervised.dated

theorem supervised_fork (supervised : Supervised s) {parent : Process} {pid : Nat} {argv : List Text} (notInit : pid ≠ 1)
    (fresh : ∀ process ∈ s.processes, process.pid ≠ pid) (member : parent ∈ s.processes) (runs : parent.zombie = false) :
    Supervised { s with processes := ⟨pid, parent.pid, false, .other, argv⟩ :: s.processes } where
  formed := supervised.formed.cons notInit fresh _ (Or.inr ⟨parent, member, rfl, runs⟩)
  own := by
    intro process among role
    rcases List.mem_cons.mp among with rfl | older
    · exact absurd rfl role
    · exact supervised.own process older role
  known := by
    intro process among service role
    rcases List.mem_cons.mp among with rfl | older
    · cases role
    · exact supervised.known process older service role
  tracked := by
    intro loops service own held
    obtain ⟨process, among, pids, role⟩ := supervised.tracked loops service own held
    exact ⟨process, List.mem_cons_of_mem _ among, pids, role⟩
  application := by
    intro process among role
    rcases List.mem_cons.mp among with rfl | older
    · cases role
    · exact supervised.application process older role
  present := by
    intro loops own held goes
    obtain ⟨process, among, pids, role⟩ := supervised.present loops own held goes
    exact ⟨process, List.mem_cons_of_mem _ among, pids, role⟩
  spaced := supervised.spaced
  dated := supervised.dated

theorem supervised_exit (supervised : Supervised s) (pid : Nat) :
    Supervised { s with processes := s.processes.map (exit pid) } where
  formed := supervised.formed.exit pid
  own := by
    intro _ among role
    obtain ⟨process, member, rfl⟩ := List.mem_map.mp among
    rw [exit_role] at role
    exact exit_own (supervised.own process member role)
  known := by
    intro _ among service role
    obtain ⟨process, member, rfl⟩ := List.mem_map.mp among
    rw [exit_role] at role
    rw [exit_pid]
    exact supervised.known process member service role
  tracked := by
    intro loops service own held
    obtain ⟨process, member, pids, role⟩ := supervised.tracked loops service own held
    exact ⟨_, List.mem_map_of_mem member, (exit_pid process).trans pids, (exit_role process).trans role⟩
  application := by
    intro _ among role
    obtain ⟨process, member, rfl⟩ := List.mem_map.mp among
    rw [exit_role] at role
    rw [exit_pid]
    exact supervised.application process member role
  present := by
    intro loops own held goes
    obtain ⟨process, member, pids, role⟩ := supervised.present loops own held goes
    exact ⟨_, List.mem_map_of_mem member, (exit_pid process).trans pids, (exit_role process).trans role⟩
  spaced := supervised.spaced
  dated := supervised.dated

theorem supervised_proceed (supervised : Supervised s) (booting : s.pc = .booting → s.application = none)
    (turn : Proceeds setup s t) : Supervised t := by
  cases turn with
  | boots here notInit fresh =>
    exact supervised_boot supervised (by rw [here]; rfl) notInit fresh (booting here)
  | goes here =>
    have looping : s.pc.looping = true := by
      rcases here with ⟨here, _⟩ | ⟨here, _⟩ | ⟨service, here, _⟩ | ⟨here, _⟩ | ⟨⟨until_, here⟩, _⟩
      all_goals
        rw [here]
        rfl
    exact supervised.moves (fun _ => looping) id (Nat.le_refl _)
  | starts here empty due notInit fresh =>
    exact supervised_start supervised (by rw [here]; rfl) empty due notInit fresh
  | reaps here member own ended => exact supervised_reap supervised (by rw [here]; rfl) member ended
  | terminates here =>
    have moved : Supervised { s with pc := .draining (s.clock + GRACE) } :=
      supervised.moves (by rintro ⟨⟩) id (Nat.le_refl s.clock)
    exact ⟨moved.formed, moved.own, moved.known, moved.tracked, moved.application, moved.present, moved.spaced, moved.dated⟩
  | drains here onward =>
    apply supervised.moves _ id (Nat.le_refl _)
    rcases onward with ⟨rfl, _⟩ | ⟨until_, rfl⟩ | ⟨rfl, _⟩
    all_goals rintro ⟨⟩
  | collects here member ended => exact supervised_without supervised member ended (by rintro ⟨⟩)
  | resumes here => exact supervised.moves (by rintro ⟨⟩) id (Nat.le_refl _)
  | kills here =>
    have moved : Supervised { s with pc := .returned } := supervised.moves (by rintro ⟨⟩) id (Nat.le_refl s.clock)
    exact ⟨moved.formed, moved.own, moved.known, moved.tracked, moved.application, moved.present, moved.spaced, moved.dated⟩

theorem supervised_step {a : Action} (supervised : Supervised s) (booting : s.pc = .booting → s.application = none)
    (taken : step setup s a = some t) : Supervised t := by
  unfold step at taken
  split at taken
  next => cases taken
  next =>
    cases a with
    | proceeds pid => exact supervised_proceed supervised booting (proceed_cases taken)
    | fails =>
      dsimp only at taken
      split at taken
      next spawning =>
        cases taken
        have looping : s.pc.looping = true := by
          cases here : s.pc
          case booting => rfl
          case starting => rfl
          all_goals
            rw [here] at spawning
            cases spawning
        exact supervised.moves (fun _ => looping) id (Nat.le_refl _)
      next => cases taken
    | signals =>
      cases taken
      exact supervised.moves id (by rintro ⟨⟩) (Nat.le_refl _)
    | clock now =>
      dsimp only at taken
      split at taken
      next later =>
        cases taken
        exact supervised.moves id id later
      next => cases taken
    | forks parent pid argv =>
      dsimp only at taken
      split at taken
      next meets =>
        cases taken
        obtain ⟨notInit, unused⟩ := fresh_iff.mp meets.1
        obtain ⟨process, member, found⟩ := List.any_eq_true.mp meets.2
        rw [Bool.and_eq_true, decide_eq_true_eq, Bool.not_eq_true'] at found
        obtain ⟨rfl, runs⟩ := found
        exact supervised_fork supervised notInit unused member runs
      next => cases taken
    | exits pid =>
      cases taken
      exact supervised_exit supervised pid
    | collects pid =>
      dsimp only at taken
      split at taken
      next found =>
        cases taken
        obtain ⟨process, member, shape⟩ := List.any_eq_true.mp found
        simp only [Bool.and_eq_true, decide_eq_true_eq] at shape
        obtain ⟨⟨rfl, ended⟩, foreign⟩ := shape
        have plain : process.role = .other := by
          by_contra role
          exact foreign (supervised.own process member role)
        exact supervised_without supervised member ended fun loops => ⟨loops, plain⟩
      next => cases taken

end Supervision

/-! The end of the loop. -/

/-- The application was started and is waited for. -/
def Ended (s : State) : Prop :=
  s.application.isSome = true ∧ ∀ process ∈ s.processes, process.role ≠ .application

/-- Nothing is left, or what is left was killed after the time of grace. -/
def Clean (s : State) : Prop :=
  s.processes = [] ∨ s.killed = true ∧ ∃ time, s.terminated = some time ∧ time + GRACE ≤ s.clock

structure Winding (s : State) : Prop where
  booting : s.pc = .booting → s.application = none
  stops : s.pc = .terminating ∨ s.pc.looping = false → s.stop = true
  ended : Ended s → spawns s.pc = false
  deadline : ∀ deadline, s.pc = .draining deadline ∨ (∃ until_, s.pc = .pausing deadline until_) →
    ∃ time, s.terminated = some time ∧ deadline = time + GRACE
  late : s.pc = .killing → ∃ time, s.terminated = some time ∧ time + GRACE ≤ s.clock
  clean : s.pc = .returned → Clean s

section Ending
variable {setup : Setup} {s t : State}

/-- Inside the loop only the application's end matters. -/
theorem winding_loop (looping : s.pc.looping = true) (inside : s.pc ≠ .terminating)
    (booting : s.pc = .booting → s.application = none) (ended : Ended s → spawns s.pc = false) : Winding s where
  booting := booting
  stops := by
    intro here
    rcases here with here | here
    · exact absurd here inside
    · rw [looping] at here
      cases here
  ended := ended
  deadline := by
    intro deadline here
    rcases here with here | ⟨until_, here⟩
    all_goals
      rw [here] at looping
      cases looping
  late := by
    intro here
    rw [here] at looping
    cases looping
  clean := by
    intro here
    rw [here] at looping
    cases looping

theorem winding_init (initial : (system setup).init s) : Winding s := by
  obtain ⟨here, _, _, application, _⟩ := initial
  refine winding_loop (by rw [here]; rfl) (by rw [here]; simp) (fun _ => application) ?_
  rintro ⟨started, _⟩
  rw [application] at started
  cases started

/-- Where the application has ended the flag is set. -/
theorem Ended.stop (ended : Ended s) (supervised : Supervised s) (winding : Winding s) : s.stop = true := by
  by_contra goes
  rw [Bool.not_eq_true] at goes
  by_cases looping : s.pc.looping = true
  · obtain ⟨pid, held⟩ := Option.isSome_iff_exists.mp ended.1
    obtain ⟨process, member, _, role⟩ := supervised.present looping pid held goes
    exact ended.2 process member role
  · rw [winding.stops (Or.inr (Bool.not_eq_true _ ▸ looping))] at goes
    cases goes

theorem children_nil (formed : WellFormed s.processes) (childless : s.children = []) : s.processes = [] := by
  apply formed.rooted.empty
  intro process member own
  exact List.filter_eq_nil_iff.mp childless process member (decide_eq_true own)

theorem winding_proceed (supervised : Supervised s) (winding : Winding s) (turn : Proceeds setup s t) : Winding t := by
  cases turn with
  | @boots pid argv here notInit fresh =>
    exact winding_loop rfl (by simp) (by rintro ⟨⟩) (fun _ => rfl)
  | @goes pc here =>
    rcases here with ⟨here, rfl⟩ | ⟨here, rfl⟩ | ⟨service, here, rfl⟩ | ⟨here, until_, rfl⟩ | ⟨⟨until_, here⟩, rfl⟩
    · exact winding_loop rfl (by simp [State.goto]) (by rintro ⟨⟩) (fun _ => rfl)
    · by_cases stops : s.stop = true
      · rw [if_pos stops]
        exact ⟨by rintro ⟨⟩, fun _ => stops, fun _ => rfl, by simp [State.goto], by rintro ⟨⟩, by rintro ⟨⟩⟩
      · rw [if_neg stops]
        refine winding_loop rfl (by simp [State.goto]) (by rintro ⟨⟩) fun ended => ?_
        have same : Ended s := ended
        exact absurd (same.stop supervised winding) stops
    · have still (ended : Ended s) : False := by
        have quiet := winding.ended ended
        rw [here] at quiet
        cases quiet
      cases service
      all_goals exact winding_loop rfl (by simp [State.goto, after]) (by rintro ⟨⟩) fun ended => (still ended).elim
    · exact winding_loop rfl (by simp [State.goto]) (by rintro ⟨⟩) (fun _ => rfl)
    · exact winding_loop rfl (by simp [State.goto]) (by rintro ⟨⟩) (fun _ => rfl)
  | @starts service pid here empty due notInit fresh =>
    have still (ended : Ended (s.start setup service pid)) : False := by
      have before : Ended s := ⟨ended.1, fun process member => ended.2 process (List.mem_cons_of_mem _ member)⟩
      have quiet := winding.ended before
      rw [here] at quiet
      cases quiet
    cases service
    all_goals exact winding_loop rfl (by simp [State.start, after]) (by rintro ⟨⟩) fun ended => (still ended).elim
  | @reaps process here member own ended =>
    have place : (s.reap process.pid).pc = .reaping := here
    refine winding_loop (by rw [place]; rfl) (by rw [place]; simp) ?_ (fun _ => by rw [place]; rfl)
    rw [place]
    rintro ⟨⟩
  | terminates here =>
    refine ⟨by rintro ⟨⟩, fun _ => winding.stops (Or.inl here), fun _ => rfl, ?_, by rintro ⟨⟩, by rintro ⟨⟩⟩
    intro deadline place
    rcases place with place | ⟨until_, place⟩
    · cases place
      exact ⟨s.clock, rfl, rfl⟩
    · cases place
  | @drains deadline pc here onward =>
    have stops : s.stop = true := winding.stops (Or.inr (by rw [here]; rfl))
    obtain ⟨time, terminated, same⟩ := winding.deadline deadline (Or.inl here)
    rcases onward with ⟨rfl, childless⟩ | ⟨until_, rfl⟩ | ⟨rfl, late⟩
    · refine ⟨by rintro ⟨⟩, fun _ => stops, fun _ => rfl, by simp [State.goto], by rintro ⟨⟩, fun _ => ?_⟩
      exact Or.inl (children_nil supervised.formed childless)
    · refine ⟨by rintro ⟨⟩, fun _ => stops, fun _ => rfl, ?_, by rintro ⟨⟩, by rintro ⟨⟩⟩
      intro other place
      rcases place with place | ⟨until_, place⟩
      · cases place
      · cases place
        exact ⟨time, terminated, same⟩
    · refine ⟨by rintro ⟨⟩, fun _ => stops, fun _ => rfl, by simp [State.goto], fun _ => ?_, by rintro ⟨⟩⟩
      exact ⟨time, terminated, same ▸ late⟩
  | @collects deadline until_ process here member ended =>
    refine ⟨by rintro ⟨⟩, fun _ => winding.stops (Or.inr (by rw [here]; rfl)), fun _ => rfl, ?_, by rintro ⟨⟩,
      by rintro ⟨⟩⟩
    intro other place
    rcases place with place | ⟨until_, place⟩
    · cases place
    · cases place
      exact winding.deadline deadline (Or.inl here)
  | @resumes deadline until_ here =>
    refine ⟨by rintro ⟨⟩, fun _ => winding.stops (Or.inr (by rw [here]; rfl)), fun _ => rfl, ?_, by rintro ⟨⟩,
      by rintro ⟨⟩⟩
    intro other place
    rcases place with place | ⟨until_, place⟩
    · cases place
      exact winding.deadline deadline (Or.inr ⟨_, here⟩)
    · cases place
  | kills here =>
    refine ⟨by rintro ⟨⟩, fun _ => winding.stops (Or.inr (by rw [here]; rfl)), fun _ => rfl, by simp, by rintro ⟨⟩,
      fun _ => Or.inr ⟨rfl, winding.late here⟩⟩

/-- Steps of others leave the loop where it is. -/
theorem Winding.keeps (winding : Winding s) {processes : List Process} {stop : Bool} {clock : Nat} (runs : s.pc ≠ .returned)
    (stops : s.stop = true → stop = true) (later : s.clock ≤ clock)
    (ended : (∀ process ∈ processes, process.role ≠ .application) → ∀ process ∈ s.processes, process.role ≠ .application) :
    Winding { s with processes, stop, clock } where
  booting := winding.booting
  stops := fun here => stops (winding.stops here)
  ended := fun waited => winding.ended ⟨waited.1, ended waited.2⟩
  deadline := winding.deadline
  late := by
    intro here
    obtain ⟨time, terminated, passed⟩ := winding.late here
    exact ⟨time, terminated, passed.trans later⟩
  clean := fun here => absurd here runs

theorem winding_step {a : Action} (supervised : Supervised s) (winding : Winding s) (taken : step setup s a = some t) :
    Winding t := by
  unfold step at taken
  split at taken
  next => cases taken
  next going =>
    have runs : s.pc ≠ .returned := fun here => going (Or.inl here)
    cases a with
    | proceeds pid => exact winding_proceed supervised winding (proceed_cases taken)
    | fails =>
      dsimp only at taken
      split at taken
      next =>
        cases taken
        exact winding_loop rfl (by simp [State.goto]) (by rintro ⟨⟩) (fun _ => rfl)
      next => cases taken
    | signals =>
      cases taken
      exact winding.keeps runs (fun _ => rfl) (Nat.le_refl _) id
    | clock now =>
      dsimp only at taken
      split at taken
      next later =>
        cases taken
        exact winding.keeps runs id later id
      next => cases taken
    | forks parent pid argv =>
      dsimp only at taken
      split at taken
      next =>
        cases taken
        exact winding.keeps runs id (Nat.le_refl _) fun none_ process member => none_ process (List.mem_cons_of_mem _ member)
      next => cases taken
    | exits pid =>
      cases taken
      refine winding.keeps runs id (Nat.le_refl _) fun none_ process member role => ?_
      exact none_ _ (List.mem_map_of_mem member) ((exit_role process).trans role)
    | collects pid =>
      dsimp only at taken
      split at taken
      next found =>
        cases taken
        obtain ⟨gone, among, shape⟩ := List.any_eq_true.mp found
        simp only [Bool.and_eq_true, decide_eq_true_eq] at shape
        obtain ⟨⟨rfl, _⟩, foreign⟩ := shape
        refine winding.keeps runs id (Nat.le_refl _) fun none_ process member role => ?_
        by_cases same : process.pid = gone.pid
        · have own : process.parent = 1 := supervised.own process member (by rw [role]; simp)
          rw [supervised.formed.same member among same] at own
          exact foreign own
        · exact none_ process (mem_without.mpr ⟨member, same⟩) role
      next => cases taken

theorem both_of_reachable (reached : (system setup).Reachable s) : Supervised s ∧ Winding s := by
  apply reached.invariant
  · exact fun s initial => ⟨supervised_init initial, winding_init initial⟩
  · exact fun s a t holds taken =>
      ⟨supervised_step holds.1 holds.2.booting taken, winding_step holds.1 holds.2 taken⟩

end Ending

/-! What a maintainer relies on. -/

/-- Each service and the application are one process at most, and the pids `supervise` keeps while it loops are theirs:
children of it that have not been waited for, so that no other process can have the pid. -/
structure Supervises (s : State) : Prop where
  single : ∀ process ∈ s.processes, ∀ other ∈ s.processes, process.role ≠ .other → process.role = other.role →
    process = other
  slots : s.pc.looping = true → ∀ service pid, s.slot service = some pid →
    ∃ process ∈ s.processes, process.pid = pid ∧ process.parent = 1 ∧ process.role = .service service
  application : s.pc.looping = true → s.stop = false → ∀ pid, s.application = some pid →
    ∃ process ∈ s.processes, process.pid = pid ∧ process.parent = 1 ∧ process.role = .application

section Results
variable {setup : Setup} {s t : State}

theorem services_supervised (reached : (system setup).Reachable s) : Supervises s := by
  obtain ⟨supervised, _⟩ := both_of_reachable reached
  refine ⟨?_, ?_, ?_⟩
  · intro process member other among own same
    apply supervised.formed.same member among
    cases role : process.role with
    | other => exact absurd role own
    | service service =>
      have first := supervised.known process member service role
      rw [supervised.known other among service (same.symm.trans role)] at first
      exact (Option.some.inj first).symm
    | application =>
      have first := supervised.application process member role
      rw [supervised.application other among (same.symm.trans role)] at first
      exact (Option.some.inj first).symm
  · intro looping service pid held
    obtain ⟨process, member, pids, role⟩ := supervised.tracked looping service pid held
    exact ⟨process, member, pids, supervised.own process member (by rw [role]; simp), role⟩
  · intro looping goes pid held
    obtain ⟨process, member, pids, role⟩ := supervised.present looping pid held goes
    exact ⟨process, member, pids, supervised.own process member (by rw [role]; simp), role⟩

/-- However often its processes end, a service is started at most once in two seconds and once more. -/
theorem restarts_bounded (reached : (system setup).Reachable s) (service : Service) (low high : Nat) :
    (((s.lives service).map (·.started)).filter fun time => low ≤ time && time ≤ high).length ≤
      (high - low) / RESTART + 1 :=
  ((both_of_reachable reached).1.spaced service).count (by decide) low high

theorem starts_kept {a : Action} (winding : Winding s) (ended : Ended s)
    (taken : step setup s a = some t) (service : Service) :
    Ended t ∧ (t.lives service).map (·.started) = (s.lives service).map (·.started) := by
  have quiet := winding.ended ended
  unfold step at taken
  split at taken
  next => cases taken
  next =>
    cases a with
    | proceeds pid =>
      cases proceed_cases taken with
      | boots here =>
        rw [here] at quiet
        cases quiet
      | goes => exact ⟨ended, rfl⟩
      | starts here =>
        rw [here] at quiet
        cases quiet
      | reaps here member own waited =>
        refine ⟨⟨ended.1, fun process among => ended.2 process (mem_without.mp among).1⟩, ?_⟩
        show (if _ then _ else _ : List Life).map _ = _
        split
        · exact endLife_starts _ _
        · rfl
      | terminates => exact ⟨ended, rfl⟩
      | drains => exact ⟨ended, rfl⟩
      | collects => exact ⟨⟨ended.1, fun process among => ended.2 process (mem_without.mp among).1⟩, rfl⟩
      | resumes => exact ⟨ended, rfl⟩
      | kills => exact ⟨ended, rfl⟩
    | fails =>
      dsimp only at taken
      rw [if_neg (by rw [quiet]; exact Bool.false_ne_true)] at taken
      cases taken
    | signals =>
      cases taken
      exact ⟨ended, rfl⟩
    | clock now =>
      dsimp only at taken
      split at taken
      next =>
        cases taken
        exact ⟨ended, rfl⟩
      next => cases taken
    | forks parent pid argv =>
      dsimp only at taken
      split at taken
      next =>
        cases taken
        refine ⟨⟨ended.1, fun process among => ?_⟩, rfl⟩
        rcases List.mem_cons.mp among with rfl | older
        · simp
        · exact ended.2 process older
      next => cases taken
    | exits pid =>
      cases taken
      refine ⟨⟨ended.1, fun _ among => ?_⟩, rfl⟩
      obtain ⟨process, member, rfl⟩ := List.mem_map.mp among
      rw [exit_role]
      exact ended.2 process member
    | collects pid =>
      dsimp only at taken
      split at taken
      next =>
        cases taken
        exact ⟨⟨ended.1, fun process among => ended.2 process (mem_without.mp among).1⟩, rfl⟩
      next => cases taken

/-- Once the application has been waited for no service is started any more, in whatever follows. -/
theorem ended_application_starts_nothing (reached : (system setup).Reachable s) (ended : Ended s) {actions : List Action}
    (runs : (system setup).run s actions = some t) (service : Service) :
    (t.lives service).map (·.started) = (s.lives service).map (·.started) := by
  induction actions generalizing s with
  | nil =>
    simp only [System.run, Option.some.injEq] at runs
    rw [runs]
  | cons a rest ih =>
    obtain ⟨mid, taken, later⟩ := Option.bind_eq_some_iff.mp runs
    obtain ⟨still, same⟩ := starts_kept (both_of_reachable reached).2 ended taken service
    rw [ih (reached.next taken) still later, same]

end Results

/-! A workspace whose agent fails once, until its application ends. -/

section Sample

def sampleSetup : Setup := ⟨"agent".toList, [], some ["app".toList]⟩

def booted : State := ⟨.booting, false, 0, fun _ => none, fun _ => 0, none, [], fun _ => [], none, false⟩

/-- The agent's pid is used again for its successor. -/
def restarting : List Action :=
  [.proceeds 2, .proceeds 0, .proceeds 3, .proceeds 4, .proceeds 5, .exits 4, .proceeds 4, .proceeds 0,
    .clock (2 * SECOND), .proceeds 0, .proceeds 0, .proceeds 0, .proceeds 4, .proceeds 0]

def stopping : List Action := [.exits 2, .proceeds 2]

def leaving : List Action :=
  [.proceeds 0, .clock (3 * SECOND), .proceeds 0, .proceeds 0, .proceeds 0, .exits 3, .proceeds 3, .clock (4 * SECOND),
    .proceeds 0, .exits 4, .proceeds 4, .clock (5 * SECOND), .proceeds 0, .exits 5, .proceeds 5, .clock (6 * SECOND),
    .proceeds 0, .proceeds 0]

theorem booted_reachable : (system sampleSetup).Reachable booted := by
  refine .start ⟨rfl, rfl, rfl, rfl, rfl, rfl, rfl, ⟨List.nodup_nil, ?_, trivial⟩, ?_⟩
  all_goals rintro _ ⟨⟩

theorem restarted_supervised : ∃ s : State, s.slot .agent = some 4 ∧ s.pc = .reaping ∧ Supervises s := by
  have shape : ((system sampleSetup).run booted restarting).map (fun s : State => (s.slot .agent, s.pc)) =
      some (some 4, .reaping) := by decide +kernel
  obtain ⟨s, ends, same⟩ := Option.map_eq_some_iff.mp shape
  obtain ⟨held, here⟩ := Prod.mk.inj same
  exact ⟨s, held, here, services_supervised (System.reachable_of_run booted_reachable ends)⟩

theorem agent_restarted_once : ∃ s : State, (s.lives .agent).map (·.started) = [2 * SECOND, 0] ∧
    (((s.lives .agent).map (·.started)).filter fun time => 0 ≤ time && time ≤ 3 * SECOND).length ≤
      (3 * SECOND - 0) / RESTART + 1 := by
  have shape : ((system sampleSetup).run booted restarting).map (fun s : State => (s.lives .agent).map (·.started)) =
      some [2 * SECOND, 0] := by decide +kernel
  obtain ⟨s, ends, starts⟩ := Option.map_eq_some_iff.mp shape
  exact ⟨s, starts, restarts_bounded (System.reachable_of_run booted_reachable ends) .agent 0 (3 * SECOND)⟩

theorem stopped_starts_nothing : ∃ s t : State, Ended s ∧ s.pc = .reaping ∧ t.pc = .returned ∧
    (t.lives .agent).map (·.started) = (s.lives .agent).map (·.started) := by
  have shape : ((system sampleSetup).run booted (restarting ++ stopping)).map (fun s : State =>
      (s.application.isSome && s.processes.all fun process => process.role ≠ .application, s.pc,
        ((system sampleSetup).run s leaving).map (·.pc))) = some (true, .reaping, some .returned) := by decide +kernel
  obtain ⟨s, ends, same⟩ := Option.map_eq_some_iff.mp shape
  obtain ⟨waited, here, last⟩ := (Prod.mk.inj same).imp_right Prod.mk.inj
  obtain ⟨t, runs, returned⟩ := Option.map_eq_some_iff.mp last
  have ended : Ended s := by
    obtain ⟨started, none_⟩ := Bool.and_eq_true_iff.mp waited
    exact ⟨started, fun process member => of_decide_eq_true (List.all_eq_true.mp none_ process member)⟩
  exact ⟨s, t, ended, here, returned,
    ended_application_starts_nothing (System.reachable_of_run booted_reachable ends) ended runs .agent⟩

end Sample

end Pbox.Agent.Supervisor
