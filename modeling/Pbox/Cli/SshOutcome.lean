import Pbox.Cli.SshSession

/-! A session whose agent has sent its output and an exit event returns that exit with everything written,
as long as nothing is sent into the input channel after its receiver has gone. -/

namespace Pbox.Cli.SshOutcome
open Pbox.Lib.Transition Pbox.Cli.SshSession

/-- A piece of output, of the error stream or not. -/
abbrev Chunk := Bool × Bytes

def event (chunk : Chunk) : Event := if chunk.1 then .stderr chunk.2 else .stdout chunk.2

section Specification
variable (settings : Settings)

/-- What the pieces of output are written as, and what is kept after them. -/
def rendered (display : Display) : List Chunk → List Write × Display
  | [] => ([], display)
  | chunk :: later =>
    match display.observe settings (event chunk) with
    | some (write, next) => (write :: (rendered next later).1, (rendered next later).2)
    | none => ([], display)

/-- Everything that a session with this output writes. -/
def expected (display : Display) (outputs : List Chunk) : List Write :=
  (rendered settings display outputs).1 ++ [(false, (rendered settings display outputs).2.titles.finish)]

/-- The filter and the flag with which a session starts. -/
def opening (initialScreen : Bool) (name : Option Bytes) : Display := ⟨initialScreen, .new name⟩

/-- The bytes of the output, the first screen of a session that existed before as it is replayed. -/
def shown : Bool → List Chunk → Bytes
  | _, [] => []
  | initialScreen, (stderr, data) :: later =>
    (if initialScreen && !stderr then settings.screen data else data) ++ shown (initialScreen && stderr) later

/-- The session has been opened, and the agent is going to send this output, an exit event and nothing
more. What has been typed until then is arbitrary. -/
structure Initial (display : Display) (outputs : List Chunk) (exit : ExecResult) (s : State) : Prop where
  script : s.script = outputs.map event ++ [.exit exit.code exit.signal]
  stream : s.stream = [] ∧ s.ended = false
  exited : exit.exited = true
  input : s.sending = [] ∧ s.channel = [] ∧ s.adapter = .idle ∧ s.requestsOpen = true
  display : s.display = display
  output : s.output = .reading ∧ s.written = [] ∧ s.returned = none

def system (display : Display) (outputs : List Chunk) (exit : ExecResult) : System State Action :=
  ⟨Initial display outputs exit, step settings⟩

/-- Nothing is sent into the channel without a receiver, and the output stream ends in time. -/
def Attended (s : State) : Action → Prop
  | .forwards => s.adapter ≠ .gone
  | .expires => False
  | _ => True

/-- A step of the agent's output stream or of the loop that reads it. -/
def Action.ofOutput : Action → Bool
  | .emits | .ends | .reads | .writes => true
  | _ => false

/-- The session is over as it should be. -/
structure Finished (display : Display) (outputs : List Chunk) (exit : ExecResult) (s : State) : Prop where
  returned : s.returned = some (.ok exit)
  written : s.written = expected settings display outputs
  complete : (shown settings display.initialScreen outputs).Sublist (s.written.flatMap (·.2))

/-- How far the session has come with its output. -/
def Position (display : Display) (outputs : List Chunk) (exit : ExecResult) (s : State) : Prop :=
  match s.returned with
  | some result => result = .ok exit ∧ s.written = expected settings display outputs
  | none =>
    (s.ended = true → s.script = []) ∧
    match s.output with
    | .reading => ∃ done rest, outputs = done ++ rest ∧
        s.stream ++ s.script = rest.map event ++ [.exit exit.code exit.signal] ∧
        rendered settings display done = (s.written, s.display)
    | .writing write => ∃ done rest, outputs = done ++ rest ∧
        s.stream ++ s.script = rest.map event ++ [.exit exit.code exit.signal] ∧
        rendered settings display done = (s.written ++ [write], s.display)
    | .finishing result => result = exit ∧ s.stream ++ s.script = [] ∧
        rendered settings display outputs = (s.written, s.display)
    | .closing result => result = exit ∧ s.stream ++ s.script = [] ∧ s.written = expected settings display outputs

end Specification

section Rendering
variable {settings : Settings}

/-- A piece of output is always written. -/
theorem observe_event (display : Display) (chunk : Chunk) :
    ∃ write next, display.observe settings (event chunk) = some (write, next) := by
  unfold event
  split <;> exact ⟨_, _, rfl⟩

theorem rendered_snoc (display : Display) (done : List Chunk) (chunk : Chunk) {write : Write} {next : Display}
    (shown : (rendered settings display done).2.observe settings (event chunk) = some (write, next)) :
    rendered settings display (done ++ [chunk]) = ((rendered settings display done).1 ++ [write], next) := by
  induction done generalizing display with
  | nil =>
    have first : display.observe settings (event chunk) = some (write, next) := shown
    simp [rendered, first]
  | cons earlier later ih =>
    obtain ⟨out, after, observed⟩ := @observe_event settings display earlier
    simp only [rendered, observed, List.cons_append] at shown ⊢
    rw [ih after shown]

theorem observe_chunk (display : Display) (stderr : Bool) (data : Bytes) :
    display.observe settings (event (stderr, data)) =
      let whole := if display.initialScreen && !stderr then settings.screen data else data
      some ((stderr, (display.titles.push whole).1),
        ⟨display.initialScreen && stderr, (display.titles.push whole).2⟩) := by
  obtain ⟨initialScreen, titles⟩ := display
  cases stderr <;> cases initialScreen <;> rfl

/-- Every byte of the output is written, in order; titles only get the name put in. -/
theorem rendered_lossless {display : Display} (steady : display.titles.Steady) (outputs : List Chunk) :
    (display.titles.pending ++ shown settings display.initialScreen outputs).Sublist
      ((rendered settings display outputs).1.flatMap (·.2) ++
        (rendered settings display outputs).2.titles.pending) := by
  induction outputs generalizing display with
  | nil => simp [shown, rendered]
  | cons chunk later ih =>
    obtain ⟨stderr, data⟩ := chunk
    simp only [shown, rendered, observe_chunk, List.flatMap_cons]
    obtain ⟨lossless, steady'⟩ :=
      push_lossless steady (if display.initialScreen && !stderr then settings.screen data else data)
    rw [← List.append_assoc]
    refine (lossless.append_right _).trans ?_
    rw [List.append_assoc, List.append_assoc]
    exact (@ih ⟨_, _⟩ steady').append_left _

theorem expected_lossless (initialScreen : Bool) (name : Option Bytes) (outputs : List Chunk) :
    (shown settings initialScreen outputs).Sublist
      ((expected settings (opening initialScreen name) outputs).flatMap (·.2)) := by
  have steady : (opening initialScreen name).titles.Steady := ⟨fun _ => rfl, fun _ => rfl⟩
  have lossless := @rendered_lossless settings _ steady outputs
  unfold expected
  simpa [List.flatMap_append, opening, TitlePrefix.new, TitlePrefix.finish] using lossless

end Rendering

section Proofs
variable {settings : Settings} {display : Display} {outputs : List Chunk} {exit : ExecResult} {s t : State}

theorem initial_position (initial : Initial display outputs exit s) : Position settings display outputs exit s := by
  obtain ⟨script, ⟨stream, ended⟩, _, _, shown, ⟨output, written, returned⟩⟩ := initial
  unfold Position
  rw [returned, output]
  refine ⟨fun past => ?_, [], outputs, rfl, ?_, ?_⟩
  · rw [ended] at past
    cases past
  · rw [stream, script]
    rfl
  · rw [written, shown]
    rfl

/-- A step that leaves the output side alone. -/
theorem Position.kept (position : Position settings display outputs exit s)
    (stream : t.stream = s.stream) (script : t.script = s.script) (ended : t.ended = s.ended)
    (output : t.output = s.output) (written : t.written = s.written) (shown : t.display = s.display)
    (returned : t.returned = s.returned) : Position settings display outputs exit t := by
  unfold Position at position ⊢
  rw [stream, script, ended, output, written, shown, returned]
  exact position

theorem emit_position (position : Position settings display outputs exit s) (running : s.returned = none)
    (taken : emit s = some t) : Position settings display outputs exit t := by
  unfold emit at taken
  split at taken
  next first later script =>
    cases taken
    unfold Position at position ⊢
    simp only [running, script] at position ⊢
    have same : s.stream ++ [first] ++ later = s.stream ++ first :: later := by simp
    rw [same]
    refine ⟨fun past => ?_, position.2⟩
    have done := position.1 past
    cases done
  next => cases taken

/-- The next message continues the output, or it is the exit event. -/
theorem read_position (exited : exit.exited = true) (position : Position settings display outputs exit s)
    (running : s.returned = none) (taken : readMessage settings s = some t) :
    Position settings display outputs exit t := by
  unfold Position at position
  simp only [running] at position
  obtain ⟨order, position⟩ := position
  unfold readMessage at taken
  split at taken
  next first later phase stream =>
    simp only [phase, stream, List.cons_append] at position
    obtain ⟨done, rest, split, coming, shown⟩ := position
    cases rest with
    | nil =>
      obtain ⟨rfl, past⟩ := List.cons_eq_cons.mp coming
      cases taken
      unfold Position
      simp only [running]
      rw [List.append_nil] at split
      refine ⟨order, ?_, past, split ▸ shown⟩
      rw [← exited]
    | cons chunk more =>
      obtain ⟨rfl, past⟩ := List.cons_eq_cons.mp coming
      obtain ⟨write, next, observed⟩ := @observe_event settings s.display chunk
      simp only [observed, Option.some.injEq] at taken
      subst taken
      unfold Position
      simp only [running]
      refine ⟨order, done ++ [chunk], more, by simpa using split, past, ?_⟩
      have next_shown := rendered_snoc display done chunk (by rw [shown]; exact observed)
      rw [next_shown, shown]
  next phase stream =>
    simp only [phase, stream, List.nil_append] at position
    obtain ⟨done, rest, split, coming, shown⟩ := position
    split at taken
    next past =>
      rw [order past] at coming
      simp at coming
    next => cases taken
  next result first later phase stream =>
    simp only [phase, stream, List.cons_append] at position
    cases position.2.1
  next result phase stream =>
    simp only [phase] at position
    split at taken
    next past =>
      cases taken
      unfold Position
      exact ⟨congrArg Except.ok position.1, position.2.2⟩
    next => cases taken
  next => cases taken

/-- A write of output, or the last one with what the filter of titles still holds. -/
theorem write_position (exited : exit.exited = true) (position : Position settings display outputs exit s)
    (running : s.returned = none) (taken : writeOutput settings s = some t) :
    Position settings display outputs exit t := by
  unfold Position at position
  simp only [running] at position
  obtain ⟨order, position⟩ := position
  unfold writeOutput at taken
  split at taken
  next out phase =>
    simp only [phase] at position
    cases taken
    unfold Position
    simp only [running]
    exact ⟨order, position⟩
  next result phase =>
    simp only [phase] at position
    obtain ⟨rfl, past, shown⟩ := position
    have all : s.written ++ [(false, s.display.titles.finish)] = expected settings display outputs := by
      unfold expected
      rw [shown]
    simp only [exited, Bool.true_eq_false, if_false, Option.some.injEq] at taken
    split at taken
    all_goals
      subst taken
      unfold Position
    · exact ⟨rfl, all⟩
    · simp only [running]
      exact ⟨order, trivial, past, all⟩
  next => cases taken

theorem step_position {a : Action} (exited : exit.exited = true) (position : Position settings display outputs exit s)
    (attended : Attended s a) (taken : step settings s a = some t) : Position settings display outputs exit t := by
  unfold step at taken
  split at taken
  next => cases taken
  next running =>
    have running : s.returned = none := by simpa using running
    cases a with
    | types input =>
      cases taken
      exact position.kept rfl rfl rfl rfl rfl rfl rfl
    | resizes window =>
      cases taken
      exact position.kept rfl rfl rfl rfl rfl rfl rfl
    | emits => exact emit_position position running taken
    | ends =>
      simp only [Option.ite_none_right_eq_some, Option.some.injEq] at taken
      obtain ⟨⟨sent, _⟩, rfl⟩ := taken
      unfold Position at position ⊢
      simp only [running] at position ⊢
      exact ⟨fun _ => sent, position.2⟩
    | consumes =>
      simp only [Option.ite_none_right_eq_some, Option.some.injEq] at taken
      obtain ⟨_, rfl⟩ := taken
      exact position.kept rfl rfl rfl rfl rfl rfl rfl
    | closesInput =>
      cases taken
      exact position.kept rfl rfl rfl rfl rfl rfl rfl
    | takesInput =>
      simp only [takeInput] at taken
      split at taken
      · split at taken
        · simp only [Option.some.injEq] at taken
          subst taken
          split <;> exact position.kept rfl rfl rfl rfl rfl rfl rfl
        · cases taken
      · cases taken
    | takesEnd =>
      simp only [Option.ite_none_right_eq_some, Option.some.injEq] at taken
      obtain ⟨_, rfl⟩ := taken
      exact position.kept rfl rfl rfl rfl rfl rfl rfl
    | takesResize =>
      simp only [takeResize, Option.ite_none_right_eq_some, Option.some.injEq] at taken
      obtain ⟨_, rfl⟩ := taken
      exact position.kept rfl rfl rfl rfl rfl rfl rfl
    | forwards =>
      simp only [forward] at taken
      split at taken
      next => cases taken
      next =>
        rw [if_neg attended] at taken
        split at taken
        · cases taken
          exact position.kept rfl rfl rfl rfl rfl rfl rfl
        · cases taken
    | adapts =>
      simp only [adapt] at taken
      split at taken
      · cases taken
        exact position.kept rfl rfl rfl rfl rfl rfl rfl
      · cases taken
    | keepsAlive =>
      simp only [Option.ite_none_right_eq_some, Option.some.injEq] at taken
      obtain ⟨_, rfl⟩ := taken
      exact position.kept rfl rfl rfl rfl rfl rfl rfl
    | requests =>
      simp only [request] at taken
      split at taken
      · split at taken
        · split at taken
          · cases taken
            exact position.kept rfl rfl rfl rfl rfl rfl rfl
          · cases taken
        · cases taken
          exact position.kept rfl rfl rfl rfl rfl rfl rfl
      · cases taken
    | reads => exact read_position exited position running taken
    | writes => exact write_position exited position running taken
    | expires => exact attended.elim

/-- The steps of the output side that are left. -/
def remaining (s : State) : Nat :=
  4 * s.script.length + 3 * s.stream.length + (if s.ended then 0 else 1) +
    match s.output with
    | .reading => 1
    | .writing _ => 2
    | .finishing _ => 3
    | .closing _ => 1

/-- Until the session returns the output side can take a step that brings it closer to its end. -/
theorem output_step (exited : exit.exited = true) (position : Position settings display outputs exit s)
    (running : s.returned = none) :
    ∃ a t, Action.ofOutput a = true ∧ step settings s a = some t ∧ (t.returned = none → remaining t < remaining s) := by
  have enabled (a : Action) (t : State) (ofOutput : Action.ofOutput a = true)
      (taken : step settings s a = some t) (closer : t.returned = none → remaining t < remaining s) :
      ∃ a t, Action.ofOutput a = true ∧ step settings s a = some t ∧ (t.returned = none → remaining t < remaining s) :=
    ⟨a, t, ofOutput, taken, closer⟩
  have open_ : s.returned.isSome = false := by rw [running]; rfl
  unfold Position at position
  simp only [running] at position
  obtain ⟨order, position⟩ := position
  cases phase : s.output with
  | reading =>
    simp only [phase] at position
    obtain ⟨done, rest, _, coming, _⟩ := position
    cases stream : s.stream with
    | nil =>
      cases script : s.script with
      | nil => simp [stream, script] at coming
      | cons first later =>
        refine enabled .emits { s with script := later, stream := s.stream ++ [first] } rfl ?_ fun _ => ?_
        · simp [step, emit, running, script]
        · simp only [remaining, script, stream, phase, List.length_cons, List.nil_append, List.length_nil]
          omega
    | cons first later =>
      rw [stream, List.cons_append] at coming
      cases rest with
      | nil =>
        obtain ⟨rfl, _⟩ := List.cons_eq_cons.mp coming
        refine enabled .reads { s with stream := later, output := .finishing ⟨exit.code, exit.signal, true⟩ } rfl ?_
          fun _ => ?_
        · simp [step, readMessage, running, phase, stream, Display.observe]
        · simp only [remaining, stream, phase, List.length_cons]
          omega
      | cons chunk more =>
        obtain ⟨rfl, _⟩ := List.cons_eq_cons.mp coming
        obtain ⟨write, next, observed⟩ := @observe_event settings s.display chunk
        refine enabled .reads { s with stream := later, display := next, output := .writing write } rfl ?_ fun _ => ?_
        · simp [step, readMessage, running, phase, stream, observed]
        · simp only [remaining, stream, phase, List.length_cons]
          omega
  | writing write =>
    refine enabled .writes { s with written := s.written ++ [write], output := .reading } rfl ?_ fun _ => ?_
    · simp [step, writeOutput, running, phase]
    · simp only [remaining, phase]
      omega
  | finishing result =>
    simp only [phase] at position
    obtain ⟨rfl, _⟩ := position
    cases persistent : settings.persistent with
    | true =>
      refine enabled .writes { s with written := s.written ++ [(false, s.display.titles.finish)],
                                      returned := some (.ok result) } rfl ?_ (by rintro ⟨⟩)
      simp [step, writeOutput, running, phase, exited, persistent]
    | false =>
      refine enabled .writes { s with written := s.written ++ [(false, s.display.titles.finish)],
                                      output := .closing result } rfl ?_ fun _ => ?_
      · simp [step, writeOutput, running, phase, exited, persistent]
      · simp only [remaining, phase]
        omega
  | closing result =>
    simp only [phase] at position
    obtain ⟨_, past, _⟩ := position
    obtain ⟨stream, script⟩ := List.append_eq_nil_iff.mp past
    cases ended : s.ended with
    | true =>
      refine enabled .reads { s with returned := some (.ok result) } rfl ?_ (by rintro ⟨⟩)
      simp [step, readMessage, running, phase, stream, ended]
    | false =>
      refine enabled .ends { s with ended := true } rfl ?_ fun _ => ?_
      · simp [step, running, script, ended]
      · simp only [remaining, phase, ended, if_true, Bool.false_eq_true, if_false]
        omega

theorem attended_ofOutput {a : Action} (ofOutput : Action.ofOutput a = true) : Attended s a := by
  cases a <;> trivial

/-- From any position the output side alone brings the session to its end. -/
theorem finishes (exited : exit.exited = true) (position : Position settings display outputs exit s) :
    ∃ actions t, (∀ a ∈ actions, Action.ofOutput a = true) ∧
      (system settings display outputs exit).run s actions = some t ∧
      t.returned = some (.ok exit) ∧ t.written = expected settings display outputs := by
  induction bound : remaining s using Nat.strongRecOn generalizing s with
  | ind bound ih =>
    cases running : s.returned with
    | some result =>
      unfold Position at position
      simp only [running] at position
      exact ⟨[], s, by simp, rfl, position.1 ▸ running, position.2⟩
    | none =>
      obtain ⟨a, t, ofOutput, taken, closer⟩ := output_step exited position running
      have next := step_position exited position (attended_ofOutput ofOutput) taken
      cases returned : t.returned with
      | some result =>
        unfold Position at next
        simp only [returned] at next
        refine ⟨[a], t, by simpa using ofOutput, ?_, next.1 ▸ returned, next.2⟩
        show (step settings s a).bind _ = some t
        rw [taken]
        rfl
      | none =>
        obtain ⟨actions, last, outputsOnly, ran, finished⟩ := ih _ (bound ▸ closer returned) next rfl
        refine ⟨a :: actions, last, ?_, ?_, finished⟩
        · rintro b (_ | ⟨_, member⟩)
          · exact ofOutput
          · exact outputsOnly b member
        · show (step settings s a).bind _ = some last
          rw [taken]
          exact ran

/-- A step that is not attended to ends the session with an error. -/
theorem unattended_fails {a : Action} (taken : step settings s a = some t) (unattended : ¬Attended s a) :
    ∃ failure, t.returned = some (.error failure) := by
  unfold step at taken
  split at taken
  next => cases taken
  next =>
    cases a with
    | forwards =>
      have gone : s.adapter = .gone := not_not.mp unattended
      simp only [forward, gone, if_true] at taken
      split at taken
      · cases taken
      · cases taken
        exact ⟨_, rfl⟩
    | expires =>
      simp only at taken
      split at taken
      · cases taken
        exact ⟨_, rfl⟩
      · cases taken
    | _ => exact (unattended trivial).elim

theorem finished_of {initialScreen : Bool} {name : Option Bytes} (returned : s.returned = some (.ok exit))
    (written : s.written = expected settings (opening initialScreen name) outputs) :
    Finished settings (opening initialScreen name) outputs exit s :=
  ⟨returned, written, written ▸ expected_lossless initialScreen name outputs⟩

/-- A run whose steps are all attended to returns the exit with everything written and can always get there;
a step that is not ends the session with an error. -/
theorem session_outcome (settings : Settings) (initialScreen : Bool) (name : Option Bytes) (outputs : List Chunk)
    (exit : ExecResult) (exited : exit.exited = true) {s : State}
    (reached : (system settings (opening initialScreen name) outputs exit).ReachableBy Attended s) :
    (∀ result, s.returned = some result → Finished settings (opening initialScreen name) outputs exit s) ∧
    (∃ actions t, (∀ a ∈ actions, Action.ofOutput a = true) ∧
      (system settings (opening initialScreen name) outputs exit).run s actions = some t ∧
      Finished settings (opening initialScreen name) outputs exit t) ∧
    ∀ a t, step settings s a = some t → ¬Attended s a → ∃ failure, t.returned = some (.error failure) := by
  have position : Position settings (opening initialScreen name) outputs exit s :=
    reached.invariant (fun _ initial => initial_position initial)
      fun _ _ _ position attended taken => step_position exited position attended taken
  refine ⟨fun result returned => ?_, ?_, fun a t taken unattended => unattended_fails taken unattended⟩
  · unfold Position at position
    simp only [returned] at position
    exact finished_of (position.1 ▸ returned) position.2
  · obtain ⟨actions, t, outputsOnly, ran, returned, written⟩ := finishes exited position
    exact ⟨actions, t, outputsOnly, ran, finished_of returned written⟩

end Proofs

section Sample

def sampleSettings : Settings := ⟨false, id⟩

def sampleExit : ExecResult := ⟨7, 0, true⟩

def sampleOutputs : List Chunk := [(false, [104, 105])]

def sampleStart : State where
  script := [.stdout [104, 105], .exit 7 0]
  stream := []
  ended := false
  requests := []
  requestsOpen := true
  typed := [.data [97], .data [98]]
  inputOpen := true
  window := (24, 80)
  windowChanged := false
  size := (24, 80)
  sending := []
  channel := []
  adapter := .idle
  display := opening false none
  output := .reading
  written := []
  returned := none

theorem sampleStart_initial : Initial (opening false none) sampleOutputs sampleExit sampleStart :=
  ⟨rfl, ⟨rfl, rfl⟩, rfl, ⟨rfl, rfl, rfl, rfl⟩, rfl, ⟨rfl, rfl, rfl⟩⟩

/-- The agent has sent everything and closed its input; the first key ends the adapter, the second the session. -/
def typingRun : List Action :=
  [.emits, .emits, .ends, .closesInput, .takesInput, .forwards, .adapts, .requests, .takesInput, .forwards]

/-- Typing after the program's end turns a finished session into an error and loses its output. -/
theorem typing_loses_output : ∃ s,
    (system sampleSettings (opening false none) sampleOutputs sampleExit).Reachable s ∧
    s.script = [] ∧ s.stream = [.stdout [104, 105], .exit 7 0] ∧ s.ended = true ∧
    s.returned = some (.error .inputClosed) ∧ s.written = [] := by
  let sys := system sampleSettings (opening false none) sampleOutputs sampleExit
  obtain ⟨s, ran⟩ := Option.isSome_iff_exists.mp
    (show (sys.run sampleStart typingRun).isSome = true by decide)
  have last : (sys.run sampleStart typingRun).map (fun s => (s.script, s.stream, s.ended, s.returned, s.written)) =
      some ([], [.stdout [104, 105], .exit 7 0], true, some (.error .inputClosed), []) := rfl
  rw [ran, Option.map_some, Option.some.injEq] at last
  simp only [Prod.mk.injEq] at last
  exact ⟨s, System.reachable_of_run (.start sampleStart_initial) ran, last⟩

def attends (s : State) : Action → Bool
  | .forwards => s.adapter != .gone
  | .expires => false
  | _ => true

theorem attends_sound (s : State) (a : Action) (attends : attends s a = true) : Attended s a := by
  cases a with
  | forwards => exact bne_iff_ne.mp attends
  | expires => cases attends
  | _ => trivial

/-- The same keys, the second one not taken any more before the session returns. -/
def quietRun : List Action :=
  [.emits, .takesInput, .forwards, .adapts, .requests, .emits, .ends, .closesInput, .reads, .writes, .reads, .writes,
    .reads]

theorem quietRun_finished : ∃ s,
    (system sampleSettings (opening false none) sampleOutputs sampleExit).ReachableBy Attended s ∧
    Finished sampleSettings (opening false none) sampleOutputs sampleExit s := by
  let sys := system sampleSettings (opening false none) sampleOutputs sampleExit
  obtain ⟨s, ran⟩ := Option.isSome_iff_exists.mp
    (show (sys.runBy attends sampleStart quietRun).isSome = true by decide)
  have last : (sys.runBy attends sampleStart quietRun).map (·.returned) = some (some (.ok sampleExit)) := rfl
  rw [ran, Option.map_some, Option.some.injEq] at last
  have reached : sys.ReachableBy Attended s :=
    System.reachableBy_of_runBy attends_sound (.start sampleStart_initial) ran
  exact ⟨s, reached, (session_outcome sampleSettings false none sampleOutputs sampleExit rfl reached).1 _ last⟩

end Sample

end Pbox.Cli.SshOutcome
