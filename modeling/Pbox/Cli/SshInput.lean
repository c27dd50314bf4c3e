import Pbox.Cli.Typing

/-! `pump`, the thread that reads the local terminal and queues what is typed for the remote session. A
read may bring any part of what has been typed, and the parser is flushed when nothing comes for 30 ms. -/

namespace Pbox.Cli.SshInput
open Pbox.Lib.Strings Pbox.Cli.Typing

inductive ExecInput where
  | data (bytes : Bytes)
  | eof
  deriving DecidableEq

/-- How `pump` ends: `none`, `Some(Ok(()))` and an error. -/
inductive Outcome where
  | ended
  | detached
  | failed (message : Text)
  deriving DecidableEq

def QUEUE_FULL : Text := "terminal input queue is full or closed".toList
def QUEUE_CLOSED : Text := "terminal input queue closed".toList

/-- One pass of the loop: what `poll` and `read` find, the shell's `ready` where it is read, and whether the queue
takes what is sent. `continues` is a pass that only waits or is interrupted. -/
inductive Pass where
  | continues
  | stops
  | idle (ready accepted : Bool)
  | fails (message : Text)
  | reads (bytes : Bytes) (ready accepted : Bool)
  | closes (accepted : Bool)

/-- What is sent in a pass, how the loop ends there, and the parser after it. -/
def pass (interactive : Bool) (parser : TerminalInput) : Pass → List ExecInput × Option Outcome × TerminalInput
  | .continues => ([], none, parser)
  | .stops => ([], some .ended, parser)
  | .idle ready accepted =>
    if parser.pending = [] then ([], none, parser)
    else if !ready then ([], none, parser.flush.2)
    else if accepted then ([.data parser.flush.1], none, parser.flush.2)
    else ([], some (.failed QUEUE_FULL), parser.flush.2)
  | .fails message => ([], some (.failed message), parser)
  | .reads bytes ready accepted =>
    if interactive then
      match parser.push bytes with
      | (_, true, next) => ([], some .detached, next)
      | (output, false, next) =>
        if !ready || output == [] then ([], none, next)
        else if accepted then ([.data output], none, next)
        else ([], some (.failed QUEUE_FULL), next)
    else if accepted then ([.data bytes], none, parser)
    else ([], some (.failed QUEUE_CLOSED), parser)
  | .closes accepted => if accepted then ([.eof], some .ended, parser) else ([], some (.failed QUEUE_FULL), parser)

def pump (interactive : Bool) : TerminalInput → List Pass → List ExecInput × Option Outcome × TerminalInput
  | parser, [] => ([], none, parser)
  | parser, first :: rest =>
    match pass interactive parser first with
    | (sent, some outcome, next) => (sent, some outcome, next)
    | (sent, none, next) => (sent ++ (pump interactive next rest).1, (pump interactive next rest).2)

def ExecInput.bytes : ExecInput → Bytes
  | .data bytes => bytes
  | .eof => []

def delivered (sent : List ExecInput) : Bytes := sent.flatMap ExecInput.bytes

/-- A byte that is typed, or a pause in the typing. -/
inductive Key where
  | byte (typed : UInt8)
  | pause

def Key.call : Key → Call
  | .byte typed => .push [typed]
  | .pause => .flush

/-- What is typed up to its detach key, held back bytes apart: the parser is given one byte at a time. -/
def beforeKey (readOnly : Bool) (keys : List Key) : Bytes := ((TerminalInput.new readOnly).run (keys.map Key.call)).1

def detaches (readOnly : Bool) (keys : List Key) : Prop :=
  ((TerminalInput.new readOnly).run (keys.map Key.call)).2.1 = true

/-- The typing that a pass takes in. -/
def Pass.keys : Pass → List Key
  | .reads bytes _ _ => bytes.map .byte
  | .idle _ _ => [.pause]
  | _ => []

def Pass.bytes : Pass → Bytes
  | .reads bytes _ _ => bytes
  | _ => []

/-- The passes of a loop whose shell is ready and whose queue is not full. -/
def Pass.typing : Pass → Bool
  | .continues => true
  | .idle ready accepted | .reads _ ready accepted => ready && accepted
  | _ => false

/-- A read with the end of the detach key does not begin before the key. -/
def Aligned (readOnly : Bool) (passes : List Pass) : Prop :=
  ∀ earlier first later, passes = earlier ++ first :: later → ¬detaches readOnly (earlier.flatMap Pass.keys) →
    detaches readOnly ((earlier ++ [first]).flatMap Pass.keys) →
      (beforeKey readOnly (passes.flatMap Pass.keys)).length ≤ (earlier.flatMap Pass.bytes).length

/-- The calls on the parser. -/
def Pass.calls : Pass → List Call
  | .reads bytes _ _ => [.push bytes]
  | .idle _ _ => [.flush]
  | _ => []

section Pump
variable {t next : TerminalInput} {passes earlier later : List Pass} {first : Pass} {output : Bytes}

theorem run_bytes (t : TerminalInput) (bytes : Bytes) : t.run (bytes.map fun byte => .push [byte]) = t.push bytes := by
  have pushes : .flush ∉ bytes.map fun byte => Call.push [byte] := by simp
  have whole : typed (bytes.map fun byte => .push [byte]) = bytes := by
    simp [typed, Call.bytes, List.flatMap_map]
  rw [TerminalInput.run_pushes t pushes, whole]

/-- Bytes may be cut anywhere. -/
theorem run_keys (t : TerminalInput) (passes : List Pass) :
    t.run ((passes.flatMap Pass.keys).map Key.call) = t.run (passes.flatMap Pass.calls) := by
  induction passes generalizing t with
  | nil => rfl
  | cons first rest ih =>
    have one : t.run (first.keys.map Key.call) = t.run first.calls := by
      cases first with
      | reads bytes ready accepted =>
        show t.run ((bytes.map Key.byte).map Key.call) = t.run [.push bytes]
        rw [List.map_map]
        refine (run_bytes t bytes).trans ?_
        rcases pushed : t.push bytes with ⟨output, detach, next⟩
        cases detach <;> simp [TerminalInput.run, pushed]
      | _ => rfl
    rw [List.flatMap_cons, List.map_append, List.flatMap_cons, TerminalInput.run_append, TerminalInput.run_append, one]
    split
    next => rfl
    next => rw [ih]

theorem delivered_append (first later : List ExecInput) : delivered (first ++ later) = delivered first ++ delivered later :=
  List.flatMap_append

theorem pass_clear (typing : first.typing = true) (clear : (t.run first.calls).2.1 = false) :
    ∃ sent, pass true t first = (sent, none, (t.run first.calls).2.2) ∧ delivered sent = (t.run first.calls).1 := by
  cases first with
  | continues => exact ⟨[], rfl, rfl⟩
  | idle ready accepted =>
    rw [Pass.typing, Bool.and_eq_true] at typing
    obtain ⟨rfl, rfl⟩ := typing
    obtain ⟨pending, pasted, readOnly⟩ := t
    cases pending with
    | nil => exact ⟨[], rfl, rfl⟩
    | cons byte rest => exact ⟨_, rfl, rfl⟩
  | reads bytes ready accepted =>
    rw [Pass.typing, Bool.and_eq_true] at typing
    obtain ⟨rfl, rfl⟩ := typing
    rcases pushed : t.push bytes with ⟨output, detach, next⟩
    cases detach with
    | true => simp [Pass.calls, TerminalInput.run, pushed] at clear
    | false =>
      cases output with
      | nil => exact ⟨[], by simp [pass, Pass.calls, TerminalInput.run, pushed], by
          simp [delivered, Pass.calls, TerminalInput.run, pushed]⟩
      | cons byte rest => exact ⟨[.data (byte :: rest)], by simp [pass, Pass.calls, TerminalInput.run, pushed], by
          simp [delivered, ExecInput.bytes, Pass.calls, TerminalInput.run, pushed]⟩
  | stops => cases typing
  | fails message => cases typing
  | closes accepted => cases typing

/-- A read that completes a detach key sends nothing. -/
theorem pass_detached (detached : (t.run first.calls).2.1 = true) :
    ∃ bytes ready accepted, first = .reads bytes ready accepted ∧ (t.push bytes).2.1 = true ∧
      (t.run first.calls).1 = (t.push bytes).1 ∧ ∃ next, pass true t first = ([], some .detached, next) := by
  cases first with
  | reads bytes ready accepted =>
    refine ⟨bytes, ready, accepted, rfl, ?_⟩
    rcases pushed : t.push bytes with ⟨output, detach, next⟩
    cases detach with
    | true => exact ⟨rfl, by simp [Pass.calls, TerminalInput.run, pushed], next, by simp [pass, pushed]⟩
    | false => simp [Pass.calls, TerminalInput.run, pushed] at detached
  | _ => cases detached

/-- Until a detach the pump sends what the parser returns. -/
theorem pump_clear (t : TerminalInput) (earlier later : List Pass) (typing : ∀ pass ∈ earlier, pass.typing = true)
    (clear : (t.run (earlier.flatMap Pass.calls)).2.1 = false) :
    ∃ sent, (pump true t (earlier ++ later)).1 =
        sent ++ (pump true (t.run (earlier.flatMap Pass.calls)).2.2 later).1 ∧
      delivered sent = (t.run (earlier.flatMap Pass.calls)).1 := by
  induction earlier generalizing t with
  | nil => exact ⟨[], rfl, rfl⟩
  | cons first rest ih =>
    rw [List.flatMap_cons, TerminalInput.run_append] at clear ⊢
    rcases ran : t.run first.calls with ⟨output, detach, next⟩
    rw [ran] at clear
    cases detach with
    | true => cases clear
    | false =>
      obtain ⟨sent, passed, same⟩ := pass_clear (typing first List.mem_cons_self) (by rw [ran])
      obtain ⟨more, pumped, others⟩ := ih next (fun pass member => typing pass (List.mem_cons_of_mem _ member)) clear
      rw [ran] at passed same
      refine ⟨sent ++ more, ?_, ?_⟩
      · rw [List.cons_append, pump, passed, List.append_assoc, ← pumped]
      · rw [delivered_append, same, others]

/-- The first detach among passes. -/
theorem first_detach (passes : List Pass) (detached : (t.run (passes.flatMap Pass.calls)).2.1 = true) :
    ∃ earlier first later, passes = earlier ++ first :: later ∧ (t.run (earlier.flatMap Pass.calls)).2.1 = false ∧
      ((t.run (earlier.flatMap Pass.calls)).2.2.run first.calls).2.1 = true := by
  induction passes generalizing t with
  | nil => cases detached
  | cons first rest ih =>
    rw [List.flatMap_cons, TerminalInput.run_append] at detached
    rcases ran : t.run first.calls with ⟨output, detach, next⟩
    rw [ran] at detached
    cases detach with
    | true => exact ⟨[], first, rest, rfl, rfl, by simp [TerminalInput.run, ran]⟩
    | false =>
      obtain ⟨earlier, last, later, rfl, clear, reports⟩ := ih detached
      refine ⟨first :: earlier, last, later, rfl, ?_, ?_⟩
      · rw [List.flatMap_cons, TerminalInput.run_append, ran]
        exact clear
      · rw [List.flatMap_cons, TerminalInput.run_append, ran]
        exact reports

theorem typed_calls (passes : List Pass) : typed (passes.flatMap Pass.calls) = passes.flatMap Pass.bytes := by
  induction passes with
  | nil => rfl
  | cons first rest ih =>
    rw [List.flatMap_cons, List.flatMap_cons, ← ih, typed, List.flatMap_append]
    cases first <;> simp [Pass.calls, Pass.bytes, typed, Call.bytes]

end Pump

section Delivery
variable {readOnly : Bool} {earlier later : List Pass} {first : Pass}

theorem detaches_iff (readOnly : Bool) (passes : List Pass) : detaches readOnly (passes.flatMap Pass.keys) ↔
    ((TerminalInput.new readOnly).run (passes.flatMap Pass.calls)).2.1 = true := by
  rw [detaches, run_keys]

theorem detaches_concat (clear : ((TerminalInput.new readOnly).run (earlier.flatMap Pass.calls)).2.1 = false) :
    detaches readOnly ((earlier ++ [first]).flatMap Pass.keys) ↔
      (((TerminalInput.new readOnly).run (earlier.flatMap Pass.calls)).2.2.run first.calls).2.1 = true := by
  rw [detaches_iff, List.flatMap_append, List.flatMap_singleton, TerminalInput.run_append]
  rcases ran : (TerminalInput.new readOnly).run (earlier.flatMap Pass.calls) with ⟨output, detach, mid⟩
  rw [ran] at clear
  cases clear
  exact Iff.rfl

def Key.bytes : Key → Bytes
  | .byte typed => [typed]
  | .pause => []

/-- What is before the detach key is followed by one. -/
theorem beforeKey_key {keys : List Key} (detach : detaches readOnly keys) : ∃ key rest, IsKey readOnly key ∧
    keys.flatMap Key.bytes = beforeKey readOnly keys ++ key ++ rest := by
  have same : typed (keys.map Key.call) = keys.flatMap Key.bytes := by
    rw [typed, List.flatMap_map]
    exact List.flatMap_congr fun key _ => by cases key <;> rfl
  obtain ⟨earlier, bytes, rest, later, key, cut, found, whole, _⟩ := run_key detach
  refine ⟨key, rest ++ typed later, found, ?_⟩
  rw [← same, cut, typed, List.flatMap_append, List.flatMap_cons]
  show typed earlier ++ (bytes ++ rest ++ typed later) = _
  rw [List.append_assoc bytes, ← List.append_assoc, whole]
  rfl

/-- At the first detach the pump loses what the last read has brought before the key. -/
theorem delivered_at_detach (later : List Pass) (typing : ∀ pass ∈ earlier, pass.typing = true)
    (clear : ((TerminalInput.new readOnly).run (earlier.flatMap Pass.calls)).2.1 = false)
    (reports : (((TerminalInput.new readOnly).run (earlier.flatMap Pass.calls)).2.2.run first.calls).2.1 = true) :
    delivered (pump true (.new readOnly) (earlier ++ first :: later)).1 =
        beforeKey readOnly ((earlier ++ first :: later).flatMap Pass.keys) ↔
      (beforeKey readOnly ((earlier ++ first :: later).flatMap Pass.keys)).length ≤
        (earlier.flatMap Pass.bytes).length := by
  obtain ⟨sent, pumped, same⟩ := pump_clear (.new readOnly) earlier (first :: later) typing clear
  have whole := (TerminalInput.run_clear (t := .new readOnly) _ clear).1
  have start : (TerminalInput.new readOnly).pending = [] := rfl
  rw [typed_calls, ← same, start, List.nil_append] at whole
  obtain ⟨bytes, ready, accepted, rfl, detached, _, next, passed⟩ := pass_detached reports
  have before : beforeKey readOnly ((earlier ++ .reads bytes ready accepted :: later).flatMap Pass.keys) =
      delivered sent ++ (((TerminalInput.new readOnly).run (earlier.flatMap Pass.calls)).2.2.push bytes).1 := by
    rw [beforeKey, run_keys, List.flatMap_append, List.flatMap_cons, TerminalInput.run_append]
    rcases ran : (TerminalInput.new readOnly).run (earlier.flatMap Pass.calls) with ⟨output, detach, mid⟩
    rw [ran] at clear same detached
    cases clear
    show output ++ (mid.run (.push bytes :: later.flatMap Pass.calls)).1 = _
    rw [TerminalInput.run, same]
    rcases pushed : mid.push bytes with ⟨more, detach, last⟩
    rw [pushed] at detached
    cases detached
    rfl
  have sends : delivered (pump true (.new readOnly) (earlier ++ .reads bytes ready accepted :: later)).1 =
      delivered sent := by
    rw [pumped, delivered_append, pump, passed]
    exact List.append_nil _
  rw [sends, before]
  generalize ((TerminalInput.new readOnly).run (earlier.flatMap Pass.calls)).2.2 = mid at *
  have lengths := congrArg List.length whole
  rw [List.length_append] at lengths
  constructor
  · intro same
    rw [← same]
    omega
  · intro aligned
    rw [List.length_append] at aligned
    rcases mid.push_output bytes with nothing | more
    · rw [nothing, List.append_nil]
    · omega

end Delivery

/-- The pump delivers what comes before the detach key, however it is read, exactly when no read with the key's
end begins before the key. -/
theorem delivers_iff_aligned (readOnly : Bool) (passes : List Pass) (typing : ∀ pass ∈ passes, pass.typing = true) :
    delivered (pump true (.new readOnly) passes).1 = beforeKey readOnly (passes.flatMap Pass.keys) ↔
      Aligned readOnly passes := by
  cases detach : ((TerminalInput.new readOnly).run (passes.flatMap Pass.calls)).2.1 with
  | false =>
    obtain ⟨sent, pumped, same⟩ := pump_clear (.new readOnly) passes [] typing detach
    have sends : delivered (pump true (.new readOnly) passes).1 = beforeKey readOnly (passes.flatMap Pass.keys) := by
      rw [beforeKey, run_keys, ← same, ← List.append_nil passes, pumped]
      simp [pump]
    refine iff_of_true sends ?_
    rintro earlier first later rfl _ reports
    rw [detaches_iff, List.flatMap_append, List.flatMap_singleton] at reports
    rw [List.flatMap_append, List.flatMap_cons, ← List.append_assoc, TerminalInput.run_append] at detach
    rcases ran : (TerminalInput.new readOnly).run (earlier.flatMap Pass.calls ++ first.calls) with ⟨output, found, next⟩
    rw [ran] at detach reports
    cases reports
    cases detach
  | true =>
    have within {earlier : List Pass} {first : Pass} {later : List Pass} (cut : passes = earlier ++ first :: later) :
        ∀ pass ∈ earlier, pass.typing = true := by
      intro pass member
      exact typing pass (cut ▸ List.mem_append_left _ member)
    constructor
    · intro sends earlier first later cut clear reports
      rw [detaches_iff, Bool.not_eq_true] at clear
      have here := delivered_at_detach later (within cut) clear ((detaches_concat clear).mp reports)
      rw [← cut] at here
      exact here.mp sends
    · intro aligned
      obtain ⟨earlier, first, later, cut, clear, reports⟩ := first_detach passes detach
      have begins : ¬detaches readOnly (earlier.flatMap Pass.keys) := by
        rw [detaches_iff, clear]
        exact Bool.false_ne_true
      have here := delivered_at_detach later (within cut) clear reports
      rw [← cut] at here
      exact here.mpr (aligned earlier first later cut begins ((detaches_concat clear).mpr reports))

/-- Two reads, the second of them the detach key. -/
theorem split_read_aligned : Aligned false [.reads [104, 105] true true, .reads [DETACH] true true] :=
  (delivers_iff_aligned false _ (by decide)).mp (by decide)

/-- The same keys in one read are lost. -/
theorem one_read_loses : ¬∀ (readOnly : Bool) (passes : List Pass), (∀ pass ∈ passes, pass.typing = true) →
    delivered (pump true (.new readOnly) passes).1 = beforeKey readOnly (passes.flatMap Pass.keys) := by
  intro always
  exact absurd (always false [.reads [104, 105, DETACH] true true] (by decide)) (by decide)

end Pbox.Cli.SshInput
