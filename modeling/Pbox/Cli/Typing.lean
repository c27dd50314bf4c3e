import Pbox.Lib.Numerals
import Pbox.Lib.Utf8

/-! `TerminalInput`: the typed bytes on their way to the remote session, with an escape sequence held
back until it is whole, so that the detach key is found and everything else passes unchanged. -/

namespace Pbox.Cli.Typing
open Pbox.Lib.Strings Pbox.Lib.Numerals Pbox.Lib.Utf8

abbrev Bytes := List UInt8

def ESC : UInt8 := 0x1b
def BRACKET : UInt8 := 0x5b
/-- Ctrl-] as one byte. -/
def DETACH : UInt8 := 0x1d
def CTRL_C : UInt8 := 3

def PASTE_START : Bytes := utf8 "\x1b[200~".toList
def PASTE_END : Bytes := utf8 "\x1b[201~".toList

structure TerminalInput where
  pending : Bytes
  pasted : Bool
  exitOnCtrlC : Bool
  deriving DecidableEq

/-- `TerminalInput::default`, or `read_only`. -/
def TerminalInput.new (readOnly : Bool) : TerminalInput := ⟨[], false, readOnly⟩

def parseU32 (value : Text) : Option Nat := parseUnsigned (2 ^ 32 - 1) value

/-- The key, modifiers and event that the text of a control sequence spells. -/
def spelled (body : Text) : Option (Option Nat × Option Nat × Option Nat) :=
  match stripSuffix ['u'] body with
  | some body =>
    let fields := body.splitOn ';'
    let key := fields.head?.bind fun p => (p.splitOn ':').head?.bind parseU32
    let modifiers := (fields.tail.head?.getD ['1']).splitOn ':'
    let modifier := modifiers.head?.bind parseU32
    let event := parseU32 (modifiers.tail.head?.getD ['1'])
    some (key, modifier, event)
  | none =>
    match stripSuffix ['~'] body with
    | some body =>
      let fields := body.splitOn ';'
      if fields.head? ≠ some ['2', '7'] then none
      else
        let modifiers := fields.tail.head?.bind parseU32
        let key := fields.tail.tail.head?.bind parseU32
        some (key, modifiers, some 1)
    | none => none

/-- The modifiers are Ctrl alone, apart from the lock keys. -/
def isControl (modifiers : Nat) : Bool := 0 < modifiers && (modifiers - 1) &&& (2 ^ 32 - 1 - (64 ||| 128)) == 4

def controlKey (sequence : Bytes) (keyCode : Nat) : Bool :=
  if [ESC, BRACKET].isPrefixOf sequence then
    match (fromUtf8 (sequence.drop 2)).bind spelled with
    | some (key, modifiers, event) =>
      key == some keyCode && (event == some 1 || event == some 2) && modifiers.any isControl
    | none => false
  else false

/-- A final byte of a control sequence. -/
def isFinal (byte : UInt8) : Bool := 0x40 ≤ byte && byte ≤ 0x7e

namespace TerminalInput
variable (t : TerminalInput)

/-- A whole escape sequence; `none` is the detach. -/
def sequence (pending : Bytes) : Option (Bytes × TerminalInput) :=
  if pending = PASTE_START then some (pending, { t with pending := [], pasted := true })
  else if pending = PASTE_END then some (pending, { t with pending := [], pasted := false })
  else if !t.pasted && (controlKey pending 93 || t.exitOnCtrlC && controlKey pending 99) then none
  else some (pending, { t with pending := [] })

/-- The loop of `push` with a byte that continues an escape sequence and is pushed to it. -/
def extended (pending : Bytes) (byte : UInt8) : Option (Bytes × TerminalInput) :=
  if pending.length = 2 ∧ byte = BRACKET then some ([], { t with pending })
  else if 2 < pending.length ∧ isFinal byte = false ∧ pending.length < 64 then some ([], { t with pending })
  else t.sequence pending

/-- What the loop of `push` does with one byte: the bytes it adds to the output; `none` is the detach. -/
def accept (byte : UInt8) : Option (Bytes × TerminalInput) :=
  if t.pending = [] then
    if (byte == DETACH || t.exitOnCtrlC && byte == CTRL_C) && !t.pasted then none
    else if byte = ESC then some ([], { t with pending := [byte] })
    else some ([byte], t)
  else t.extended (t.pending ++ [byte]) byte

/-- The result of `push`: the bytes it returns, whether it reports the detach, and the parser after it. -/
@[grind =] def push : TerminalInput → Bytes → Bytes × Bool × TerminalInput
  | t, [] => ([], false, t)
  | t, byte :: rest =>
    match t.accept byte with
    | none => ([], true, { t with pending := [] })
    | some (output, next) =>
      let (later, detach, last) := next.push rest
      (output ++ later, detach, last)

def flush : Bytes × TerminalInput := (t.pending, { t with pending := [] })

variable {t next last : TerminalInput} {byte : UInt8} {bytes first later output : Bytes}

theorem sequence_some {pending : Bytes} (passes : t.sequence pending = some (output, next)) :
    output = pending ∧ next.pending = [] ∧ next.exitOnCtrlC = t.exitOnCtrlC := by
  unfold sequence at passes
  split_ifs at passes <;> cases passes <;> exact ⟨rfl, rfl, rfl⟩

theorem extended_some {pending : Bytes} (passes : t.extended pending byte = some (output, next)) :
    output ++ next.pending = pending ∧ next.exitOnCtrlC = t.exitOnCtrlC := by
  unfold extended at passes
  split_ifs at passes
  · cases passes
    exact ⟨rfl, rfl⟩
  · cases passes
    exact ⟨rfl, rfl⟩
  · obtain ⟨rfl, none, same⟩ := sequence_some passes
    exact ⟨by rw [none, List.append_nil], same⟩

/-- A byte that is taken is put out behind what was held back, or held back with it. -/
theorem accept_some (passes : t.accept byte = some (output, next)) :
    output ++ next.pending = t.pending ++ [byte] ∧ next.exitOnCtrlC = t.exitOnCtrlC := by
  unfold accept at passes
  split_ifs at passes with empty detach escape
  · cases passes
    exact ⟨by rw [empty], rfl⟩
  · cases passes
    exact ⟨by rw [empty, List.append_nil, List.nil_append], rfl⟩
  · exact extended_some passes

end TerminalInput

example : (TerminalInput.new false).push (utf8 "ab\x1b[27;5;93~c".toList) =
    ([97, 98], true, TerminalInput.new false) := by decide

example : ((TerminalInput.new false).push (utf8 "\x1b[93;69:2u".toList)).2.1 = true := by decide
example : ((TerminalInput.new false).push (utf8 "hello\x1b[A\x1b[93;5:3u\x04".toList)).2.1 = false := by decide

/-- The keys that detach. -/
def IsKey (readOnly : Bool) (key : Bytes) : Prop :=
  key = [DETACH] ∨ controlKey key 93 = true ∨ readOnly = true ∧ (key = [CTRL_C] ∨ controlKey key 99 = true)

namespace TerminalInput
variable {t next last : TerminalInput} {byte : UInt8} {bytes first later output : Bytes}

/-- Something is put out, or something is held back. -/
theorem accept_one (passes : t.accept byte = some (output, next)) : output = [] ∨ next.pending = [] := by
  unfold accept extended at passes
  split_ifs at passes with empty
  · cases passes
    exact .inl rfl
  · cases passes
    exact .inr empty
  · cases passes
    exact .inl rfl
  · cases passes
    exact .inl rfl
  · exact .inr (sequence_some passes).2.1

theorem sequence_none {pending : Bytes} (detaches : t.sequence pending = none) : IsKey t.exitOnCtrlC pending := by
  unfold sequence at detaches
  split_ifs at detaches with start stop key
  rw [Bool.and_eq_true, Bool.or_eq_true, Bool.and_eq_true] at key
  rcases key.2 with bracket | ⟨readOnly, c⟩
  · exact .inr (.inl bracket)
  · exact .inr (.inr ⟨readOnly, .inr c⟩)

/-- The detach is reported at the last byte of a key, all of which is held back. -/
theorem accept_none (detaches : t.accept byte = none) : IsKey t.exitOnCtrlC (t.pending ++ [byte]) := by
  unfold accept at detaches
  split_ifs at detaches with empty key
  · rw [empty]
    rw [Bool.and_eq_true, Bool.or_eq_true, Bool.and_eq_true, beq_iff_eq, beq_iff_eq] at key
    rcases key.1 with rfl | ⟨readOnly, rfl⟩
    · exact .inl rfl
    · exact .inr (.inr ⟨readOnly, .inl rfl⟩)
  · unfold extended at detaches
    split_ifs at detaches
    exact sequence_none detaches

/-- A push that puts something out puts out what was held back, and more. -/
theorem push_output (t : TerminalInput) (bytes : Bytes) :
    (t.push bytes).1 = [] ∨ t.pending.length < (t.push bytes).1.length := by
  induction bytes generalizing t with
  | nil => exact .inl rfl
  | cons byte rest ih =>
    unfold push
    split
    next => exact .inl rfl
    next output next taken =>
      have length := congrArg List.length (accept_some taken).1
      rw [List.length_append, List.length_append, List.length_singleton] at length
      show output ++ (next.push rest).1 = [] ∨ t.pending.length < (output ++ (next.push rest).1).length
      rw [List.length_append]
      rcases accept_one taken with rfl | empty
      · rcases ih next with nothing | more
        · exact .inl (by rw [nothing, List.append_nil])
        · right
          rw [List.length_nil] at length
          omega
      · right
        rw [empty, List.length_nil] at length
        omega

theorem push_cons (taken : t.accept byte = some (output, next)) :
    t.push (byte :: later) = (output ++ (next.push later).1, (next.push later).2) := by
  rw [push, taken]

theorem push_append (t : TerminalInput) (first later : Bytes) :
    t.push (first ++ later) =
      match t.push first with
      | (output, true, next) => (output, true, next)
      | (output, false, next) => (output ++ (next.push later).1, (next.push later).2) := by
  induction first generalizing t with
  | nil => rfl
  | cons byte rest ih =>
    simp only [List.cons_append, push]
    cases taken : t.accept byte with
    | none => rfl
    | some taken =>
      simp only [ih]
      split
      next same => simp [same]
      next same => simp [same]

/-- Nothing is lost, added or reordered up to the detach. -/
theorem push_clear (bytes : Bytes) (clear : (t.push bytes).2.1 = false) :
    (t.push bytes).1 ++ (t.push bytes).2.2.pending = t.pending ++ bytes ∧
      (t.push bytes).2.2.exitOnCtrlC = t.exitOnCtrlC := by
  induction bytes generalizing t with
  | nil => exact ⟨by rw [push, List.nil_append, List.append_nil], rfl⟩
  | cons byte rest ih =>
    unfold push at clear ⊢
    split
    next detaches =>
      rw [detaches] at clear
      cases clear
    next output next taken =>
      rw [taken] at clear
      obtain ⟨whole, same⟩ := ih clear
      obtain ⟨passed, kept⟩ := accept_some taken
      refine ⟨?_, same.trans kept⟩
      rw [List.append_assoc, whole, ← List.append_assoc, passed, List.append_assoc, List.singleton_append]

theorem push_detached (detached : (t.push bytes).2.1 = true) :
    ∃ before byte rest next, bytes = before ++ byte :: rest ∧
      t.push before = ((t.push bytes).1, false, next) ∧ next.accept byte = none := by
  induction bytes generalizing t with
  | nil => cases detached
  | cons byte rest ih =>
    unfold push at detached ⊢
    split
    next detaches => exact ⟨[], byte, rest, t, rfl, rfl, detaches⟩
    next output next taken =>
      rw [taken] at detached
      obtain ⟨before, key, after, last, rfl, pushed, detaches⟩ := ih detached
      refine ⟨byte :: before, key, after, last, rfl, ?_, detaches⟩
      simp only [taken, pushed]

end TerminalInput

/-- The calls of a caller that passes on what it reads, and flushes when nothing comes for a while. -/
inductive Call where
  | push (bytes : Bytes)
  | flush
  deriving DecidableEq

def Call.bytes : Call → Bytes
  | .push bytes => bytes
  | .flush => []

def typed (calls : List Call) : Bytes := calls.flatMap Call.bytes

namespace TerminalInput

/-- All bytes that the calls return, up to the first that reports the detach. -/
@[grind =] def run : TerminalInput → List Call → Bytes × Bool × TerminalInput
  | t, [] => ([], false, t)
  | t, .push bytes :: rest =>
    match t.push bytes with
    | (output, true, next) => (output, true, next)
    | (output, false, next) => (output ++ (run next rest).1, (run next rest).2)
  | t, .flush :: rest => (t.flush.1 ++ (run t.flush.2 rest).1, (run t.flush.2 rest).2)

variable {t : TerminalInput} {calls : List Call}

theorem run_append (t : TerminalInput) (first later : List Call) :
    t.run (first ++ later) =
      match t.run first with
      | (output, true, next) => (output, true, next)
      | (output, false, next) => (output ++ (next.run later).1, (next.run later).2) := by
  induction first generalizing t with
  | nil => rfl
  | cons call rest ih =>
    cases call with
    | push bytes =>
      simp only [List.cons_append, run]
      rcases t.push bytes with ⟨output, detach, next⟩
      cases detach with
      | true => rfl
      | false =>
        simp only [ih]
        rcases next.run rest with ⟨more, detach, last⟩
        cases detach <;> simp
    | flush =>
      simp only [List.cons_append, run, ih]
      rcases t.flush.2.run rest with ⟨more, detach, last⟩
      cases detach <;> simp

theorem run_clear (calls : List Call) (clear : (t.run calls).2.1 = false) :
    (t.run calls).1 ++ (t.run calls).2.2.pending = t.pending ++ typed calls ∧
      (t.run calls).2.2.exitOnCtrlC = t.exitOnCtrlC := by
  induction calls generalizing t with
  | nil => exact ⟨by simp [run, typed], rfl⟩
  | cons call rest ih =>
    cases call with
    | push bytes =>
      simp only [run] at clear ⊢
      rcases pushed : t.push bytes with ⟨output, detach, next⟩
      rw [pushed] at clear
      cases detach with
      | true => cases clear
      | false =>
        obtain ⟨passed, kept⟩ := push_clear (t := t) bytes (by rw [pushed])
        obtain ⟨whole, same⟩ := ih clear
        rw [pushed] at passed kept
        refine ⟨?_, same.trans kept⟩
        show output ++ (next.run rest).1 ++ (next.run rest).2.2.pending = t.pending ++ (bytes ++ typed rest)
        rw [List.append_assoc, whole, ← List.append_assoc, passed, List.append_assoc]
    | flush =>
      obtain ⟨whole, same⟩ := ih (t := t.flush.2) clear
      refine ⟨?_, same⟩
      show t.pending ++ (t.flush.2.run rest).1 ++ (t.flush.2.run rest).2.2.pending = t.pending ++ typed rest
      rw [List.append_assoc, whole]
      rfl

/-- Before the call that reports the detach none does. -/
theorem run_detached (detached : (t.run calls).2.1 = true) :
    ∃ earlier bytes later output next, calls = earlier ++ .push bytes :: later ∧
      t.run earlier = (output, false, next) ∧ (next.push bytes).2.1 = true ∧
      (t.run calls).1 = output ++ (next.push bytes).1 := by
  induction calls generalizing t with
  | nil => cases detached
  | cons call rest ih =>
    cases call with
    | push bytes =>
      simp only [run] at detached ⊢
      rcases pushed : t.push bytes with ⟨output, detach, next⟩
      cases detach with
      | true => exact ⟨[], bytes, rest, [], t, rfl, rfl, by rw [pushed], by rw [pushed]; rfl⟩
      | false =>
        rw [pushed] at detached
        obtain ⟨earlier, more, later, before, last, rfl, ran, reports, returned⟩ := ih detached
        refine ⟨.push bytes :: earlier, more, later, output ++ before, last, rfl, ?_, reports, ?_⟩
        · simp only [run, pushed, ran]
        · rw [List.append_assoc, ← returned]
    | flush =>
      obtain ⟨earlier, more, later, before, last, rfl, ran, reports, returned⟩ := ih (t := t.flush.2) detached
      refine ⟨.flush :: earlier, more, later, t.pending ++ before, last, rfl, ?_, reports, ?_⟩
      · simp only [run, ran]
        rfl
      · simp only [run, List.append_assoc, ← returned]
        rfl

/-- Without flushes the calls are one call with all the bytes. -/
theorem run_pushes (t : TerminalInput) (pushes : .flush ∉ calls) : t.run calls = t.push (typed calls) := by
  induction calls generalizing t with
  | nil => rfl
  | cons call rest ih =>
    rw [List.mem_cons, not_or] at pushes
    cases call with
    | flush => exact (pushes.1 rfl).elim
    | push bytes =>
      show t.run (.push bytes :: rest) = t.push (bytes ++ typed rest)
      rw [run, push_append]
      split
      next => rfl
      next => rw [ih _ pushes.2]

end TerminalInput

/-- What is asked of the parser for some calls on it. -/
structure Transparent (readOnly : Bool) (calls : List Call) : Prop where
  /-- Up to a detach, what has been returned and what is held back are what was typed. -/
  undetached : ((TerminalInput.new readOnly).run calls).2.1 = false →
    ((TerminalInput.new readOnly).run calls).1 ++ ((TerminalInput.new readOnly).run calls).2.2.pending = typed calls
  /-- With the byte at which it is reported first, what was typed is what has been returned and a key. -/
  detached : ((TerminalInput.new readOnly).run calls).2.1 = true →
    ∃ earlier bytes rest later key, calls = earlier ++ .push (bytes ++ rest) :: later ∧ IsKey readOnly key ∧
      typed earlier ++ bytes = ((TerminalInput.new readOnly).run calls).1 ++ key ∧
      ∀ shorter, shorter <+: bytes → shorter ≠ bytes →
        ((TerminalInput.new readOnly).run (earlier ++ [.push shorter])).2.1 = false
  /-- Without flushes it does not matter where the bytes are cut. -/
  unsplit : ∀ other, .flush ∉ calls → .flush ∉ other → typed calls = typed other →
    ((TerminalInput.new readOnly).run calls).1 = ((TerminalInput.new readOnly).run other).1 ∧
      ((TerminalInput.new readOnly).run calls).2.1 = ((TerminalInput.new readOnly).run other).2.1

theorem run_key {readOnly : Bool} {calls : List Call} (detached : ((TerminalInput.new readOnly).run calls).2.1 = true) :
    ∃ earlier bytes rest later key, calls = earlier ++ .push (bytes ++ rest) :: later ∧ IsKey readOnly key ∧
      typed earlier ++ bytes = ((TerminalInput.new readOnly).run calls).1 ++ key ∧
      ∀ shorter, shorter <+: bytes → shorter ≠ bytes →
        ((TerminalInput.new readOnly).run (earlier ++ [.push shorter])).2.1 = false := by
  obtain ⟨earlier, pushed, later, output, mid, rfl, ran, reports, returned⟩ := TerminalInput.run_detached detached
  obtain ⟨before, byte, rest, next, rfl, passed, detaches⟩ := TerminalInput.push_detached reports
  have start := TerminalInput.run_clear (t := .new readOnly) earlier (by rw [ran])
  have held := TerminalInput.push_clear (t := mid) before (by rw [passed])
  rw [ran] at start
  rw [passed] at held
  refine ⟨earlier, before ++ [byte], rest, later, next.pending ++ [byte], ?_, ?_, ?_, ?_⟩
  · rw [List.append_assoc, List.singleton_append]
  · have key := TerminalInput.accept_none detaches
    rwa [held.2, start.2] at key
  · rw [returned, ← List.append_assoc, ← List.append_assoc, List.append_assoc output, held.1, ← List.append_assoc,
      start.1]
    rfl
  · intro shorter starts proper
    -- a proper prefix of the bytes ends before the key does
    have within : shorter <+: before := by
      rcases List.prefix_concat_iff.mp starts with whole | within
      · exact (proper whole).elim
      · exact within
    obtain ⟨more, rfl⟩ := within
    rw [TerminalInput.run_append, ran]
    have clear : (mid.push shorter).2.1 = false := by
      rw [TerminalInput.push_append] at passed
      rcases cut : mid.push shorter with ⟨front, detach, last⟩
      cases detach with
      | true =>
        rw [cut] at passed
        cases passed
      | false => rfl
    simp only [TerminalInput.run]
    rcases cut : mid.push shorter with ⟨front, detach, last⟩
    rw [cut] at clear
    cases clear
    rfl

theorem input_transparent (readOnly : Bool) (calls : List Call) : Transparent readOnly calls where
  undetached clear := (TerminalInput.run_clear calls clear).1
  detached := run_key
  unsplit other pushes pushes' same := by
    rw [TerminalInput.run_pushes _ pushes, TerminalInput.run_pushes _ pushes', same]
    exact ⟨rfl, rfl⟩

end Pbox.Cli.Typing
