import Pbox.Agent.Terminal
import Pbox.Lib.Channel
import Mathlib.Data.List.Forall2

/-! Text and named keys sent to a session, as the bytes that its program reads. Which bytes stand for a
key depends on the keyboard modes that the program has chosen. -/

namespace Pbox.Agent.TerminalKeys
open Pbox.Lib.Strings Pbox.Lib.Channel Pbox.Agent.Session Pbox.Agent.Terminal

/-- What `terminal_input` reads of the emulator. -/
structure Keyboard where
  bracketedPaste : Bool
  applicationCursor : Bool
  modes : TerminalModes

/-- `char::is_control`. -/
def isControl (c : Char) : Bool := c.toNat < 0x20 || (0x7f ≤ c.toNat && c.toNat ≤ 0x9f)

def isLineControl (c : Char) : Bool := c == '\n' || c == '\r' || c == '\t'

def lowercase (text : Text) : Text := text.map Char.toLower

/-- The code of a key, what it was before there were codes, and the parts of its control sequence. -/
structure Form where
  code : Nat
  legacy : Text
  csi : Option (Nat × Char)

def NAMED : List (Text × Form) :=
  [("enter".toList, ⟨13, ['\r'], none⟩), ("return".toList, ⟨13, ['\r'], none⟩), (['\n'], ⟨13, ['\r'], none⟩),
    (['\r'], ⟨13, ['\r'], none⟩), ("tab".toList, ⟨9, ['\t'], none⟩), (['\t'], ⟨9, ['\t'], none⟩),
    ("escape".toList, ⟨27, ['\x1b'], none⟩), ("esc".toList, ⟨27, ['\x1b'], none⟩),
    ("backspace".toList, ⟨127, ['\x7f'], none⟩), ("space".toList, ⟨32, [' '], none⟩),
    ("up".toList, ⟨57352, [], some (1, 'A')⟩), ("down".toList, ⟨57353, [], some (1, 'B')⟩),
    ("right".toList, ⟨57351, [], some (1, 'C')⟩), ("left".toList, ⟨57350, [], some (1, 'D')⟩),
    ("home".toList, ⟨57356, [], some (1, 'H')⟩), ("end".toList, ⟨57357, [], some (1, 'F')⟩),
    ("insert".toList, ⟨57348, [], some (2, '~')⟩), ("delete".toList, ⟨57349, [], some (3, '~')⟩),
    ("f1".toList, ⟨57364, [], some (1, 'P')⟩), ("f2".toList, ⟨57365, [], some (1, 'Q')⟩),
    ("f3".toList, ⟨57366, [], some (13, '~')⟩), ("f4".toList, ⟨57367, [], some (1, 'S')⟩),
    ("f5".toList, ⟨57368, [], some (15, '~')⟩), ("f6".toList, ⟨57369, [], some (17, '~')⟩),
    ("f7".toList, ⟨57370, [], some (18, '~')⟩), ("f8".toList, ⟨57371, [], some (19, '~')⟩),
    ("f9".toList, ⟨57372, [], some (20, '~')⟩), ("f10".toList, ⟨57373, [], some (21, '~')⟩),
    ("f11".toList, ⟨57374, [], some (23, '~')⟩), ("f12".toList, ⟨57375, [], some (24, '~')⟩),
    ("pageup".toList, ⟨57354, [], some (5, '~')⟩), ("pagedown".toList, ⟨57355, [], some (6, '~')⟩)]

def MODIFIERS : List (Text × Nat) :=
  [("shift".toList, 1), ("alt".toList, 2), ("ctrl".toList, 4), ("control".toList, 4)]

def invalid (key : Text) : Status :=
  ⟨.invalidArgument, "unknown key '".toList ++ key ++ "'; use Enter, Escape, Tab, arrows or Ctrl+C".toList⟩

/-- The modifiers named before the key's own name. -/
def modifiersOf (key : Text) : List Text → Nat → Except Status Nat
  | [], modifiers => .ok modifiers
  | part :: rest, modifiers =>
    match MODIFIERS.lookup (lowercase part) with
    | some modifier => modifiersOf key rest (modifiers ||| modifier)
    | none => .error (invalid key)

def formOf (key name : Text) (modifiers : Nat) : Except Status Form :=
  match NAMED.lookup (lowercase name) with
  | some form => .ok form
  | none =>
    match name with
    | [c] =>
      let c := if modifiers &&& 4 ≠ 0 then c.toLower else c
      .ok ⟨c.toNat, [c], none⟩
    | _ => .error (invalid key)

/-- The byte of a key with Ctrl. -/
def controlByte (code : Nat) : Option UInt8 :=
  if code = 9 ∨ code = 13 ∨ code = 27 then some code.toUInt8
  else if code = 127 then some 8
  else if code = 32 ∨ code = 64 then some 0
  else if 97 ≤ code ∧ code ≤ 122 then some (code - 96).toUInt8
  else if 91 ≤ code ∧ code ≤ 95 then some (code - 64).toUInt8
  else if code = 63 then some 127
  else none

section Keys
-- `str::to_uppercase`
variable (toUppercase : Text → Text) (parser : Keyboard)

/-- A functional key keeps its control sequence in every mode. -/
def functional (modifiers number : Nat) (suffix : Char) : Bytes :=
  if modifiers ≠ 0 then ascii "\x1b[" ++ decimal number ++ ascii ";" ++ decimal (modifiers + 1) ++ utf8 [suffix]
  else if suffix = '~' then ascii "\x1b[" ++ decimal number ++ ascii "~"
  else if (parser.applicationCursor ∨ suffix = 'P' ∨ suffix = 'Q' ∨ suffix = 'S') ∧ parser.modes.kitty = 0 then
    ascii "\x1bO" ++ utf8 [suffix]
  else ascii "\x1b[" ++ utf8 [suffix]

def encodeForm (key name : Text) (modifiers : Nat) (form : Form) : Except Status Bytes :=
  let flags := parser.modes.kitty
  match form.csi with
  | some (number, suffix) => .ok (functional parser modifiers number suffix)
  | none =>
    if flags &&& 8 ≠ 0 ∨ (flags &&& 1 ≠ 0 ∧ (modifiers ≠ 0 ∨ form.code = 27)) then
      .ok (ascii "\x1b[" ++ decimal form.code ++ ascii ";" ++ decimal (modifiers + 1) ++ ascii "u")
    else if form.code = 9 ∧ modifiers = 1 then .ok (ascii "\x1b[Z")
    else
      let escape : Bytes := if modifiers &&& 2 ≠ 0 then [0x1b] else []
      if modifiers &&& 4 ≠ 0 then
        match controlByte form.code with
        | some control => .ok (escape ++ [control])
        | none => .error (invalid key)
      else .ok (escape ++ utf8 (if modifiers &&& 1 ≠ 0 ∧ name.length = 1 then toUppercase name else form.legacy))

def encodeKey (key : Text) : Except Status Bytes :=
  -- there is a part whatever the key is
  let parts := key.splitOn '+'
  let name := parts.getLast?.getD []
  match modifiersOf key parts.dropLast 0 with
  | .error error => .error error
  | .ok modifiers =>
    match formOf key name modifiers with
    | .error error => .error error
    | .ok form => encodeForm toUppercase parser key name modifiers form

def encodeKeys : List Text → Except Status Bytes
  | [] => .ok []
  | key :: rest =>
    match encodeKey toUppercase parser key with
    | .error error => .error error
    | .ok first => (encodeKeys rest).map (first ++ ·)

/-- The text without keys, before it is known whether its characters are allowed. -/
def encodeText (text : Text) : Except Status Bytes :=
  if text = [] then .ok []
  else if parser.bracketedPaste then .ok (ascii "\x1b[200~" ++ utf8 text ++ ascii "\x1b[201~")
  else if parser.modes.kitty &&& 8 ≠ 0 then encodeKeys toUppercase parser (text.map fun c => [c])
  else .ok (utf8 text)

def terminalInput (text : Text) (keys : List Text) : Except Status Bytes :=
  if text.any (fun c => isControl c && !isLineControl c) then
    .error (.of .invalidArgument "text contains control characters; use named keys")
  else
    match encodeText toUppercase parser text with
    | .error error => .error error
    | .ok bytes => (encodeKeys toUppercase parser keys).map (bytes ++ ·)

/-- How the wait for a slot of the session's input queue ends. -/
inductive Waited where
  | reserved
  | busy
  | ended

/-- `Sessions::send`, with the session's queue when its state is locked: a slot of it is reserved by then. -/
def send (found : Bool) (waited : Waited) (input : Channel ExecRequest) (name text : Text) (keys : List Text) :
    Except Status Unit × Channel ExecRequest :=
  if 64 * 1024 < (utf8 text).length ∨ 256 < keys.length then
    (.error (.of .invalidArgument "send accepts at most 64 KiB of text and 256 keys"), input)
  else if !found then (.error ⟨.notFound, "session '".toList ++ name ++ "' was not found".toList⟩, input)
  else
    match waited with
    | .busy => (.error (.of .deadlineExceeded "terminal input is busy"), input)
    | .ended => (.error (.of .notFound "terminal has ended"), input)
    | .reserved =>
      match terminalInput toUppercase parser text keys with
      | .error error => (.error error, input.release.getD input)
      | .ok bytes => (.ok (), (input.fill { protocolVersion := PROTOCOL, stdin := bytes }).getD input)

end Keys

/-- A character as the kitty protocol reports it. -/
def keyEvent (c : Char) : Bytes :=
  let code := if c = '\n' ∨ c = '\r' then 13 else c.toNat
  ascii "\x1b[" ++ decimal code ++ ascii ";1u"

/-- The text as a paste, as key events or as it is. -/
def encoding (parser : Keyboard) (text : Text) : Bytes :=
  if text = [] then []
  else if parser.bracketedPaste then ascii "\x1b[200~" ++ utf8 text ++ ascii "\x1b[201~"
  else if parser.modes.kitty &&& 8 ≠ 0 then text.flatMap keyEvent
  else utf8 text

/-- What is asked of a text: it is taken whatever the modes are, and the keys follow it, or nothing is queued. -/
structure Takes (toUppercase : Text → Text) (parser : Keyboard) (text : Text) : Prop where
  alone : terminalInput toUppercase parser text [] = .ok (encoding parser text)
  followed : ∀ keys encodings, List.Forall₂ (fun key bytes => encodeKey toUppercase parser key = .ok bytes) keys encodings →
    terminalInput toUppercase parser text keys = .ok (encoding parser text ++ encodings.flatten)
  refused : ∀ keys key error, key ∈ keys → encodeKey toUppercase parser key = .error error →
    ∀ found waited input name, (∃ error, (send toUppercase parser found waited input name text keys).1 = .error error) ∧
      (send toUppercase parser found waited input name text keys).2.queue = input.queue

section Text
variable {toUppercase : Text → Text} {parser : Keyboard} {text : Text}

/-- Only a capital letter has another lower case, which is a letter. -/
theorem eq_of_toLower {c d : Char} (low : d.toNat < 97) (same : c.toLower = d) : c = d := by
  unfold Char.toLower at same
  split at same
  next upper =>
    have value : (c.val + ('a'.val - 'A'.val)).toNat = d.toNat := congrArg Char.toNat same
    have least : 65 ≤ c.val.toNat := upper.1
    have most : c.val.toNat ≤ 90 := upper.2
    have shift : ('a'.val - 'A'.val).toNat = 32 := by decide
    rw [UInt32.toNat_add, shift] at value
    omega
  next => exact same

theorem named_char (c : Char) : NAMED.lookup (lowercase [c]) =
    if c = '\n' ∨ c = '\r' then some ⟨13, ['\r'], none⟩ else if c = '\t' then some ⟨9, ['\t'], none⟩ else none := by
  split_ifs with line tab
  · rcases line with rfl | rfl <;> rfl
  · rw [tab]
    rfl
  · rw [not_or] at line
    have other {d : Char} (low : d.toNat < 97) (different : c ≠ d) : (c.toLower == d) = false :=
      beq_eq_false_iff_ne.mpr fun same => different (eq_of_toLower low same)
    simp [NAMED, lowercase, List.lookup_cons, @other '\n' (by decide) line.1, @other '\r' (by decide) line.2,
      @other '\t' (by decide) tab]

theorem encodeKeys_ok {keys : List Text} {encodings : List Bytes}
    (valid : List.Forall₂ (fun key bytes => encodeKey toUppercase parser key = .ok bytes) keys encodings) :
    encodeKeys toUppercase parser keys = .ok encodings.flatten := by
  induction valid with
  | nil => rfl
  | cons first _ ih =>
    rw [encodeKeys, first, ih, List.flatten_cons]
    rfl

theorem encodeKeys_error {keys : List Text} {key : Text} {error : Status} (member : key ∈ keys)
    (fails : encodeKey toUppercase parser key = .error error) :
    ∃ error, encodeKeys toUppercase parser keys = .error error := by
  induction keys with
  | nil => cases member
  | cons first rest ih =>
    unfold encodeKeys
    cases encoded : encodeKey toUppercase parser first with
    | error error => exact ⟨error, rfl⟩
    | ok bytes =>
      rcases List.mem_cons.mp member with rfl | later
      · rw [fails] at encoded
        cases encoded
      · obtain ⟨error, rest⟩ := ih later
        exact ⟨error, by rw [rest]; rfl⟩

/-- In the kitty protocol every character but the plus sign is its own name. -/
theorem encodeKey_char {c : Char} (kitty : parser.modes.kitty &&& 8 ≠ 0) (plain : c ≠ '+') :
    encodeKey toUppercase parser [c] = .ok (keyEvent c) := by
  have parts : [c].splitOn '+' = [[c]] := List.splitOn_eq_singleton (by simpa using plain.symm)
  have form : ∃ legacy, formOf [c] [c] 0 = .ok ⟨if c = '\n' ∨ c = '\r' then 13 else c.toNat, legacy, none⟩ := by
    unfold formOf
    rw [named_char]
    by_cases line : c = '\n' ∨ c = '\r'
    · rw [if_pos line, if_pos line]
      exact ⟨_, rfl⟩
    · rw [if_neg line, if_neg line]
      by_cases tab : c = '\t'
      · subst tab
        exact ⟨_, rfl⟩
      · rw [if_neg tab]
        exact ⟨_, rfl⟩
  obtain ⟨legacy, form⟩ := form
  unfold encodeKey
  simp only [parts, List.getLast?_singleton, Option.getD_some, List.dropLast_singleton, modifiersOf, form]
  unfold encodeForm keyEvent
  simp only [kitty, ne_eq, not_false_eq_true, true_or, if_true]
  exact congrArg Except.ok (by rw [List.append_assoc, List.append_assoc]; rfl)

theorem encodeKey_plus : encodeKey toUppercase parser ['+'] = .error (invalid ['+']) := rfl

theorem encodeText_ok (toUppercase : Text → Text)
    (plain : ¬(parser.bracketedPaste = false ∧ parser.modes.kitty &&& 8 ≠ 0 ∧ '+' ∈ text)) :
    encodeText toUppercase parser text = .ok (encoding parser text) := by
  unfold encodeText encoding
  split_ifs with empty pasted kitty
  · rfl
  · rfl
  · have named : '+' ∉ text := fun plus => plain ⟨by simpa using pasted, kitty, plus⟩
    have events : List.Forall₂ (fun key bytes => encodeKey toUppercase parser key = .ok bytes)
        (text.map fun c => [c]) (text.map keyEvent) := by
      rw [List.forall₂_map_left_iff, List.forall₂_map_right_iff, List.forall₂_same]
      exact fun c member => encodeKey_char kitty (by rintro rfl; exact named member)
    rw [encodeKeys_ok events, List.flatMap_def]
  · rfl

theorem encodeText_error (toUppercase : Text → Text)
    (kitty : parser.bracketedPaste = false ∧ parser.modes.kitty &&& 8 ≠ 0 ∧ '+' ∈ text) :
    ∃ error, encodeText toUppercase parser text = .error error := by
  obtain ⟨unpasted, flag, plus⟩ := kitty
  have nonempty : text ≠ [] := List.ne_nil_of_mem plus
  unfold encodeText
  rw [if_neg nonempty, if_neg (by simp [unpasted]), if_pos flag]
  exact encodeKeys_error (List.mem_map.mpr ⟨'+', plus, rfl⟩) encodeKey_plus

end Text

/-- A text is taken exactly when it does not come as key events with a plus sign among them. -/
theorem takes_iff (toUppercase : Text → Text) (parser : Keyboard) (text : Text)
    (shown : ∀ c ∈ text, isControl c = true → isLineControl c = true) :
    Takes toUppercase parser text ↔
      ¬(parser.bracketedPaste = false ∧ parser.modes.kitty &&& 8 ≠ 0 ∧ '+' ∈ text) := by
  have allowed : text.any (fun c => isControl c && !isLineControl c) = false := by
    rw [List.any_eq_false]
    intro c member bad
    rw [Bool.and_eq_true, Bool.not_eq_true'] at bad
    rw [shown c member bad.1] at bad
    cases bad.2
  constructor
  · intro takes kitty
    obtain ⟨error, fails⟩ := encodeText_error toUppercase kitty
    have alone := takes.alone
    unfold terminalInput at alone
    rw [allowed, fails] at alone
    cases alone
  · intro plain
    have typed := encodeText_ok toUppercase plain
    have followed (keys : List Text) : terminalInput toUppercase parser text keys =
        (encodeKeys toUppercase parser keys).map (encoding parser text ++ ·) := by
      unfold terminalInput
      rw [allowed, typed]
      rfl
    refine ⟨?_, fun keys encodings valid => ?_, fun keys key error member fails found waited input name => ?_⟩
    · rw [followed, encodeKeys]
      exact congrArg Except.ok (List.append_nil _)
    · rw [followed, encodeKeys_ok valid]
      rfl
    · obtain ⟨error, refused⟩ := encodeKeys_error member fails
      have rejected : terminalInput toUppercase parser text keys = .error error := by
        rw [followed, refused]
        rfl
      unfold send
      split_ifs
      · exact ⟨⟨_, rfl⟩, rfl⟩
      · exact ⟨⟨_, rfl⟩, rfl⟩
      · cases waited with
        | busy => exact ⟨⟨_, rfl⟩, rfl⟩
        | ended => exact ⟨⟨_, rfl⟩, rfl⟩
        | reserved =>
          rw [rejected]
          exact ⟨⟨_, rfl⟩, Channel.release_getD_queue⟩

/-- The emulator of a program that has asked for all keys as escape codes. -/
def kittyKeyboard : Keyboard := ⟨false, false, { kitty := 8 }⟩

theorem shown_of_all {text : Text} (all : text.all (fun c => !isControl c || isLineControl c) = true) :
    ∀ c ∈ text, isControl c = true → isLineControl c = true := by
  intro c member control
  have either := List.all_eq_true.mp all c member
  rw [control] at either
  exact either

theorem kitty_takes : Takes lowercase kittyKeyboard "a-b\n".toList :=
  (takes_iff lowercase kittyKeyboard _ (shown_of_all (by decide))).mpr (by decide)

theorem plus_refused : ¬∀ (toUppercase : Text → Text) (parser : Keyboard) (text : Text),
    (∀ c ∈ text, isControl c = true → isLineControl c = true) → Takes toUppercase parser text := by
  intro always
  have taken := (always lowercase kittyKeyboard "1+1".toList (shown_of_all (by decide))).alone
  exact absurd taken (by decide)

end Pbox.Agent.TerminalKeys
