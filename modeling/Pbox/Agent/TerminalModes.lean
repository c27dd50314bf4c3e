import Pbox.Agent.Terminal
import Mathlib.Algebra.Group.Nat.Defs

/-! The keyboard modes of a session, kept by the emulator's callbacks, and the control sequences that give
them to the terminal of a new viewer. -/

namespace Pbox.Agent.TerminalModes
open Pbox.Agent.Session Pbox.Agent.Terminal

/-- A control sequence as the emulator hands it to `unhandled_csi`. -/
structure Csi where
  i1 : Option Char
  params : List (List UInt16)
  command : Char
  deriving DecidableEq

/-- What `terminal_extension` takes for itself. -/
def EXTENSIONS : List Csi :=
  [⟨none, [], 's'⟩, ⟨none, [[0]], 's'⟩, ⟨some '?', [[1048]], 'h'⟩, ⟨none, [], 'u'⟩, ⟨none, [[0]], 'u'⟩,
    ⟨some '?', [[1048]], 'l'⟩, ⟨some '?', [[1047]], 'h'⟩, ⟨some '?', [[1047]], 'l'⟩]

def Csi.value (csi : Csi) : Nat := ((csi.params.head?.bind List.head?).getD 0).toNat

def Csi.second (csi : Csi) : Nat := ((csi.params.tail.head?.bind List.head?).getD 1).toNat

/-- The answer to a query that no viewer answers. -/
def reply (modes : TerminalModes) (cursor : Nat × Nat) (csi : Csi) : Bytes :=
  match csi.i1, csi.command with
  | none, 'n' =>
    if csi.value = 5 then ascii "\x1b[0n"
    else if csi.value = 6 then ascii "\x1b[" ++ decimal (cursor.1 + 1) ++ ascii ";" ++ decimal (cursor.2 + 1) ++ ascii "R"
    else []
  | none, 'c' => if csi.value = 0 then ascii "\x1b[?1;2c" else []
  | some '>', 'c' => if csi.value = 0 then ascii "\x1b[>0;1;0c" else []
  | some '?', 'u' => ascii "\x1b[?" ++ decimal modes.kitty ++ ascii "u"
  | _, _ => []

def pushKitty (value : Nat) (modes : TerminalModes) : TerminalModes :=
  { modes with
    stack := (if modes.stack.length = 16 then modes.stack.tail else modes.stack) ++ [modes.kitty], kitty := value }

def popKitty (modes : TerminalModes) : TerminalModes :=
  { modes with stack := modes.stack.dropLast, kitty := modes.stack.getLast?.getD 0 }

def setKitty (value second : Nat) (modes : TerminalModes) : TerminalModes :=
  { modes with
    kitty := if second = 2 then modes.kitty ||| value
      else if second = 3 then modes.kitty &&& (2 ^ 16 - 1 - value)
      else value }

/-- The modes after a control sequence, apart from the reply. -/
def change (csi : Csi) (modes : TerminalModes) : TerminalModes :=
  match csi.i1, csi.command with
  | some ' ', 'q' => if csi.value ≤ 6 then { modes with cursorStyle := some csi.value } else modes
  | some '?', 'h' =>
    if csi.value = 12 then { modes with cursorBlink := some true }
    else if csi.value = 1004 then { modes with focus := true }
    else modes
  | some '?', 'l' =>
    if csi.value = 12 then { modes with cursorBlink := some false }
    else if csi.value = 1004 then { modes with focus := false }
    else modes
  | some '>', 'u' => pushKitty csi.value modes
  | some '<', 'u' => popKitty^[max 1 (min 16 csi.value)] modes
  | some '=', 'u' => setKitty csi.value csi.second modes
  | some '>', 'm' => if csi.value = 4 then { modes with modifyKeys := csi.second } else modes
  | _, _ => modes

def unhandledCsi (cursor : Nat × Nat) (csi : Csi) (modes : TerminalModes) : TerminalModes :=
  if csi ∈ EXTENSIONS then modes
  else change csi (if modes.headless then { modes with replies := modes.replies ++ reply modes cursor csi } else modes)

def unhandledOsc (params : List Bytes) (modes : TerminalModes) : TerminalModes :=
  if modes.headless ∧ params[1]? = some (ascii "?") then
    if params[0]? = some (ascii "10") then
      { modes with replies := modes.replies ++ ascii "\x1b]10;rgb:ffff/ffff/ffff\x1b\\" }
    else if params[0]? = some (ascii "11") then
      { modes with replies := modes.replies ++ ascii "\x1b]11;rgb:0000/0000/0000\x1b\\" }
    else modes
  else modes

/-- What changes the modes: the emulator's callbacks, and `publish_output` around them. -/
inductive Callback where
  | csi (cursor : Nat × Nat) (csi : Csi)
  | osc (params : List Bytes)
  | headless (value : Bool)
  | repliesTaken

def after (modes : TerminalModes) : Callback → TerminalModes
  | .csi cursor csi => unhandledCsi cursor csi modes
  | .osc params => unhandledOsc params modes
  | .headless value => { modes with headless := value }
  | .repliesTaken => { modes with replies := [] }

def Reachable (modes : TerminalModes) : Prop := ∃ callbacks : List Callback, callbacks.foldl after {} = modes

/-- The sequences that `restore_modes` sends. -/
inductive Emitted : Csi → Prop
  | style (style : UInt16) : Emitted ⟨some ' ', [[style]], 'q'⟩
  | blink (blink : Bool) : Emitted ⟨some '?', [[12]], if blink then 'h' else 'l'⟩
  | pop : Emitted ⟨some '<', [[16]], 'u'⟩
  | set (flags : UInt16) : Emitted ⟨some '=', [[flags]], 'u'⟩
  | push (flags : UInt16) : Emitted ⟨some '>', [[flags]], 'u'⟩
  | keys (value : UInt16) : Emitted ⟨some '>', [[4], [value]], 'm'⟩
  | focus (focus : Bool) : Emitted ⟨some '?', [[1004]], if focus then 'h' else 'l'⟩

def byteOf (c : Char) : UInt8 := c.toNat.toUInt8

def Csi.text (csi : Csi) : Bytes :=
  [0x3b].intercalate (csi.params.map fun values => [0x3a].intercalate (values.map fun value => decimal value.toNat))

/-- A sequence on the wire: a space stands behind the parameters, any other marker before them. -/
def Csi.bytes (csi : Csi) : Bytes :=
  match csi.i1 with
  | none => [0x1b, 0x5b] ++ csi.text ++ [byteOf csi.command]
  | some ' ' => [0x1b, 0x5b] ++ csi.text ++ [0x20, byteOf csi.command]
  | some marker => [0x1b, 0x5b, byteOf marker] ++ csi.text ++ [byteOf csi.command]

/-- The emulator passes such a sequence to the callback with its parameters, and goes on behind it. The escape
byte can end a query that was left open before, so there may be a reply more. -/
structure Passes {Screen : Type} (vt : Vt100 Screen) : Prop where
  csi : ∀ screen modes csi rest, Emitted csi → ∃ next cursor replies,
    vt.process screen modes (csi.bytes ++ rest) =
      vt.process next (unhandledCsi cursor csi { modes with replies }) rest
  done : ∀ screen modes, (vt.process screen modes []).2 = modes

/-- What the receiving modes are after the bytes of `restore_modes`. -/
structure Restored (source receiver restored : TerminalModes) : Prop where
  kitty : restored.kitty = source.kitty
  stack : restored.stack = source.stack
  depth : restored.stack.length ≤ 16
  modifyKeys : restored.modifyKeys = source.modifyKeys
  focus : restored.focus = source.focus
  cursorStyle : restored.cursorStyle = source.cursorStyle.or receiver.cursorStyle
  cursorBlink : restored.cursorBlink = source.cursorBlink.or receiver.cursorBlink

/-- Values are 16 bits wide, and the stack has a limit. -/
structure Bounded (modes : TerminalModes) : Prop where
  kitty : modes.kitty < 2 ^ 16
  stack : ∀ flags ∈ modes.stack, flags < 2 ^ 16
  depth : modes.stack.length ≤ 16
  modifyKeys : modes.modifyKeys < 2 ^ 16
  cursorStyle : ∀ style, modes.cursorStyle = some style → style ≤ 6

section Callbacks
variable {modes : TerminalModes} {csi : Csi}

theorem Csi.value_lt (csi : Csi) : csi.value < 2 ^ 16 := UInt16.toNat_lt _
theorem Csi.second_lt (csi : Csi) : csi.second < 2 ^ 16 := UInt16.toNat_lt _

theorem Bounded.push (bounded : Bounded modes) {value : Nat} (small : value < 2 ^ 16) :
    Bounded (pushKitty value modes) := by
  have depth := bounded.depth
  refine ⟨small, fun flags member => ?_, ?_, bounded.modifyKeys, bounded.cursorStyle⟩
  · rcases List.mem_append.mp member with before | top
    · split at before
      · exact bounded.stack flags (List.mem_of_mem_tail before)
      · exact bounded.stack flags before
    · rw [List.mem_singleton.mp top]
      exact bounded.kitty
  · show ((if modes.stack.length = 16 then modes.stack.tail else modes.stack) ++ [modes.kitty]).length ≤ 16
    rw [List.length_append, List.length_singleton]
    split
    · rw [List.length_tail]
      omega
    · omega

theorem Bounded.pop (bounded : Bounded modes) : Bounded (popKitty modes) := by
  have depth := bounded.depth
  refine ⟨?_, fun flags member => bounded.stack flags (List.mem_of_mem_dropLast member), ?_, bounded.modifyKeys,
    bounded.cursorStyle⟩
  · show modes.stack.getLast?.getD 0 < 2 ^ 16
    cases last : modes.stack.getLast? with
    | none => decide
    | some flags => exact bounded.stack flags (List.mem_of_getLast? last)
  · show modes.stack.dropLast.length ≤ 16
    rw [List.length_dropLast]
    omega

theorem Bounded.pops (bounded : Bounded modes) (count : Nat) : Bounded (popKitty^[count] modes) := by
  induction count generalizing modes with
  | zero => exact bounded
  | succ count ih => exact ih bounded.pop

theorem Bounded.set (bounded : Bounded modes) {value second : Nat} (small : value < 2 ^ 16) :
    Bounded (setKitty value second modes) := by
  refine ⟨?_, bounded.stack, bounded.depth, bounded.modifyKeys, bounded.cursorStyle⟩
  unfold setKitty
  dsimp only
  split_ifs
  · exact Nat.or_lt_two_pow bounded.kitty small
  · exact Nat.lt_of_le_of_lt Nat.and_le_left bounded.kitty
  · exact small

theorem Bounded.change (bounded : Bounded modes) (csi : Csi) : Bounded (change csi modes) := by
  have value := csi.value_lt
  unfold TerminalModes.change
  split
  · split_ifs with small
    · refine { bounded with cursorStyle := ?_ }
      rintro style ⟨⟩
      exact small
    · exact bounded
  · split_ifs <;> exact { bounded with }
  · split_ifs <;> exact { bounded with }
  · exact bounded.push value
  · exact bounded.pops _
  · exact bounded.set value
  · split_ifs
    · exact { bounded with modifyKeys := csi.second_lt }
    · exact bounded
  · exact bounded

theorem Bounded.after (bounded : Bounded modes) (callback : Callback) : Bounded (after modes callback) := by
  cases callback with
  | csi cursor csi =>
    show Bounded (unhandledCsi cursor csi modes)
    unfold unhandledCsi
    split_ifs
    · exact bounded
    · refine Bounded.change ?_ csi
      exact { bounded with }
    · exact bounded.change csi
  | osc params =>
    show Bounded (unhandledOsc params modes)
    unfold unhandledOsc
    split_ifs <;> exact { bounded with }
  | headless value => exact { bounded with }
  | repliesTaken => exact { bounded with }

theorem Reachable.bounded (reachable : Reachable modes) : Bounded modes := by
  obtain ⟨callbacks, rfl⟩ := reachable
  have start : Bounded {} := ⟨by decide, by simp, by decide, by decide, by simp⟩
  revert start
  generalize ({} : TerminalModes) = modes
  induction callbacks generalizing modes with
  | nil => exact id
  | cons callback rest ih => exact fun start => ih _ (start.after callback)

end Callbacks

/-! The sequences of `restore_modes`, and what they do to the receiving modes. -/

section Restore
variable {modes source receiver : TerminalModes}

def word (n : Nat) : UInt16 := UInt16.ofNat n

def styleCsis : Option Nat → List Csi
  | some style => [⟨some ' ', [[word style]], 'q'⟩]
  | none => []

def blinkCsis : Option Bool → List Csi
  | some blink => [⟨some '?', [[12]], if blink then 'h' else 'l'⟩]
  | none => []

def kittyCsis (kitty : Nat) : List Nat → List Csi
  | initial :: pushed =>
    ⟨some '=', [[word initial]], 'u'⟩ :: (pushed ++ [kitty]).map fun flags => ⟨some '>', [[word flags]], 'u'⟩
  | [] => [⟨some '=', [[word kitty]], 'u'⟩]

def restoreCsis (modes : TerminalModes) : List Csi :=
  styleCsis modes.cursorStyle ++ blinkCsis modes.cursorBlink ++ [⟨some '<', [[16]], 'u'⟩] ++
    kittyCsis modes.kitty modes.stack ++
    [⟨some '>', [[4], [word modes.modifyKeys]], 'm'⟩, ⟨some '?', [[1004]], if modes.focus then 'h' else 'l'⟩]

theorem restoreCsis_emitted {csi : Csi} (member : csi ∈ restoreCsis modes) : Emitted csi := by
  simp only [restoreCsis, List.mem_append, List.mem_cons, List.not_mem_nil, or_false] at member
  rcases member with (((style | blink) | rfl) | kitty) | rfl | rfl
  · cases shape : modes.cursorStyle with
    | none => rw [shape] at style; cases style
    | some value =>
      rw [shape] at style
      rw [List.mem_singleton.mp style]
      exact .style _
  · cases shape : modes.cursorBlink with
    | none => rw [shape] at blink; cases blink
    | some value =>
      rw [shape] at blink
      rw [List.mem_singleton.mp blink]
      exact .blink _
  · exact .pop
  · cases shape : modes.stack with
    | nil =>
      rw [shape] at kitty
      rw [List.mem_singleton.mp kitty]
      exact .set _
    | cons initial pushed =>
      rw [shape] at kitty
      rcases List.mem_cons.mp kitty with rfl | pushes
      · exact .set _
      · obtain ⟨flags, _, rfl⟩ := List.mem_map.mp pushes
        exact .push _
  · exact .keys _
  · exact .focus _

theorem toNat_word {n : Nat} (small : n < 2 ^ 16) : (word n).toNat = n := UInt16.toNat_ofNat_of_lt' small

theorem text_one {i1 : Option Char} {command : Char} {n : Nat} (small : n < 2 ^ 16) :
    Csi.text ⟨i1, [[word n]], command⟩ = decimal n := by
  simp [Csi.text, toNat_word small, List.intercalate]

theorem text_two {i1 : Option Char} {command : Char} {n : Nat} (small : n < 2 ^ 16) :
    Csi.text ⟨i1, [[4], [word n]], command⟩ = ascii "4;" ++ decimal n := by
  simp [Csi.text, toNat_word small, List.intercalate]
  rfl

theorem styleCsis_bytes {style : Nat} (small : style ≤ 6) :
    (styleCsis (some style)).flatMap Csi.bytes = ascii "\x1b[" ++ decimal style ++ ascii " q" := by
  rw [styleCsis, List.flatMap_singleton, Csi.bytes, text_one (by omega)]
  rfl

theorem blinkCsis_bytes (blink : Bool) :
    (blinkCsis (some blink)).flatMap Csi.bytes = ascii "\x1b[?12" ++ ascii (if blink then "h" else "l") := by
  cases blink <;> decide

theorem kittyCsis_bytes {kitty : Nat} (small : kitty < 2 ^ 16) :
    (kittyCsis kitty []).flatMap Csi.bytes = ascii "\x1b[=" ++ decimal kitty ++ ascii "u" := by
  rw [kittyCsis, List.flatMap_singleton, Csi.bytes, text_one small]
  rfl

theorem kittyCsis_cons_bytes {kitty initial : Nat} {pushed : List Nat} (small : kitty < 2 ^ 16)
    (all : ∀ flags ∈ initial :: pushed, flags < 2 ^ 16) :
    (kittyCsis kitty (initial :: pushed)).flatMap Csi.bytes = ascii "\x1b[=" ++ decimal initial ++ ascii "u" ++
      (pushed ++ [kitty]).flatMap fun flags => ascii "\x1b[>" ++ decimal flags ++ ascii "u" := by
  have pushes : ∀ flags ∈ pushed ++ [kitty], Csi.bytes ⟨some '>', [[word flags]], 'u'⟩ =
      ascii "\x1b[>" ++ decimal flags ++ ascii "u" := by
    intro flags member
    have within : flags < 2 ^ 16 := by
      rcases List.mem_append.mp member with before | last
      · exact all flags (List.mem_cons_of_mem _ before)
      · exact List.mem_singleton.mp last ▸ small
    rw [Csi.bytes, text_one within]
    rfl
  rw [kittyCsis, List.flatMap_cons, List.flatMap_map, List.flatMap_congr pushes, Csi.bytes,
    text_one (all initial List.mem_cons_self)]
  rfl

/-- The bytes are those of the sequences. -/
theorem restoreModes_eq (bounded : Bounded modes) : restoreModes modes = (restoreCsis modes).flatMap Csi.bytes := by
  have pop : Csi.bytes ⟨some '<', [[16]], 'u'⟩ = ascii "\x1b[<16u" := by decide
  have keys : Csi.bytes ⟨some '>', [[4], [word modes.modifyKeys]], 'm'⟩ =
      ascii "\x1b[>4;" ++ decimal modes.modifyKeys ++ ascii "m" := by
    rw [Csi.bytes, text_two bounded.modifyKeys]
    rfl
  have focus : Csi.bytes ⟨some '?', [[1004]], if modes.focus then 'h' else 'l'⟩ =
      ascii "\x1b[?1004" ++ ascii (if modes.focus then "h" else "l") := by
    cases modes.focus <;> decide
  have join : ascii "m\x1b[?1004" = ascii "m" ++ ascii "\x1b[?1004" := by decide
  obtain ⟨kitty, stack, depth, modifyKeys, cursorStyle⟩ := bounded
  obtain ⟨headless, replies, flags, levels, value, on, style, blink⟩ := modes
  have all : (restoreCsis ⟨headless, replies, flags, levels, value, on, style, blink⟩).flatMap Csi.bytes =
      (styleCsis style).flatMap Csi.bytes ++ (blinkCsis blink).flatMap Csi.bytes ++ ascii "\x1b[<16u" ++
        (kittyCsis flags levels).flatMap Csi.bytes ++ ascii "\x1b[>4;" ++ decimal value ++ ascii "m\x1b[?1004" ++
        ascii (if on then "h" else "l") := by
    simp only [restoreCsis, List.flatMap_append, List.flatMap_cons, List.flatMap_nil, List.append_nil, pop, keys, focus,
      join, List.append_assoc]
  rw [all]
  unfold restoreModes
  refine congrArg (· ++ _) (congrArg (· ++ _) (congrArg (· ++ _) (congrArg (· ++ _) (congrArg₂ (· ++ ·)
    (congrArg (· ++ _) (congrArg₂ (· ++ ·) ?_ ?_)) ?_))))
  · cases style with
    | none => rfl
    | some style => exact (styleCsis_bytes (cursorStyle style rfl)).symm
  · cases blink with
    | none => rfl
    | some blink => exact (blinkCsis_bytes blink).symm
  · cases levels with
    | nil => exact (kittyCsis_bytes kitty).symm
    | cons initial pushed => exact (kittyCsis_cons_bytes kitty stack).symm

/-- None of them is a query, or one of the extensions. -/
theorem unhandledCsi_emitted {csi : Csi} (emitted : Emitted csi) (cursor : Nat × Nat) :
    unhandledCsi cursor csi modes = change csi modes := by
  have plain : csi ∉ EXTENSIONS ∧ reply modes cursor csi = [] := by
    cases emitted with
    | blink blink => cases blink <;> exact ⟨by decide, rfl⟩
    | focus focus => cases focus <;> exact ⟨by decide, rfl⟩
    | _ => exact ⟨by simp [EXTENSIONS], rfl⟩
  unfold unhandledCsi
  rw [if_neg plain.1, plain.2, List.append_nil, ite_self]

/-- No change depends on the replies. -/
theorem change_replies (csi : Csi) (replies : Bytes) :
    change csi { modes with replies } = { change csi modes with replies } := by
  unfold change
  split
  · split_ifs <;> rfl
  · split_ifs <;> rfl
  · split_ifs <;> rfl
  · rfl
  · have once : Function.Semiconj (fun modes : TerminalModes => { modes with replies }) popKitty popKitty := fun _ => rfl
    exact ((once.iterate_right _).eq modes).symm
  · rfl
  · split_ifs <;> rfl
  · rfl

theorem changes_replies (csis : List Csi) (replies : Bytes) :
    csis.foldl (fun modes csi => change csi modes) { modes with replies } =
      { csis.foldl (fun modes csi => change csi modes) modes with replies } := by
  induction csis generalizing modes with
  | nil => rfl
  | cons csi rest ih => rw [List.foldl_cons, List.foldl_cons, change_replies, ih]

theorem process_emitted {Screen : Type} {vt : Vt100 Screen} (passes : Passes vt) (screen : Screen) (csis : List Csi)
    (emitted : ∀ csi ∈ csis, Emitted csi) : ∃ replies, (vt.process screen modes (csis.flatMap Csi.bytes)).2 =
      { csis.foldl (fun modes csi => change csi modes) modes with replies } := by
  induction csis generalizing screen modes with
  | nil => exact ⟨modes.replies, passes.done screen modes⟩
  | cons csi rest ih =>
    have first := emitted csi List.mem_cons_self
    obtain ⟨next, cursor, replies, passed⟩ := passes.csi screen modes csi (rest.flatMap Csi.bytes) first
    obtain ⟨replies', processed⟩ := @ih (change csi { modes with replies }) next
      fun csi member => emitted csi (List.mem_cons_of_mem _ member)
    refine ⟨replies', ?_⟩
    rw [List.flatMap_cons, passed, unhandledCsi_emitted first, processed, List.foldl_cons, change_replies, changes_replies]

theorem change_style (style : Option Nat) (small : ∀ value, style = some value → value ≤ 6) :
    (styleCsis style).foldl (fun modes csi => change csi modes) modes =
      { modes with cursorStyle := style.or modes.cursorStyle } := by
  cases style with
  | none => rfl
  | some style =>
    have within := small style rfl
    have value : Csi.value ⟨some ' ', [[word style]], 'q'⟩ = style := toNat_word (by omega)
    simp [styleCsis, change, value, within]

theorem change_blink (blink : Option Bool) :
    (blinkCsis blink).foldl (fun modes csi => change csi modes) modes =
      { modes with cursorBlink := blink.or modes.cursorBlink } := by
  cases blink with
  | none => rfl
  | some blink => cases blink <;> rfl

/-- As many pops as there are entries leave none. -/
theorem pops_empty (count : Nat) (enough : modes.stack.length ≤ count) :
    ∃ kitty, popKitty^[count] modes = { modes with stack := [], kitty } := by
  induction count generalizing modes with
  | zero =>
    refine ⟨modes.kitty, ?_⟩
    rw [← List.eq_nil_of_length_eq_zero (Nat.le_zero.mp enough)]
    rfl
  | succ count ih =>
    have fewer : (popKitty modes).stack.length ≤ count := by
      show modes.stack.dropLast.length ≤ count
      rw [List.length_dropLast]
      omega
    obtain ⟨kitty, popped⟩ := ih fewer
    exact ⟨kitty, popped⟩

/-- Pushes put the flags and the values on top of each other, as long as they fit. -/
theorem pushes_stack (pushed : List Nat) (small : ∀ flags ∈ pushed, flags < 2 ^ 16)
    (fits : modes.stack.length + pushed.length ≤ 16) : ∃ stack kitty,
      (pushed.map fun flags => (⟨some '>', [[word flags]], 'u'⟩ : Csi)).foldl (fun modes csi => change csi modes) modes =
        { modes with stack, kitty } ∧ stack ++ [kitty] = modes.stack ++ [modes.kitty] ++ pushed := by
  induction pushed generalizing modes with
  | nil => exact ⟨modes.stack, modes.kitty, rfl, by rw [List.append_nil]⟩
  | cons flags rest ih =>
    rw [List.length_cons] at fits
    have value : Csi.value ⟨some '>', [[word flags]], 'u'⟩ = flags := toNat_word (small flags List.mem_cons_self)
    have first : change ⟨some '>', [[word flags]], 'u'⟩ modes =
        { modes with stack := modes.stack ++ [modes.kitty], kitty := flags } := by
      show pushKitty _ modes = _
      rw [value, pushKitty, if_neg (by omega)]
    rw [List.map_cons, List.foldl_cons, first]
    obtain ⟨stack, kitty, pushes, whole⟩ := @ih { modes with stack := modes.stack ++ [modes.kitty], kitty := flags }
      (fun flags member => small flags (List.mem_cons_of_mem _ member))
      (by rw [List.length_append, List.length_singleton]; omega)
    refine ⟨stack, kitty, pushes, whole.trans ?_⟩
    rw [List.append_assoc, List.append_assoc, List.append_assoc]
    rfl

theorem change_kitty (bounded : Bounded source) (empty : modes.stack = []) :
    (kittyCsis source.kitty source.stack).foldl (fun modes csi => change csi modes) modes =
      { modes with stack := source.stack, kitty := source.kitty } := by
  cases shape : source.stack with
  | nil =>
    show setKitty (word source.kitty).toNat 1 modes = _
    rw [toNat_word bounded.kitty, ← empty]
    rfl
  | cons initial pushed =>
    have all := bounded.stack
    have depth := bounded.depth
    rw [shape] at all depth
    have small : ∀ flags ∈ pushed ++ [source.kitty], flags < 2 ^ 16 := by
      intro flags member
      rcases List.mem_append.mp member with before | last
      · exact all flags (List.mem_cons_of_mem _ before)
      · exact List.mem_singleton.mp last ▸ bounded.kitty
    have first : change ⟨some '=', [[word initial]], 'u'⟩ modes = { modes with kitty := initial } := by
      show setKitty (word initial).toNat 1 modes = _
      rw [toNat_word (all initial List.mem_cons_self)]
      rfl
    rw [kittyCsis, List.foldl_cons, first]
    obtain ⟨stack, kitty, pushes, whole⟩ := @pushes_stack { modes with kitty := initial } _ small (by
      rw [empty, List.length_append, List.length_singleton]
      rw [List.length_cons] at depth
      show 0 + _ ≤ 16
      omega)
    obtain ⟨rfl, last⟩ := List.append_inj' (whole.trans (show _ = initial :: pushed ++ [source.kitty] by
      rw [empty]; rfl)) rfl
    rw [pushes, List.singleton_inj.mp last]

theorem restoreCsis_restores (source receiver : TerminalModes) (bounded : Bounded source) (bounded' : Bounded receiver) :
    Restored source receiver ((restoreCsis source).foldl (fun modes csi => change csi modes) receiver) := by
  have pop (modes : TerminalModes) : change ⟨some '<', [[16]], 'u'⟩ modes = popKitty^[16] modes := rfl
  have keys (modes : TerminalModes) : change ⟨some '>', [[4], [word source.modifyKeys]], 'm'⟩ modes =
      { modes with modifyKeys := source.modifyKeys } := by
    show { modes with modifyKeys := (word source.modifyKeys).toNat } = _
    rw [toNat_word bounded.modifyKeys]
  have focus (modes : TerminalModes) : change ⟨some '?', [[1004]], if source.focus then 'h' else 'l'⟩ modes =
      { modes with focus := source.focus } := by
    cases source.focus <;> rfl
  obtain ⟨kitty, popped⟩ := @pops_empty { receiver with
    cursorStyle := source.cursorStyle.or receiver.cursorStyle
    cursorBlink := source.cursorBlink.or receiver.cursorBlink } 16 bounded'.depth
  simp only [restoreCsis, List.foldl_append, List.foldl_cons, List.foldl_nil]
  rw [change_style source.cursorStyle bounded.cursorStyle, change_blink, pop, popped, change_kitty bounded rfl, keys, focus]
  exact ⟨rfl, rfl, bounded.depth, rfl, rfl, rfl, rfl⟩

end Restore

/-- A terminal in any modes has those of another after the bytes that restore them. -/
theorem restore_modes_restores {Screen : Type} (vt : Vt100 Screen) (passes : Passes vt) (screen : Screen)
    (source receiver : TerminalModes) (reached : Reachable source) (reached' : Reachable receiver) :
    Restored source receiver (vt.process screen receiver (restoreModes source)).2 := by
  obtain ⟨replies, processed⟩ :=
    @process_emitted receiver _ vt passes screen (restoreCsis source) fun _ member => restoreCsis_emitted member
  rw [restoreModes_eq reached.bounded, processed]
  exact { restoreCsis_restores source receiver reached.bounded reached'.bounded with }

/-! A small emulator: it knows the control sequences and nothing else. -/

section Scanner

/-- Where the emulator is in a sequence. -/
inductive Scan where
  | ground
  | escape
  | sequence (read : Bytes)

def number (digits : Bytes) : UInt16 := word (Nat.ofDigitChars 10 (digits.map fun b => Char.ofNat b.toNat) 0)

def readParams (text : Bytes) : List (List UInt16) :=
  (text.splitOn 0x3b).map fun values => (values.splitOn 0x3a).map number

def readCsi (read : Bytes) (command : UInt8) : Csi :=
  let command := Char.ofNat command.toNat
  match read with
  | marker :: rest =>
    if 0x3c ≤ marker then ⟨some (Char.ofNat marker.toNat), readParams rest, command⟩
    else if (marker :: rest).getLast? = some 0x20 then ⟨some ' ', readParams (marker :: rest).dropLast, command⟩
    else ⟨none, readParams (marker :: rest), command⟩
  | [] => ⟨none, [], command⟩

def scan : Scan × TerminalModes → UInt8 → Scan × TerminalModes
  | (state, modes), b =>
    if b = 0x1b then (.escape, modes)
    else match state with
      | .ground => (.ground, modes)
      | .escape => if b = 0x5b then (.sequence [], modes) else (.ground, modes)
      | .sequence read =>
        if 0x40 ≤ b then (.ground, unhandledCsi (0, 0) (readCsi read b) modes) else (.sequence (read ++ [b]), modes)

def scanner : Vt100 Scan where
  new _ _ _ := .ground
  size _ := (0, 0)
  setSize screen _ _ := screen
  process screen modes bytes := bytes.foldl scan (screen, modes)
  plain screen _ := screen
  alternateScreen _ := false
  stateDiff _ _ := []
  appendScreen _ := []

theorem digit_char {c : Char} {n : Nat} (member : c ∈ n.repr.toList) :
    c.toNat.toUInt8.toNat = c.toNat ∧ 0x30 ≤ c.toNat ∧ c.toNat ≤ 0x39 := by
  rw [Nat.toList_repr] at member
  have digit := Nat.isDigit_of_mem_toDigits (by decide) (by decide) member
  simp only [Char.isDigit, ge_iff_le, Bool.and_eq_true, decide_eq_true_eq, UInt32.le_iff_toNat_le] at digit
  have least : 0x30 ≤ c.toNat := digit.1
  have largest : c.toNat ≤ 0x39 := digit.2
  refine ⟨?_, least, largest⟩
  rw [Nat.toUInt8, UInt8.toNat_ofNat', Nat.mod_eq_of_lt (by omega)]

theorem digit_byte {b : UInt8} {n : Nat} (member : b ∈ decimal n) : 0x30 ≤ b ∧ b ≤ 0x39 := by
  obtain ⟨c, digit, rfl⟩ := List.mem_map.mp member
  obtain ⟨value, least, largest⟩ := digit_char digit
  rw [UInt8.le_iff_toNat_le, UInt8.le_iff_toNat_le, value]
  exact ⟨least, largest⟩

theorem number_decimal (value : UInt16) : number (decimal value.toNat) = value := by
  have chars : (decimal value.toNat).map (fun b => Char.ofNat b.toNat) = value.toNat.repr.toList := by
    unfold decimal ascii
    rw [List.map_map, List.map_congr_left, List.map_id]
    intro c digit
    show Char.ofNat c.toNat.toUInt8.toNat = c
    rw [(digit_char digit).1, Char.ofNat_toNat]
  rw [number, chars, Nat.toList_repr, Nat.ofDigitChars_ten_toDigits, word, UInt16.ofNat_toNat]

theorem mem_intercalate {b separator : UInt8} {parts : List Bytes} (member : b ∈ [separator].intercalate parts) :
    b = separator ∨ ∃ part ∈ parts, b ∈ part := by
  induction parts with
  | nil => cases member
  | cons part rest ih =>
    cases rest with
    | nil => exact .inr ⟨part, List.mem_cons_self, by simpa [List.intercalate] using member⟩
    | cons next rest =>
      rw [List.intercalate_cons_cons, List.append_assoc, List.mem_append, List.mem_append, List.mem_singleton] at member
      rcases member with here | separates | later
      · exact .inr ⟨part, List.mem_cons_self, here⟩
      · exact .inl separates
      · rcases ih later with separates | ⟨part, found, inside⟩
        · exact .inl separates
        · exact .inr ⟨part, List.mem_cons_of_mem _ found, inside⟩

/-- The bytes between the numbers are a colon and a semicolon. -/
theorem values_byte {b : UInt8} {values : List UInt16}
    (member : b ∈ [0x3a].intercalate (values.map fun value => decimal value.toNat)) : 0x30 ≤ b ∧ b ≤ 0x3a := by
  rcases mem_intercalate member with rfl | ⟨part, found, inside⟩
  · decide
  · obtain ⟨value, _, rfl⟩ := List.mem_map.mp found
    have digit := digit_byte inside
    exact ⟨digit.1, UInt8.le_trans digit.2 (by decide)⟩

theorem text_byte {b : UInt8} {csi : Csi} (member : b ∈ csi.text) : 0x30 ≤ b ∧ b ≤ 0x3b := by
  rcases mem_intercalate member with rfl | ⟨part, found, inside⟩
  · decide
  · obtain ⟨values, _, rfl⟩ := List.mem_map.mp found
    have byte := values_byte inside
    exact ⟨byte.1, UInt8.le_trans byte.2 (by decide)⟩

theorem readParams_text (csi : Csi) (some' : csi.params ≠ []) (each : ∀ values ∈ csi.params, values ≠ []) :
    readParams csi.text = csi.params := by
  have semicolons : ∀ part ∈ csi.params.map fun values => [0x3a].intercalate (values.map fun value => decimal value.toNat),
      0x3b ∉ part := by
    intro part found inside
    obtain ⟨values, _, rfl⟩ := List.mem_map.mp found
    exact absurd (values_byte inside).2 (by decide)
  have colons (values : List UInt16) : ∀ part ∈ values.map fun value => decimal value.toNat, 0x3a ∉ part := by
    intro part found inside
    obtain ⟨value, _, rfl⟩ := List.mem_map.mp found
    exact absurd (digit_byte inside).2 (by decide)
  unfold readParams Csi.text
  rw [List.splitOn_intercalate _ semicolons (by simpa using some'), List.map_map, List.map_congr_left, List.map_id]
  intro values found
  show (([0x3a].intercalate (values.map fun value => decimal value.toNat)).splitOn 0x3a).map number = values
  rw [List.splitOn_intercalate _ (colons values) (by simpa using each values found), List.map_map, List.map_congr_left,
    List.map_id]
  exact fun value _ => number_decimal value

/-- Parameter bytes are read up to the command. -/
theorem scan_sequence {text read : Bytes} (inside : ∀ b ∈ text, b < 0x40 ∧ b ≠ 0x1b) (modes : TerminalModes)
    (command : UInt8) (final : 0x40 ≤ command) :
    (text ++ [command]).foldl scan (.sequence read, modes) =
      (.ground, unhandledCsi (0, 0) (readCsi (read ++ text) command) modes) := by
  have last : command ≠ 0x1b := by rintro rfl; exact absurd final (by decide)
  induction text generalizing read with
  | nil =>
    rw [List.append_nil]
    exact (if_neg last).trans (if_pos final)
  | cons b rest ih =>
    obtain ⟨low, plain⟩ := inside b List.mem_cons_self
    have first : scan (.sequence read, modes) b = (.sequence (read ++ [b]), modes) :=
      (if_neg plain).trans (if_neg (UInt8.not_le.mpr low))
    rw [List.cons_append, List.foldl_cons, first, ih fun b member => inside b (List.mem_cons_of_mem _ member),
      List.append_assoc]
    rfl

theorem readCsi_marker (marker : UInt8) (text : Bytes) (command : UInt8) (high : 0x3c ≤ marker) :
    readCsi (marker :: text) command =
      ⟨some (Char.ofNat marker.toNat), readParams text, Char.ofNat command.toNat⟩ := if_pos high

theorem readCsi_space (text : Bytes) (command : UInt8) (low : ∀ b ∈ text, b ≤ 0x3b) :
    readCsi (text ++ [0x20]) command = ⟨some ' ', readParams text, Char.ofNat command.toNat⟩ := by
  obtain ⟨b, rest, shape, small⟩ : ∃ b rest, text ++ [0x20] = b :: rest ∧ b ≤ 0x3b := by
    cases text with
    | nil => exact ⟨0x20, [], rfl, by decide⟩
    | cons b rest => exact ⟨b, rest ++ [0x20], rfl, low b List.mem_cons_self⟩
  have space : (text ++ [0x20]).getLast? = some 0x20 := List.getLast?_concat
  have front : (text ++ [0x20]).dropLast = text := List.dropLast_concat
  rw [shape] at space front ⊢
  have unmarked : ¬(0x3c ≤ b) := fun high => absurd (UInt8.le_trans high small) (by decide)
  exact ((if_neg unmarked).trans (if_pos space)).trans (by rw [front])

/-- A sequence that the emulator reads back from its bytes. -/
def Csi.Scanned (csi : Csi) : Prop := ∃ middle,
  csi.bytes = 0x1b :: 0x5b :: (middle ++ [byteOf csi.command]) ∧ (∀ b ∈ middle, b < 0x40 ∧ b ≠ 0x1b) ∧
    0x40 ≤ byteOf csi.command ∧ readCsi middle (byteOf csi.command) = csi

theorem scanned_of_emitted {csi : Csi} (emitted : Emitted csi) : csi.Scanned := by
  have inner {b : UInt8} (member : b ∈ csi.text) : b < 0x40 ∧ b ≠ 0x1b := by
    have byte := text_byte member
    refine ⟨UInt8.lt_of_le_of_lt byte.2 (by decide), ?_⟩
    rintro rfl
    exact absurd byte.1 (by decide)
  have filled : ∀ values ∈ csi.params, values ≠ [] := by
    rintro values found rfl
    cases emitted <;> simp only [List.mem_cons, List.not_mem_nil, reduceCtorEq, or_self] at found
  have params : readParams csi.text = csi.params :=
    readParams_text csi (by cases emitted <;> exact List.cons_ne_nil _ _) filled
  have command : 0x40 ≤ byteOf csi.command ∧ Char.ofNat (byteOf csi.command).toNat = csi.command := by
    have u : 0x40 ≤ byteOf 'u' ∧ Char.ofNat (byteOf 'u').toNat = 'u' := by decide
    cases emitted with
    | style => exact (by decide : 0x40 ≤ byteOf 'q' ∧ Char.ofNat (byteOf 'q').toNat = 'q')
    | blink blink => cases blink <;> decide
    | pop => exact u
    | set => exact u
    | push => exact u
    | keys => exact (by decide : 0x40 ≤ byteOf 'm' ∧ Char.ofNat (byteOf 'm').toNat = 'm')
    | focus focus => cases focus <;> decide
  have marked (marker : UInt8) (high : 0x3c ≤ marker ∧ marker < 0x40) (is : csi.i1 = some (Char.ofNat marker.toNat))
      (bytes : csi.bytes = 0x1b :: 0x5b :: (marker :: csi.text ++ [byteOf csi.command])) : csi.Scanned := by
    refine ⟨marker :: csi.text, bytes, fun b member => ?_, command.1, ?_⟩
    · rcases List.mem_cons.mp member with rfl | member
      · refine ⟨high.2, ?_⟩
        rintro rfl
        exact absurd high.1 (by decide)
      · exact inner member
    · rw [readCsi_marker marker _ _ high.1, params, command.2, ← is]
  have spaced (is : csi.i1 = some ' ')
      (bytes : csi.bytes = 0x1b :: 0x5b :: (csi.text ++ [0x20, byteOf csi.command])) : csi.Scanned := by
    refine ⟨csi.text ++ [0x20], ?_, fun b member => ?_, command.1, ?_⟩
    · rw [bytes, List.append_assoc]
      rfl
    · rcases List.mem_append.mp member with digit | space
      · exact inner digit
      · rw [List.mem_singleton.mp space]
        decide
    · rw [readCsi_space _ _ fun b member => (text_byte member).2, params, command.2, ← is]
  cases emitted with
  | style style => exact spaced rfl rfl
  | blink blink => exact marked 0x3f (by decide) rfl rfl
  | pop => exact marked 0x3c (by decide) rfl rfl
  | set flags => exact marked 0x3d (by decide) rfl rfl
  | push flags => exact marked 0x3e (by decide) rfl rfl
  | keys value => exact marked 0x3e (by decide) rfl rfl
  | focus focus => exact marked 0x3f (by decide) rfl rfl

theorem scanner_passes : Passes scanner where
  csi screen modes csi rest emitted := by
    obtain ⟨middle, bytes, inside, final, read⟩ := scanned_of_emitted emitted
    refine ⟨.ground, (0, 0), modes.replies, ?_⟩
    show (csi.bytes ++ rest).foldl scan (screen, modes) = rest.foldl scan (.ground, unhandledCsi (0, 0) csi modes)
    have entered : scan (scan (screen, modes) 0x1b) 0x5b = (.sequence [], modes) := rfl
    rw [bytes, List.foldl_append, List.foldl_cons, List.foldl_cons, entered, scan_sequence inside modes _ final,
      List.nil_append, read]
  done _ _ := rfl

end Scanner

/-- A program that pushed twice, seen by a terminal that was at five levels. -/
theorem pushed_restores : Restored { stack := [0, 3], kitty := 5, modifyKeys := 2, cursorBlink := some false }
    { stack := [0, 1, 1, 1, 1], kitty := 1, cursorStyle := some 2 }
    (scanner.process .ground { stack := [0, 1, 1, 1, 1], kitty := 1, cursorStyle := some 2 }
      (restoreModes { stack := [0, 3], kitty := 5, modifyKeys := 2, cursorBlink := some false })).2 :=
  restore_modes_restores scanner scanner_passes .ground _ _
    ⟨[.csi (0, 0) ⟨some '>', [[3]], 'u'⟩, .csi (0, 0) ⟨some '>', [[5]], 'u'⟩, .csi (0, 0) ⟨some '>', [[4], [2]], 'm'⟩,
      .csi (0, 0) ⟨some '?', [[12]], 'l'⟩], by decide⟩
    ⟨List.replicate 5 (.csi (0, 0) ⟨some '>', [[1]], 'u'⟩) ++ [.csi (0, 0) ⟨some ' ', [[2]], 'q'⟩], by decide⟩

end Pbox.Agent.TerminalModes
