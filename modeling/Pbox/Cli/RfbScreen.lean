import Pbox.Cli.Rfb
import Pbox.Lib.FixedBuffer
import Pbox.Lib.Transition

/-! `screen`: a whole picture of the desktop, put together from raw rectangles as they come. Every rectangle overwrites
what was there, a map remembers which pixels have been written, and a counter how many have not. -/

namespace Pbox.Cli.RfbScreen
open Pbox.Lib.Strings Pbox.Lib.Numerals Pbox.Lib.Effects Pbox.Lib.FixedBuffer Pbox.Lib.Transition Pbox.Cli.Rfb

structure Rect where
  x : Nat
  y : Nat
  w : Nat
  h : Nat
  deriving DecidableEq

/-- What the loops are about to do: read a message, read the header of a rectangle (with how many there are still), read
a row of one, or nothing more. -/
inductive Pc where
  | message
  | rectangles (left : Nat)
  | row (rect : Rect) (done left : Nat)
  | returned
  | failed (failure : Failure)
  deriving DecidableEq

/-- A rectangle with the rows of it that have come. -/
structure Drawn where
  rect : Rect
  rows : List Bytes
  deriving DecidableEq

/-- `drawn` records the rectangles, in the order in which they came. -/
structure Screen (width height : Nat) where
  pc : Pc
  incoming : Bytes
  rgba : Buffer UInt8 (width * height * 4)
  covered : Buffer Bool (width * height)
  remaining : Nat
  drawn : List Drawn

/-- The loop over a row of the map; the counter must not go below zero. -/
def mark : List Bool → Nat → Option (List Bool × Nat)
  | [], remaining => some ([], remaining)
  | true :: rest, remaining => (mark rest remaining).map fun marked => (true :: marked.1, marked.2)
  | false :: _, 0 => none
  | false :: rest, remaining + 1 => (mark rest remaining).map fun marked => (true :: marked.1, marked.2)

/-- An `i32` by its bytes. -/
def signed32 (value : Nat) : Int := if value < 2 ^ 31 then value else value - 2 ^ 32

def unsupportedMessage (kind : Nat) : Text := "unsupported VNC server message ".toList ++ showNat kind
def unsupportedEncoding (encoding : Int) : Text := "unsupported VNC encoding ".toList ++ showInt encoding
def INVALID_RECTANGLE : Text := "invalid VNC rectangle".toList
def OVERSIZED_TEXT : Text := "oversized VNC text message".toList

/-- The rectangle and the encoding of a header of twelve bytes. -/
def header (bytes : Bytes) : Rect × Int :=
  ({ x := bigEndian (bytes.take 2)
     y := bigEndian ((bytes.drop 2).take 2)
     w := bigEndian ((bytes.drop 4).take 2)
     h := bigEndian ((bytes.drop 6).take 2) },
   signed32 (bigEndian (bytes.drop 8)))

/-- The next row comes to the last rectangle. -/
def addRow (row : Bytes) (drawn : List Drawn) : List Drawn :=
  match drawn.getLast? with
  | some last => drawn.dropLast ++ [{ last with rows := last.rows ++ [row] }]
  | none => drawn

section Step
variable {width height : Nat}

def Screen.fails (s : Screen width height) (failure : Failure) : Screen width height :=
  { s with pc := .failed failure }

def Screen.eof (s : Screen width height) : Screen width height := s.fails (.connection UNEXPECTED_EOF)

def stepMessage (s : Screen width height) : Screen width height :=
  match split 1 s.incoming with
  | none => s.eof
  | some (kind, rest) =>
    match bigEndian kind with
    | 0 =>
      match split 3 rest with
      | none => s.eof
      | some (bytes, rest) => { s with pc := .rectangles (bigEndian (bytes.drop 1)), incoming := rest }
    | 2 => { s with incoming := rest }
    | 3 =>
      match split 7 rest with
      | none => s.eof
      | some (bytes, rest) =>
        let size := bigEndian (bytes.drop 3)
        if size ≤ MAX_TEXT then
          match split size rest with
          | none => s.eof
          | some (_, rest) => { s with incoming := rest }
        else s.fails (.message OVERSIZED_TEXT)
    | kind => s.fails (.message (unsupportedMessage kind))

/-- The header of the next rectangle of an update. -/
def nextRectangle (s : Screen width height) (left : Nat) : Screen width height :=
  match split 12 s.incoming with
  | none => s.eof
  | some (bytes, rest) =>
    let rect := (header bytes).1
    let encoding := (header bytes).2
    if encoding ≠ 0 then s.fails (.message (unsupportedEncoding encoding))
    else if 0 < rect.w ∧ 0 < rect.h ∧ rect.x + rect.w ≤ width ∧ rect.y + rect.h ≤ height then
      { s with pc := .row rect 0 left, incoming := rest, drawn := s.drawn ++ [⟨rect, []⟩] }
    else s.fails (.message INVALID_RECTANGLE)

def stepRectangle (s : Screen width height) : Nat → Screen width height
  | 0 => { s with pc := if s.remaining = 0 then .returned else .message }
  | left + 1 => nextRectangle s left

/-- A row goes into the picture and into the map; a range that is out of bounds, or a counter below zero, panics. -/
def paint (s : Screen width height) (start : Nat) (row : Bytes) (w : Nat) :
    Option (Buffer UInt8 (width * height * 4) × Buffer Bool (width * height) × Nat) := do
  let rgba ← s.rgba.overwrite (start * 4) row
  let seen ← s.covered.slice start w
  let (seen, remaining) ← mark seen s.remaining
  let covered ← s.covered.overwrite start seen
  return (rgba, covered, remaining)

def stepRow (s : Screen width height) (rect : Rect) (done left : Nat) : Screen width height :=
  if done = rect.h then { s with pc := .rectangles left }
  else
    let start := (rect.y + done) * width + rect.x
    match s.rgba.slice (start * 4) (rect.w * 4) with
    | none => s.fails .panic
    | some _ =>
      match split (rect.w * 4) s.incoming with
      | none => s.eof
      | some (row, rest) =>
        match paint s start row rect.w with
        | none => s.fails .panic
        | some (rgba, covered, remaining) =>
          { pc := .row rect (done + 1) left, incoming := rest, rgba, covered, remaining, drawn := addRow row s.drawn }

/-- The next step, as long as there is one. -/
def step (s : Screen width height) : Option (Screen width height) :=
  match s.pc with
  | .message => some (stepMessage s)
  | .rectangles left => some (stepRectangle s left)
  | .row rect done left => some (stepRow s rect done left)
  | .returned => none
  | .failed _ => none

def start (width height : Nat) (incoming : Bytes) : Screen width height where
  pc := .message
  incoming
  rgba := Buffer.fill _ 0
  covered := Buffer.fill _ false
  remaining := width * height
  drawn := []

def system (width height : Nat) (incoming : Bytes) : System (Screen width height) Unit where
  init s := s = start width height incoming
  step s _ := step s

def run : Nat → Screen width height → Screen width height
  | 0, s => s
  | fuel + 1, s =>
    match step s with
    | none => s
    | some next => run fuel next

end Step

/-- More steps than the screen takes with an input. -/
def enough (incoming : Bytes) : Nat := 3 * incoming.length + 1

def updateRequest (client : Client) : Bytes :=
  [3, 0, 0, 0, 0, 0] ++ toBeBytes client.width ++ toBeBytes client.height

def screen (client : Client) : Io Bytes := do
  writeAll (updateRequest client)
  let connection ← get
  let s := run (enough connection.incoming) (start client.width.toNat client.height.toNat connection.incoming)
  set { connection with incoming := s.incoming }
  match s.pc with
  | .returned => return s.rgba.items
  | .failed failure => throw failure
  | _ => throw .panic

/-! What has been drawn. -/

def Rect.contains (rect : Rect) (x y : Nat) : Prop :=
  rect.x ≤ x ∧ x < rect.x + rect.w ∧ rect.y ≤ y ∧ y < rect.y + rect.h

instance (rect : Rect) (x y : Nat) : Decidable (rect.contains x y) := inferInstanceAs (Decidable (_ ∧ _))

/-- The bytes that a rectangle has for a pixel, if that row of it has come. -/
def Drawn.colour (drawn : Drawn) (x y : Nat) : Option Bytes :=
  if drawn.rect.contains x y then
    drawn.rows[y - drawn.rect.y]?.map fun row => (row.drop ((x - drawn.rect.x) * 4)).take 4
  else none

/-- The bytes of the last rectangle that covers a pixel. -/
def lastColour (drawn : List Drawn) (x y : Nat) : Option Bytes := drawn.reverse.findSome? (·.colour x y)

/-- The four bytes of a pixel in a picture. -/
def pixel (width : Nat) (rgba : Bytes) (x y : Nat) : Bytes := (rgba.drop ((y * width + x) * 4)).take 4

/-- How many pixels no rectangle has covered yet. -/
def unwritten (width height : Nat) (drawn : List Drawn) : Nat :=
  (List.range (width * height)).countP fun i => (lastColour drawn (i % width) (i / width)).isNone

structure Drawn.Fits (width height : Nat) (drawn : Drawn) : Prop where
  solid : 0 < drawn.rect.w
  wide : drawn.rect.x + drawn.rect.w ≤ width
  tall : drawn.rect.y + drawn.rect.h ≤ height
  rows : drawn.rows.length ≤ drawn.rect.h
  row : ∀ row ∈ drawn.rows, row.length = drawn.rect.w * 4

section Lemmas
variable {width height : Nat}

theorem lastColour_append (drawn : List Drawn) (last : Drawn) (x y : Nat) :
    lastColour (drawn ++ [last]) x y = (last.colour x y).or (lastColour drawn x y) := by
  unfold lastColour
  rw [List.reverse_append, List.reverse_singleton, List.singleton_append, List.findSome?_cons]
  cases last.colour x y <;> rfl

theorem colour_empty (rect : Rect) (x y : Nat) : Drawn.colour ⟨rect, []⟩ x y = none := by
  unfold Drawn.colour
  split <;> rfl

theorem addRow_append (row : Bytes) (drawn : List Drawn) (rect : Rect) (rows : List Bytes) :
    addRow row (drawn ++ [⟨rect, rows⟩]) = drawn ++ [⟨rect, rows ++ [row]⟩] := by
  unfold addRow
  rw [List.getLast?_concat, List.dropLast_concat]

/-- Whether a pixel is in a row of a rectangle. -/
def Rect.inRow (rect : Rect) (done x y : Nat) : Prop := rect.x ≤ x ∧ x < rect.x + rect.w ∧ y = rect.y + done

instance (rect : Rect) (done x y : Nat) : Decidable (rect.inRow done x y) := inferInstanceAs (Decidable (_ ∧ _))

/-- A row changes what a rectangle has for the pixels in it, and for no others. -/
theorem colour_addRow {rect : Rect} {rows : List Bytes} (row : Bytes) (room : rows.length < rect.h) (x y : Nat) :
    Drawn.colour ⟨rect, rows ++ [row]⟩ x y =
      if rect.inRow rows.length x y then some ((row.drop ((x - rect.x) * 4)).take 4)
      else Drawn.colour ⟨rect, rows⟩ x y := by
  unfold Drawn.colour
  dsimp only
  by_cases inside : rect.contains x y
  · rw [if_pos inside, if_pos inside]
    have covers := inside
    unfold Rect.contains at covers
    by_cases here : rect.inRow rows.length x y
    · have index : y - rect.y = rows.length := by
        unfold Rect.inRow at here
        omega
      rw [if_pos here, index, List.getElem?_concat_length]
      rfl
    · have index : y - rect.y ≠ rows.length := by
        unfold Rect.inRow at here
        omega
      rw [if_neg here]
      congr 1
      by_cases earlier : y - rect.y < rows.length
      · exact List.getElem?_append_left earlier
      · rw [List.getElem?_eq_none (by rw [List.length_append, List.length_singleton]; omega),
          List.getElem?_eq_none (by omega)]
  · rw [if_neg inside, if_neg inside]
    have apart : ¬ rect.inRow rows.length x y := by
      unfold Rect.inRow
      unfold Rect.contains at inside
      omega
    rw [if_neg apart]

/-- The pixels of a row follow each other in the picture, and no pixel of another row is between them. -/
theorem index_in_row {x y w rx ry : Nat} (column : x < width) (fits : rx + w ≤ width) :
    (ry * width + rx ≤ y * width + x ∧ y * width + x < ry * width + rx + w) ↔ rx ≤ x ∧ x < rx + w ∧ y = ry := by
  constructor
  · intro between
    obtain ⟨above, below⟩ := between
    have same : y = ry := by
      by_contra different
      by_cases before : y < ry
      · have rows : (y + 1) * width ≤ ry * width := Nat.mul_le_mul_right width before
        rw [Nat.succ_mul] at rows
        omega
      · have rows : (ry + 1) * width ≤ y * width := Nat.mul_le_mul_right width (by omega)
        rw [Nat.succ_mul] at rows
        omega
    subst same
    omega
  · intro inside
    obtain ⟨left, right, same⟩ := inside
    subst same
    omega

/-- A row inside the desktop ends inside the picture. -/
theorem row_fits {x y w : Nat} (wide : x + w ≤ width) (tall : y < height) : y * width + x + w ≤ width * height := by
  have rows : (y + 1) * width ≤ height * width := Nat.mul_le_mul_right width tall
  rw [Nat.succ_mul, Nat.mul_comm height] at rows
  omega

theorem mark_eq (seen : List Bool) (remaining : Nat) :
    mark seen remaining =
      if seen.count false ≤ remaining then some (List.replicate seen.length true, remaining - seen.count false)
      else none := by
  induction seen generalizing remaining with
  | nil => simp [mark]
  | cons first rest ih =>
    cases first with
    | true =>
      rw [mark, ih, List.count_cons_of_ne (by decide)]
      split <;> rfl
    | false =>
      rw [List.count_cons_self]
      cases remaining with
      | zero => rfl
      | succ remaining =>
        rw [mark, ih]
        by_cases enough : rest.count false ≤ remaining
        · rw [if_pos enough, if_pos (Nat.succ_le_succ enough), Nat.add_sub_add_right]
          rfl
        · rw [if_neg enough, if_neg fun more => enough (Nat.le_of_succ_le_succ more)]
          rfl

/-- The invariant of the loops: the map, the counter and the picture agree with what has been drawn. -/
structure Inv (s : Screen width height) : Prop where
  fits : ∀ drawn ∈ s.drawn, drawn.Fits width height
  place : ∀ rect done left, s.pc = .row rect done left →
    ∃ before rows, s.drawn = before ++ [⟨rect, rows⟩] ∧ rows.length = done ∧
      ∀ drawn ∈ before, drawn.rows.length = drawn.rect.h
  whole : (∀ rect done left, s.pc ≠ .row rect done left) → (∀ failure, s.pc ≠ .failed failure) →
    ∀ drawn ∈ s.drawn, drawn.rows.length = drawn.rect.h
  map : ∀ x y, x < width → y < height → s.covered.items[y * width + x]? = some (lastColour s.drawn x y).isSome
  counter : s.remaining = s.covered.items.count false
  picture : ∀ x y colour, x < width → y < height → lastColour s.drawn x y = some colour →
    pixel width s.rgba.items x y = colour
  sound : s.pc ≠ .failed .panic
  finished : s.pc = .returned → s.remaining = 0

theorem start_inv (incoming : Bytes) : Inv (start width height incoming) where
  fits drawn member := by cases member
  place rect done left place := by cases place
  whole _ _ drawn member := by cases member
  map x y column line := by
    have inside := row_fits (show x + 1 ≤ width from column) line
    unfold start Buffer.fill
    dsimp only
    rw [List.getElem?_replicate, if_pos (by omega)]
    rfl
  counter := by
    unfold start Buffer.fill
    dsimp only
    rw [List.count_replicate_self]
  picture x y colour column line found := by cases found
  sound := nofun
  finished := nofun

/-- A step that only reads. -/
theorem Inv.reads {s : Screen width height} {pc : Pc} {incoming : Bytes} (inv : Inv s)
    (place : ∀ rect done left, pc ≠ .row rect done left)
    (whole : ∀ drawn ∈ s.drawn, drawn.rows.length = drawn.rect.h)
    (sound : pc ≠ .failed .panic) (finished : pc = .returned → s.remaining = 0) :
    Inv { s with pc, incoming } where
  fits := inv.fits
  place rect done left here := absurd here (place rect done left)
  whole _ _ := whole
  map := inv.map
  counter := inv.counter
  picture := inv.picture
  sound := sound
  finished := finished

theorem Inv.fails {s : Screen width height} {failure : Failure} (inv : Inv s) (sound : failure ≠ .panic) :
    Inv (s.fails failure) where
  fits := inv.fits
  place rect done left here := by cases here
  whole _ unfailed := absurd rfl (unfailed failure)
  map := inv.map
  counter := inv.counter
  picture := inv.picture
  sound := fun same => sound (Pc.failed.inj same)
  finished := nofun

theorem Inv.eof {s : Screen width height} (inv : Inv s) : Inv s.eof := inv.fails nofun

theorem Inv.message {s : Screen width height} (inv : Inv s) (here : s.pc = .message) : Inv (stepMessage s) := by
  have whole : ∀ drawn ∈ s.drawn, drawn.rows.length = drawn.rect.h := by
    apply inv.whole
    · intro rect done left
      rw [here]
      nofun
    · intro failure
      rw [here]
      nofun
  unfold stepMessage
  split
  next => exact inv.eof
  next kind rest taken =>
    split
    next =>
      split
      next => exact inv.eof
      next => exact inv.reads nofun whole nofun nofun
    next => exact inv.reads (by rw [here]; nofun) whole (by rw [here]; nofun) (by rw [here]; nofun)
    next =>
      split
      next => exact inv.eof
      next bytes rest taken =>
        dsimp only
        split
        next =>
          split
          next => exact inv.eof
          next => exact inv.reads (by rw [here]; nofun) whole (by rw [here]; nofun) (by rw [here]; nofun)
        next => exact inv.fails nofun
    next => exact inv.fails nofun

/-- The header of a rectangle draws nothing yet. -/
theorem lastColour_header (drawn : List Drawn) (rect : Rect) (x y : Nat) :
    lastColour (drawn ++ [⟨rect, []⟩]) x y = lastColour drawn x y := by
  rw [lastColour_append, colour_empty, Option.none_or]

theorem Inv.rectangle {s : Screen width height} {left : Nat} (inv : Inv s) (here : s.pc = .rectangles left) :
    Inv (stepRectangle s left) := by
  have whole : ∀ drawn ∈ s.drawn, drawn.rows.length = drawn.rect.h := by
    apply inv.whole
    · intro rect done left
      rw [here]
      nofun
    · intro failure
      rw [here]
      nofun
  cases left with
  | zero =>
    rw [stepRectangle]
    by_cases covered : s.remaining = 0
    · rw [if_pos covered]
      exact inv.reads nofun whole nofun fun _ => covered
    · rw [if_neg covered]
      exact inv.reads nofun whole nofun nofun
  | succ left =>
    rw [stepRectangle, nextRectangle]
    split
    next => exact inv.eof
    next bytes rest taken =>
      dsimp only
      split
      next => exact inv.fails nofun
      next =>
        split
        next inside =>
          constructor
          · intro drawn member
            cases List.mem_append.mp member with
            | inl earlier => exact inv.fits drawn earlier
            | inr last =>
              rw [List.mem_singleton] at last
              subst last
              exact ⟨inside.1, inside.2.2.1, inside.2.2.2, Nat.zero_le _, nofun⟩
          · intro rect done left place
            cases place
            exact ⟨s.drawn, [], rfl, rfl, whole⟩
          · intro unplaced
            exact absurd rfl (unplaced _ _ _)
          · intro x y column line
            dsimp only
            rw [lastColour_header]
            exact inv.map x y column line
          · exact inv.counter
          · intro x y colour column line found
            dsimp only at found
            rw [lastColour_header] at found
            exact inv.picture x y colour column line found
          · nofun
          · nofun
        next => exact inv.fails nofun

theorem split_rest {count : Nat} {bytes taken rest : Bytes} (cut : split count bytes = some (taken, rest)) :
    rest.length + count = bytes.length := by
  unfold split at cut
  split at cut
  next enough =>
    cases cut
    rw [List.length_drop]
    omega
  next => cases cut

theorem split_length {count : Nat} {bytes taken rest : Bytes} (cut : split count bytes = some (taken, rest)) :
    taken.length = count := by
  unfold split at cut
  split at cut
  next enough =>
    cases cut
    exact List.length_take_of_le enough
  next => cases cut

/-- With a counter that is right, a row inside the desktop is painted without a panic. -/
theorem paint_eq (s : Screen width height) {start w : Nat} {row : Bytes}
    (inside : start * 4 + row.length ≤ width * height * 4) (marks : start + w ≤ width * height)
    (counter : s.remaining = s.covered.items.count false) :
    paint s start row w = some (s.rgba.write (start * 4) row inside,
      s.covered.write start (List.replicate w true) (by rw [List.length_replicate]; exact marks),
      s.remaining - ((s.covered.items.drop start).take w).count false) := by
  have full := s.covered.full
  have some_ : ((s.covered.items.drop start).take w).count false ≤ s.remaining := by
    rw [counter]
    exact ((List.take_sublist _ _).trans (List.drop_sublist _ _)).count_le false
  have seen : ((s.covered.items.drop start).take w).length = w := by
    rw [List.length_take, List.length_drop]
    omega
  have wide : start + (List.replicate w true).length ≤ width * height := by
    rw [List.length_replicate]
    exact marks
  have marked := mark_eq ((s.covered.items.drop start).take w) s.remaining
  rw [if_pos some_, seen] at marked
  unfold paint
  rw [Buffer.overwrite_of_fits _ inside, Option.bind_eq_bind, Option.bind_some, Buffer.slice_of_fits _ marks]
  simp only [Option.bind_eq_bind, Option.bind_some, marked, Buffer.overwrite_of_fits _ wide]
  rfl

/-- A row that was painted is what its pixels show, and the others show what they did. -/
theorem pixel_write (rgba : Buffer UInt8 (width * height * 4)) {rect : Rect} {done : Nat} {row : Bytes}
    (wide : rect.x + rect.w ≤ width) (length : row.length = rect.w * 4)
    (inside : ((rect.y + done) * width + rect.x) * 4 + row.length ≤ width * height * 4) {x y : Nat}
    (column : x < width) :
    pixel width (rgba.write (((rect.y + done) * width + rect.x) * 4) row inside).items x y =
      if rect.inRow done x y then (row.drop ((x - rect.x) * 4)).take 4 else pixel width rgba.items x y := by
  have index := @index_in_row width x y rect.w rect.x (rect.y + done) column wide
  unfold pixel
  apply List.ext_getElem?
  intro k
  rw [List.getElem?_take, List.getElem?_drop, Buffer.getElem?_write]
  by_cases here : rect.inRow done x y
  · rw [if_pos here, List.getElem?_take, List.getElem?_drop]
    by_cases small : k < 4
    · have between := index.mpr here
      have offset : (y * width + x) * 4 + k - ((rect.y + done) * width + rect.x) * 4 = (x - rect.x) * 4 + k := by
        obtain ⟨left, right, line⟩ := here
        rw [line]
        omega
      rw [if_pos small, if_pos small, if_pos (by omega), offset]
    · rw [if_neg small, if_neg small]
  · rw [if_neg here, List.getElem?_take, List.getElem?_drop]
    by_cases small : k < 4
    · have apart : ¬ ((rect.y + done) * width + rect.x ≤ y * width + x ∧
          y * width + x < (rect.y + done) * width + rect.x + rect.w) := fun between => here (index.mp between)
      rw [if_pos small, if_pos small, if_neg (by omega)]
    · rw [if_neg small, if_neg small]

/-- The same for the map. -/
theorem map_write (covered : Buffer Bool (width * height)) {rect : Rect} {done : Nat}
    (wide : rect.x + rect.w ≤ width)
    (inside : (rect.y + done) * width + rect.x + (List.replicate rect.w true).length ≤ width * height) {x y : Nat}
    (column : x < width) :
    (covered.write ((rect.y + done) * width + rect.x) (List.replicate rect.w true) inside).items[y * width + x]? =
      if rect.inRow done x y then some true else covered.items[y * width + x]? := by
  have index := @index_in_row width x y rect.w rect.x (rect.y + done) column wide
  rw [Buffer.getElem?_write, List.length_replicate]
  by_cases here : rect.inRow done x y
  · have between := index.mpr here
    rw [if_pos here, if_pos between, List.getElem?_replicate, if_pos (by omega)]
  · rw [if_neg here, if_neg fun between => here (index.mp between)]

theorem lastColour_addRow {before : List Drawn} {rect : Rect} {rows : List Bytes} (row : Bytes)
    (room : rows.length < rect.h) (x y : Nat) :
    lastColour (before ++ [⟨rect, rows ++ [row]⟩]) x y =
      if rect.inRow rows.length x y then some ((row.drop ((x - rect.x) * 4)).take 4)
      else lastColour (before ++ [⟨rect, rows⟩]) x y := by
  rw [lastColour_append, colour_addRow row room, lastColour_append]
  by_cases here : rect.inRow rows.length x y
  · rw [if_pos here, if_pos here]
    rfl
  · rw [if_neg here, if_neg here]

theorem Inv.row {s : Screen width height} {rect : Rect} {done left : Nat} (inv : Inv s)
    (here : s.pc = .row rect done left) : Inv (stepRow s rect done left) := by
  obtain ⟨before, rows, drawn, counted, whole⟩ := inv.place rect done left here
  have fits := inv.fits ⟨rect, rows⟩ (by rw [drawn]; exact List.mem_append_right _ (List.mem_singleton_self _))
  have wide := fits.wide
  have tall := fits.tall
  have come := fits.rows
  dsimp only at wide tall come
  subst counted
  unfold stepRow
  split
  next last =>
    have complete : ∀ other ∈ s.drawn, other.rows.length = other.rect.h := by
      intro other member
      rw [drawn] at member
      cases List.mem_append.mp member with
      | inl earlier => exact whole other earlier
      | inr same =>
        rw [List.mem_singleton] at same
        subst same
        exact last
    exact inv.reads nofun complete nofun nofun
  next unfinished =>
    have room : rows.length < rect.h := by omega
    have inside := @row_fits width height rect.x (rect.y + rows.length) rect.w wide (by omega)
    dsimp only
    rw [Buffer.slice_of_fits _ (by omega)]
    dsimp only
    split
    next => exact inv.eof
    next row rest taken =>
      have length := split_length taken
      have painted := paint_eq s (show ((rect.y + rows.length) * width + rect.x) * 4 + row.length ≤ _ by omega)
        inside inv.counter
      rw [painted]
      dsimp only
      rw [drawn, addRow_append]
      constructor
      · intro other member
        cases List.mem_append.mp member with
        | inl earlier =>
          apply inv.fits other
          rw [drawn]
          exact List.mem_append_left _ earlier
        | inr same =>
          rw [List.mem_singleton] at same
          subst same
          refine ⟨fits.solid, wide, tall, ?_, ?_⟩
          · dsimp only
            rw [List.length_append, List.length_singleton]
            omega
          · intro other member
            cases List.mem_append.mp member with
            | inl earlier => exact fits.row other earlier
            | inr same =>
              rw [List.mem_singleton.mp same]
              exact length
      · intro rect' done' left' place
        cases place
        refine ⟨before, rows ++ [row], rfl, ?_, whole⟩
        rw [List.length_append, List.length_singleton]
      · intro unplaced
        exact absurd rfl (unplaced _ _ _)
      · intro x y column line
        dsimp only
        rw [map_write _ wide _ column, lastColour_addRow row room]
        split
        · rfl
        · rw [← drawn]
          exact inv.map x y column line
      · dsimp only
        have marks : (rect.y + rows.length) * width + rect.x + (List.replicate rect.w true).length ≤
            width * height := by
          rw [List.length_replicate]
          exact inside
        have balance := s.covered.count_write marks false
        have none_ : (List.replicate rect.w true).count false = 0 := by
          rw [List.count_replicate]
          rfl
        simp only [List.length_replicate, none_] at balance
        have counter := inv.counter
        omega
      · intro x y colour column line found
        dsimp only at found ⊢
        rw [pixel_write _ wide length _ column]
        rw [lastColour_addRow row room] at found
        split
        next inRow =>
          rw [if_pos inRow] at found
          exact Option.some.inj found
        next outside =>
          rw [if_neg outside, ← drawn] at found
          exact inv.picture x y colour column line found
      · nofun
      · nofun

theorem Inv.next {s after : Screen width height} (inv : Inv s) (taken : step s = some after) : Inv after := by
  unfold step at taken
  split at taken
  next here =>
    cases taken
    exact inv.message here
  next here =>
    cases taken
    exact inv.rectangle here
  next here =>
    cases taken
    exact inv.row here
  next => cases taken
  next => cases taken

theorem reachable_inv {incoming : Bytes} {s : Screen width height}
    (reached : (system width height incoming).Reachable s) : Inv s := by
  apply reached.invariant
  · intro s initial
    cases initial
    exact start_inv incoming
  · intro s action after inv taken
    exact inv.next taken

/-- The map says of every pixel whether a rectangle has covered it. -/
theorem Inv.covered_eq {s : Screen width height} (inv : Inv s) :
    s.covered.items = (List.range (width * height)).map fun i => (lastColour s.drawn (i % width) (i / width)).isSome := by
  apply List.ext_getElem?
  intro i
  have full := s.covered.full
  rw [List.getElem?_map]
  by_cases inside : i < width * height
  · have line : i / width < height := Nat.div_lt_of_lt_mul inside
    have column : i % width < width := Nat.mod_lt i (Nat.pos_of_lt_mul_right inside)
    have index : i / width * width + i % width = i := Nat.div_add_mod' i width
    have seen := inv.map (i % width) (i / width) column line
    rw [index] at seen
    rw [seen, List.getElem?_range inside]
    rfl
  · rw [List.getElem?_eq_none (by omega), List.getElem?_eq_none (by rw [List.length_range]; omega)]
    rfl

/-- The counter is the number of pixels that have not been written. -/
theorem Inv.unwritten_eq {s : Screen width height} (inv : Inv s) : s.remaining = unwritten width height s.drawn := by
  rw [inv.counter, inv.covered_eq, List.count_eq_countP, List.countP_map]
  apply List.countP_congr
  intro i member
  cases found : lastColour s.drawn (i % width) (i / width) with
  | none => simp [found]
  | some colour => simp [found]

/-- At the end every pixel has been written, and shows the last rectangle that covers it. -/
theorem Inv.returned {s : Screen width height} (inv : Inv s) (here : s.pc = .returned) {x y : Nat} (column : x < width)
    (line : y < height) : lastColour s.drawn x y = some (pixel width s.rgba.items x y) := by
  have seen := inv.map x y column line
  have none_ : s.covered.items.count false = 0 := by
    rw [← inv.counter]
    exact inv.finished here
  cases found : lastColour s.drawn x y with
  | some colour => rw [inv.picture x y colour column line found]
  | none =>
    rw [found] at seen
    have member := List.mem_of_getElem? seen
    exact absurd member (List.count_eq_zero.mp none_)

/-- How much a screen still has to do. -/
def Pc.rank : Pc → Nat
  | .rectangles _ => 1
  | .row _ _ _ => 2
  | _ => 0

def Screen.size (s : Screen width height) : Nat := 3 * s.incoming.length + s.pc.rank

/-- A screen that has come to an end, or has less to do than another. -/
def Shrinks (s after : Screen width height) : Prop := step after = none ∨ after.size < s.size

theorem shrinks_fails (s : Screen width height) (failure : Failure) : Shrinks s (s.fails failure) := .inl rfl

theorem shrinks_message (s : Screen width height) (here : s.pc = .message) : Shrinks s (stepMessage s) := by
  have small : s.size = 3 * s.incoming.length := by
    unfold Screen.size
    rw [here]
    rfl
  unfold stepMessage
  split
  next => exact shrinks_fails s _
  next kind rest taken =>
    have first := split_rest taken
    split
    next =>
      split
      next => exact shrinks_fails s _
      next bytes rest taken =>
        have second := split_rest taken
        right
        rw [small]
        simp only [Screen.size, Pc.rank]
        omega
    next =>
      right
      rw [small]
      simp only [Screen.size, Pc.rank, here]
      omega
    next =>
      split
      next => exact shrinks_fails s _
      next bytes rest taken =>
        have second := split_rest taken
        dsimp only
        split
        next =>
          split
          next => exact shrinks_fails s _
          next text rest taken =>
            have third := split_rest taken
            right
            rw [small]
            simp only [Screen.size, Pc.rank, here]
            omega
        next => exact shrinks_fails s _
    next => exact shrinks_fails s _

theorem shrinks_rectangle (s : Screen width height) {left : Nat} (here : s.pc = .rectangles left) :
    Shrinks s (stepRectangle s left) := by
  have small : s.size = 3 * s.incoming.length + 1 := by
    unfold Screen.size
    rw [here]
    rfl
  cases left with
  | zero =>
    rw [stepRectangle]
    by_cases covered : s.remaining = 0
    · rw [if_pos covered]
      exact .inl rfl
    · rw [if_neg covered]
      right
      rw [small]
      simp only [Screen.size, Pc.rank]
      omega
  | succ left =>
    rw [stepRectangle, nextRectangle]
    split
    next => exact shrinks_fails s _
    next bytes rest taken =>
      have read := split_rest taken
      dsimp only
      split
      next => exact shrinks_fails s _
      next =>
        split
        next =>
          right
          rw [small]
          simp only [Screen.size, Pc.rank]
          omega
        next => exact shrinks_fails s _

theorem shrinks_row {s : Screen width height} {rect : Rect} {done left : Nat} (inv : Inv s)
    (here : s.pc = .row rect done left) : Shrinks s (stepRow s rect done left) := by
  obtain ⟨before, rows, drawn, _, _⟩ := inv.place rect done left here
  have solid := (inv.fits ⟨rect, rows⟩ (by rw [drawn]; exact List.mem_append_right _ (List.mem_singleton_self _))).solid
  dsimp only at solid
  have small : s.size = 3 * s.incoming.length + 2 := by
    unfold Screen.size
    rw [here]
    rfl
  unfold stepRow
  split
  next =>
    right
    rw [small]
    simp only [Screen.size, Pc.rank]
    omega
  next =>
    dsimp only
    split
    next => exact shrinks_fails s _
    next =>
      split
      next => exact shrinks_fails s _
      next row rest taken =>
        have read := split_rest taken
        split
        next => exact shrinks_fails s _
        next =>
          right
          rw [small]
          simp only [Screen.size, Pc.rank]
          omega

theorem step_shrinks {s after : Screen width height} (inv : Inv s) (taken : step s = some after) : Shrinks s after := by
  unfold step at taken
  split at taken
  next here =>
    cases taken
    exact shrinks_message s here
  next here =>
    cases taken
    exact shrinks_rectangle s here
  next here =>
    cases taken
    exact shrinks_row inv here
  next => cases taken
  next => cases taken

theorem run_ended {s : Screen width height} (ended : step s = none) (fuel : Nat) : run fuel s = s := by
  cases fuel with
  | zero => rfl
  | succ fuel => rw [run, ended]

/-- A run comes to an end, and all of it is reachable. -/
theorem run_ends {incoming : Bytes} {s : Screen width height} {fuel : Nat}
    (reached : (system width height incoming).Reachable s) (fueled : s.size < fuel) :
    (system width height incoming).Reachable (run fuel s) ∧ step (run fuel s) = none := by
  induction fuel generalizing s with
  | zero => exact absurd fueled (Nat.not_lt_zero _)
  | succ fuel ih =>
    cases taken : step s with
    | none =>
      rw [run_ended taken]
      exact ⟨reached, taken⟩
    | some after =>
      have later : (system width height incoming).Reachable after := reached.next (a := ()) taken
      have same : run (fuel + 1) s = run fuel after := by rw [run, taken]
      rw [same]
      cases step_shrinks (reachable_inv reached) taken with
      | inl ended =>
        rw [run_ended ended]
        exact ⟨later, ended⟩
      | inr smaller => exact ih later (by omega)

end Lemmas

/-- A picture is whole when it has four bytes for each pixel, every rectangle has come to its end, and each pixel shows
the last rectangle that covers it. -/
structure Whole (width height : Nat) (rgba : Bytes) (drawn : List Drawn) : Prop where
  length : rgba.length = 4 * width * height
  complete : ∀ rect ∈ drawn, rect.rows.length = rect.rect.h
  pixels : ∀ x y, x < width → y < height → lastColour drawn x y = some (pixel width rgba x y)

theorem Inv.picture_whole {width height : Nat} {s : Screen width height} (inv : Inv s) (here : s.pc = .returned) :
    Whole width height s.rgba.items s.drawn where
  length := by
    rw [s.rgba.full, Nat.mul_comm, Nat.mul_assoc]
  complete := by
    apply inv.whole
    · intro rect done left
      rw [here]
      nofun
    · intro failure
      rw [here]
      nofun
  pixels x y column line := inv.returned here column line

/-- What `screen` returns is the picture of a run that has returned, and it never panics. -/
theorem screen_ends (client : Client) (connection : Connection) :
    Ends (screen client) connection
      (fun rgba _ => ∃ s, (system client.width.toNat client.height.toNat connection.incoming).Reachable s ∧
        s.pc = .returned ∧ s.rgba.items = rgba)
      (fun failure _ => failure ≠ .panic) := by
  unfold screen
  rw [ends_bind]
  apply ends_writeAll
  · intro _
    rw [ends_bind, ends_get]
    obtain ⟨reached, ended⟩ := @run_ends client.width.toNat client.height.toNat connection.incoming
      (start client.width.toNat client.height.toNat connection.incoming) (enough connection.incoming)
      (.start rfl) (Nat.lt_succ_self _)
    have inv := reachable_inv reached
    rw [ends_bind, ends_set]
    unfold step at ended
    split at ended
    next => cases ended
    next => cases ended
    next => cases ended
    next here =>
      rw [here]
      exact ⟨_, reached, here, rfl⟩
    next failure here =>
      rw [here]
      intro panicked
      rw [panicked] at here
      exact inv.sound here
  · intro error _
    nofun

/-- Where a row of a desktop with that many pixels is written. -/
theorem Inv.row_bound {width height : Nat} {s : Screen width height} {rect : Rect} {done left : Nat} (inv : Inv s)
    (small : width * height ≤ MAX_PIXELS) (here : s.pc = .row rect done left) (unfinished : done < rect.h) :
    ((rect.y + done) * width + rect.x + rect.w) * 4 ≤ width * height * 4 ∧ width * height * 4 < 2 ^ 32 := by
  obtain ⟨before, rows, drawn, _, _⟩ := inv.place rect done left here
  have fits := inv.fits ⟨rect, rows⟩ (by rw [drawn]; exact List.mem_append_right _ (List.mem_singleton_self _))
  have wide := fits.wide
  have tall := fits.tall
  dsimp only at wide tall
  have inside := @row_fits width height rect.x (rect.y + done) rect.w wide (by omega)
  unfold MAX_PIXELS at small
  omega

/-- A server with a desktop of one pixel: its handshake, a bell, and one update with one rectangle. -/
def onePixel : Connection where
  incoming := VERSION ++ [1, 1] ++ [0, 0, 0, 0] ++ [0, 1, 0, 1] ++ List.replicate 16 0 ++ [0, 0, 0, 0] ++
    [2] ++ [0, 0, 0, 1] ++ [0, 0, 0, 0, 0, 1, 0, 1, 0, 0, 0, 0] ++ [10, 20, 30, 0]
  sent := []
  takes _ _ := .ok ()

end Pbox.Cli.RfbScreen
