import Pbox.Cli.RfbScreen
import Pbox.Lib.Interpolate

/-! One-shot controls of a desktop: `execute` sends what an action asks for and then asks for a whole picture. A drag
presses the button, moves the pointer by small steps and lets the button go at the end. -/

namespace Pbox.Cli.DesktopControl
open Pbox.Lib.Effects Pbox.Lib.Interpolate Pbox.Cli.Rfb Pbox.Cli.RfbScreen

inductive Button where
  | left
  | middle
  | right

def Button.mask : Button → UInt8
  | .left => 1
  | .middle => 2
  | .right => 4

inductive Direction where
  | up
  | down
  | left
  | right

def Direction.mask : Direction → UInt8
  | .up => 8
  | .down => 16
  | .left => 32
  | .right => 64

structure Point where
  x : UInt16
  y : UInt16

inductive Action where
  | screenshot
  | type
  | send
  | move (point : Point)
  | click (point : Point) (button : Button) (count : UInt8)
  | drag (point : Point) (toX toY : UInt16) (button : Button) (durationMs : UInt64)
  | scroll (point : Point) (direction : Direction) (steps : UInt16)

/-- A result of `i32` arithmetic; one that does not fit panics. -/
def i32 (value : Int) : Io Int := if -2 ^ 31 ≤ value ∧ value < 2 ^ 31 then pure value else throw .panic

/-- `as i32`. -/
def asI32 (value : UInt64) : Int := Int.bmod value.toNat (2 ^ 32)

def interpolate (start finish : UInt16) (step steps : Int) : Io Int := do
  let distance ← i32 (finish.toNat - start.toNat)
  let scaled ← i32 (distance * step)
  if steps = 0 then throw .panic
  let part ← i32 (scaled.tdiv steps)
  i32 (start.toNat + part)

/-- How many steps a drag has. -/
def dragSteps (durationMs : UInt64) : Int := asI32 (durationMs / 20)

section Actions
variable (client : Client)

def dragStep (point : Point) (toX toY : UInt16) (button : Button) (steps step : Int) : Io Unit := do
  let x ← interpolate point.x toX step steps
  let y ← interpolate point.y toY step steps
  client.pointer (UInt16.ofInt x) (UInt16.ofInt y) button.mask

def drag (point : Point) (toX toY : UInt16) (button : Button) (durationMs : UInt64) : Io Unit := do
  client.checkPoint toX toY
  client.pointer point.x point.y 0
  client.pointer point.x point.y button.mask
  let steps := dragSteps durationMs
  -- Between the steps the program sleeps.
  (List.range' 1 steps.toNat).forM fun step => dragStep client point toX toY button steps step
  client.pointer toX toY 0

/-- The input of an action. -/
def perform (keys : List (List UInt32)) : Action → Io Unit
  | .screenshot => pure ()
  | .type | .send => keys.forM Client.chord
  | .move point => client.pointer point.x point.y 0
  | .click point button count => do
    client.pointer point.x point.y 0
    (List.range count.toNat).forM fun _ => do
      client.pointer point.x point.y button.mask
      client.pointer point.x point.y 0
  | .drag point toX toY button durationMs => drag client point toX toY button durationMs
  | .scroll point direction steps => do
    client.pointer point.x point.y 0
    (List.range steps.toNat).forM fun _ => do
      client.pointer point.x point.y direction.mask
      client.pointer point.x point.y 0

def execute (action : Action) (keys : List (List UInt32)) : Io Bytes := do
  perform client keys action
  screen client

end Actions

/-- The connection does not take a message. -/
def Refused (failure : Failure) (connection : Connection) : Prop :=
  ∃ error message, failure = .connection error ∧ connection.takes connection.sent message = .error error

def Connection.having (connection : Connection) (messages : List Bytes) : Connection :=
  { connection with sent := connection.sent ++ messages }

section Sending
variable {client : Client} {connection : Connection}

theorem having_having (first second : List Bytes) :
    Connection.having (Connection.having connection first) second = Connection.having connection (first ++ second) := by
  unfold Connection.having
  rw [List.append_assoc]

/-- A point on the desktop is sent, unless the connection fails. -/
theorem ends_pointer {x y : UInt16} (buttons : UInt8) (inside : x < client.width ∧ y < client.height) :
    Ends (client.pointer x y buttons) connection
      (fun _ t => t = Connection.having connection [Client.pointerMessage x y buttons]) Refused := by
  unfold Client.pointer Client.checkPoint
  rw [ends_bind, ends_ensure]
  refine ⟨fun outside => absurd inside outside, fun _ => ?_⟩
  apply ends_writeAll
  · exact fun _ => rfl
  · exact fun error refused => ⟨error, _, rfl, refused⟩

theorem ends_i32 {value : Int} {done : Int → Connection → Prop} {failed : Failure → Connection → Prop}
    (small : -2 ^ 31 ≤ value ∧ value < 2 ^ 31) (then_ : done value connection) :
    Ends (i32 value) connection done failed := by
  unfold i32
  rw [if_pos small]
  exact then_

/-- The distance of two coordinates, times a step of so few, is far from the bounds of an `i32`. -/
theorem scaled_small (start finish : UInt16) {step : Nat} (few : step ≤ 250) :
    -2 ^ 31 ≤ ((finish.toNat : Int) - start.toNat) * step ∧
      ((finish.toNat : Int) - start.toNat) * step < 2 ^ 31 := by
  have above := start.toNat_lt
  have below := finish.toNat_lt
  have size : (((finish.toNat : Int) - start.toNat) * step).natAbs ≤ 65535 * 250 := by
    rw [Int.natAbs_mul, Int.natAbs_natCast]
    exact Nat.mul_le_mul (by omega) few
  omega

/-- No step of the arithmetic overflows, and its result is the position of that step. -/
theorem ends_interpolate (start finish : UInt16) {step steps : Nat} {done : Int → Connection → Prop}
    {failed : Failure → Connection → Prop} (some_ : 0 < steps) (enough : step ≤ steps) (few : steps ≤ 250)
    (then_ : done (position start.toNat finish.toNat step steps) connection) :
    Ends (interpolate start finish step steps) connection done failed := by
  have above := start.toNat_lt
  have below := finish.toNat_lt
  have between := position_between (start.toNat : Int) finish.toNat some_ enough
  have whole : position start.toNat finish.toNat step steps =
      start.toNat + (((finish.toNat : Int) - start.toNat) * step).tdiv steps := rfl
  unfold interpolate
  rw [ends_bind]
  apply ends_i32 (by omega)
  rw [ends_bind]
  apply ends_i32 (scaled_small start finish (by omega))
  rw [whole] at between then_
  rw [if_neg (by omega), ends_bind]
  apply ends_i32 (by omega)
  exact ends_i32 (by omega) then_

/-- A coordinate of the desktop survives the cast. -/
theorem ofInt_toNat {value : Int} (above : 0 ≤ value) (below : value < 2 ^ 16) :
    ((UInt16.ofInt value).toNat : Int) = value := by
  have small : (value % 2 ^ 16).toNat < 2 ^ 16 := by omega
  unfold UInt16.ofInt
  rw [UInt16.toNat_ofNat_of_lt' small]
  omega

/-- The coordinate of a step, between the coordinates of the ends. -/
def coordinate (start finish : UInt16) (step steps : Nat) : UInt16 :=
  UInt16.ofInt (position start.toNat finish.toNat step steps)

theorem coordinate_exact (start finish : UInt16) {step steps : Nat} (some_ : 0 < steps) (enough : step ≤ steps) :
    ((coordinate start finish step steps).toNat : Int) = position start.toNat finish.toNat step steps := by
  have above := start.toNat_lt
  have below := finish.toNat_lt
  have between := position_between (start.toNat : Int) finish.toNat some_ enough
  exact ofInt_toNat (by omega) (by omega)

theorem coordinate_inside {start finish size : UInt16} {step steps : Nat} (some_ : 0 < steps) (enough : step ≤ steps)
    (starts : start < size) (ends : finish < size) : coordinate start finish step steps < size := by
  have exact_ := coordinate_exact start finish some_ enough
  have between := position_between (start.toNat : Int) finish.toNat some_ enough
  rw [UInt16.lt_iff_toNat_lt] at starts ends ⊢
  omega

end Sending

/-- The messages of a drag: the pointer goes to the start, the button is pressed, held at every step, and let go. -/
def dragMessages (start finish : Point) (buttons : UInt8) (steps : Nat) : List Bytes :=
  [Client.pointerMessage start.x start.y 0, Client.pointerMessage start.x start.y buttons] ++
    ((List.range' 1 steps).map fun step =>
      Client.pointerMessage (coordinate start.x finish.x step steps) (coordinate start.y finish.y step steps) buttons) ++
    [Client.pointerMessage finish.x finish.y 0]

def Client.Inside (client : Client) (point : Point) : Prop := point.x < client.width ∧ point.y < client.height

section Drags
variable {client : Client} {start finish : Point} {connection : Connection}

theorem ends_dragStep {step steps : Nat} (button : Button) (starts : Client.Inside client start)
    (ends : Client.Inside client finish) (some_ : 0 < steps) (few : steps ≤ 250) (enough : step ≤ steps) :
    Ends (dragStep client start finish.x finish.y button steps step) connection
      (fun _ t => t = Connection.having connection
        [Client.pointerMessage (coordinate start.x finish.x step steps) (coordinate start.y finish.y step steps)
          button.mask])
      Refused := by
  unfold dragStep
  rw [ends_bind]
  apply ends_interpolate start.x finish.x some_ enough few
  rw [ends_bind]
  apply ends_interpolate start.y finish.y some_ enough few
  apply ends_pointer
  exact ⟨coordinate_inside some_ enough starts.1 ends.1, coordinate_inside some_ enough starts.2 ends.2⟩

/-- The loop of a drag sends one message for each step. -/
theorem ends_dragSteps {steps : Nat} (button : Button) (starts : Client.Inside client start)
    (ends : Client.Inside client finish) (some_ : 0 < steps) (few : steps ≤ 250) {todo : List Nat}
    (enough : ∀ step ∈ todo, step ≤ steps) :
    Ends (todo.forM fun step => dragStep client start finish.x finish.y button steps step) connection
      (fun _ t => t = Connection.having connection (todo.map fun step =>
        Client.pointerMessage (coordinate start.x finish.x step steps) (coordinate start.y finish.y step steps)
          button.mask))
      Refused := by
  induction todo generalizing connection with
  | nil =>
    show connection = Connection.having connection []
    unfold Connection.having
    rw [List.append_nil]
  | cons step rest ih =>
    rw [List.forM]
    apply (ends_dragStep button starts ends some_ few (enough step List.mem_cons_self)).andThen
    intro _ t sent
    subst sent
    apply (ih fun later member => enough later (List.mem_cons_of_mem step member)).mono
    · intro _ t sent
      rw [sent, having_having]
      rfl
    · exact fun failure t refused => refused

theorem dragSteps_eq {durationMs : UInt64} (most : durationMs ≤ 5000) :
    dragSteps durationMs = ((durationMs / 20).toNat : Nat) ∧ (durationMs / 20).toNat ≤ 250 := by
  have bound : durationMs.toNat ≤ 5000 := UInt64.le_iff_toNat_le.mp most
  have quotient : (durationMs / 20).toNat = durationMs.toNat / 20 := UInt64.toNat_div durationMs 20
  have few : (durationMs / 20).toNat ≤ 250 := by
    rw [quotient]
    omega
  refine ⟨?_, few⟩
  unfold dragSteps asI32
  apply Int.bmod_eq_of_le <;> omega

theorem dragSteps_pos {durationMs : UInt64} (least : 20 ≤ durationMs) : 0 < (durationMs / 20).toNat := by
  have bound : 20 ≤ durationMs.toNat := UInt64.le_iff_toNat_le.mp least
  have quotient : (durationMs / 20).toNat = durationMs.toNat / 20 := UInt64.toNat_div durationMs 20
  rw [quotient]
  omega

/-- A drag between two points of the desktop sends all its messages, the last of which lets the button go, unless the
connection fails. -/
theorem ends_drag {durationMs : UInt64} (button : Button) (starts : Client.Inside client start)
    (ends : Client.Inside client finish) (least : 20 ≤ durationMs) (most : durationMs ≤ 5000) :
    Ends (drag client start finish.x finish.y button durationMs) connection
      (fun _ t => t = Connection.having connection (dragMessages start finish button.mask (durationMs / 20).toNat))
      Refused := by
  obtain ⟨steps, few⟩ := dragSteps_eq most
  have some_ := dragSteps_pos least
  unfold drag Client.checkPoint
  rw [ends_bind, ends_ensure]
  refine ⟨fun outside => absurd ends outside, fun _ => ?_⟩
  apply (ends_pointer 0 starts).andThen
  intro _ t moved
  subst moved
  apply (ends_pointer button.mask starts).andThen
  intro _ t pressed
  subst pressed
  dsimp only
  rw [steps, Int.toNat_natCast]
  have inRange : ∀ step ∈ List.range' 1 (durationMs / 20).toNat, step ≤ (durationMs / 20).toNat := by
    intro step member
    have range := List.mem_range'_1.mp member
    omega
  apply (ends_dragSteps button starts ends some_ few inRange).andThen
  intro _ t dragged
  subst dragged
  apply (ends_pointer 0 ends).mono
  · intro _ t released
    rw [released, having_having, having_having, having_having]
    rfl
  · exact fun failure t refused => refused

/-- A coordinate goes straight from one end to the other: every value that the program computes on the way is exact,
survives the cast, lies on the desktop and between the ends, and does not go back; the last one is the end. -/
def Straight (start finish size : UInt16) (steps : Nat) : Prop :=
  ∃ path : Nat → UInt16,
    (∀ step, 1 ≤ step → step ≤ steps →
      (∀ connection, (interpolate start finish step steps).from connection =
        (.ok ((path step).toNat : Int), connection)) ∧
      UInt16.ofInt ((path step).toNat : Int) = path step ∧ path step < size ∧
      min start.toNat finish.toNat ≤ (path step).toNat ∧ (path step).toNat ≤ max start.toNat finish.toNat) ∧
    (∀ earlier later, 1 ≤ earlier → earlier ≤ later → later ≤ steps →
      (start ≤ finish → path earlier ≤ path later) ∧ (finish ≤ start → path later ≤ path earlier)) ∧
    path steps = finish

theorem interpolate_from (start finish : UInt16) {step steps : Nat} (some_ : 0 < steps) (few : steps ≤ 250)
    (enough : step ≤ steps) (connection : Connection) :
    (interpolate start finish step steps).from connection =
      (.ok ((coordinate start finish step steps).toNat : Int), connection) := by
  have ends : Ends (interpolate start finish step steps) connection
      (fun value t => value = position start.toNat finish.toNat step steps ∧ t = connection) (fun _ _ => False) :=
    ends_interpolate start finish some_ enough few ⟨rfl, rfl⟩
  obtain ⟨value, t, run, same, unchanged⟩ := ends.exists_ok
  rw [run, same, unchanged, coordinate_exact start finish some_ enough]

theorem straight {start finish size : UInt16} {steps : Nat} (starts : start < size) (ends : finish < size)
    (some_ : 0 < steps) (few : steps ≤ 250) : Straight start finish size steps := by
  refine ⟨fun step => coordinate start finish step steps, ?_, ?_, ?_⟩
  · intro step _ enough
    have exact_ := coordinate_exact start finish some_ enough
    have between := position_between (start.toNat : Int) finish.toNat some_ enough
    refine ⟨interpolate_from start finish some_ few enough, ?_, coordinate_inside some_ enough starts ends, ?_, ?_⟩
    · rw [exact_]
      rfl
    · dsimp only
      omega
    · dsimp only
      omega
  · intro earlier later _ order enough
    have first := coordinate_exact start finish some_ (show earlier ≤ steps by omega)
    have second := coordinate_exact start finish some_ enough
    obtain ⟨ahead, behind⟩ := position_mono (start.toNat : Int) finish.toNat some_ order
    simp only [UInt16.le_iff_toNat_le]
    constructor
    · intro towards
      have grows := ahead (by omega)
      omega
    · intro towards
      have grows := behind (by omega)
      omega
  · have exact_ := coordinate_exact start finish some_ (Nat.le_refl steps)
    rw [position_last _ _ some_] at exact_
    apply UInt16.toNat_inj.mp
    dsimp only
    omega

/-- Whether a connection has messages behind those of another. -/
def Sent (messages : List Bytes) (connection after : Connection) : Prop :=
  ∃ rest, after.sent = connection.sent ++ messages ++ rest

/-- The picture is asked for behind everything else. -/
theorem screen_sent (messages : List Bytes) :
    Ends (screen client) (Connection.having connection messages) (fun _ after => Sent messages connection after)
      (fun _ after => Sent messages connection after) := by
  have before : Sent messages connection (Connection.having connection messages) := ⟨[], (List.append_nil _).symm⟩
  unfold screen
  rw [ends_bind]
  apply ends_writeAll
  · intro _
    rw [ends_bind, ends_get, ends_bind, ends_set]
    split
    next => exact ⟨_, rfl⟩
    next => exact ⟨_, rfl⟩
    next => exact ⟨_, rfl⟩
  · exact fun error _ => before

theorem drag_released {durationMs : UInt64} (button : Button) (starts : Client.Inside client start)
    (ends : Client.Inside client finish) (least : 20 ≤ durationMs) (most : durationMs ≤ 5000)
    (keys : List (List UInt32)) (connection : Connection) :
    Straight start.x finish.x client.width (durationMs / 20).toNat ∧
    Straight start.y finish.y client.height (durationMs / 20).toNat ∧
    Ends (execute client (.drag start finish.x finish.y button durationMs) keys) connection
      (fun _ after => Sent (dragMessages start finish button.mask (durationMs / 20).toNat) connection after)
      (fun failure after => Sent (dragMessages start finish button.mask (durationMs / 20).toNat) connection after ∨
        Refused failure after) := by
  obtain ⟨_, few⟩ := dragSteps_eq most
  have some_ := dragSteps_pos least
  refine ⟨straight starts.1 ends.1 some_ few, straight starts.2 ends.2 some_ few, ?_⟩
  unfold execute
  rw [ends_bind]
  apply (ends_drag button starts ends least most).mono
  · intro _ t dragged
    subst dragged
    apply (screen_sent _).mono
    · exact fun _ after sent => sent
    · exact fun _ after sent => .inl sent
  · exact fun failure after refused => .inr refused

end Drags

/-- A desktop of eight by four pixels and a server that takes what it is sent and says nothing. -/
def deafServer : Connection := ⟨[], [], fun _ _ => .ok ()⟩

theorem drag_back_released :
    Straight 7 2 8 2 ∧ Straight 0 3 4 2 ∧
      Ends (execute ⟨8, 4⟩ (.drag ⟨7, 0⟩ 2 3 .left 59) []) deafServer
        (fun _ after => Sent (dragMessages ⟨7, 0⟩ ⟨2, 3⟩ 1 2) deafServer after)
        (fun failure after => Sent (dragMessages ⟨7, 0⟩ ⟨2, 3⟩ 1 2) deafServer after ∨ Refused failure after) :=
  @drag_released ⟨8, 4⟩ ⟨7, 0⟩ ⟨2, 3⟩ 59 .left ⟨by decide, by decide⟩ ⟨by decide, by decide⟩ (by decide) (by decide) []
    deafServer

end Pbox.Cli.DesktopControl
