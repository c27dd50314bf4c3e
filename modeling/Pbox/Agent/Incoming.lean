import Pbox.Lib.Transition

/-! The agent's listener: `LimitedIncoming::poll_next` with its three optional fields, and the
semaphore whose permits the accepted streams hold. The acceptor is the semaphore's only waiter, so
a permit that comes back goes to its `acquire` when that waits. -/

namespace Pbox.Agent.Incoming
open Pbox.Lib.Transition

inductive Acquire where
  | waiting
  | granted
  deriving DecidableEq

/-- A handshake is unfinished, or it has ended with a stream or an error (the timeout is one) that
the next poll takes. -/
inductive Handshake where
  | unfinished
  | ended (ok : Bool)
  deriving DecidableEq

structure LimitedIncoming where
  /-- The connections waiting in the listener. -/
  backlog : Nat
  /-- The accepted streams that have been handed on and still live. -/
  streams : Nat
  available : Nat
  acquire : Option Acquire
  permit : Bool
  handshake : Option Handshake
  deriving DecidableEq

inductive Poll where
  | pending
  | stream
  | error
  deriving DecidableEq

/-- What accepting does: it fails, or it takes the next connection, if there is one, whose handshake
is in this state after its first poll. -/
inductive Accept where
  | fails
  | takes (handshake : Handshake)

/-- A dropped permit goes to the waiting `acquire` or back to the semaphore. -/
def release (s : LimitedIncoming) : LimitedIncoming :=
  match s.acquire with
  | some .waiting => { s with acquire := some .granted }
  | _ => { s with available := s.available + 1 }

def pollTlsHandshake (s : LimitedIncoming) : Poll × LimitedIncoming :=
  match s.handshake with
  | some (.ended true) => (.stream, { s with handshake := none, streams := s.streams + 1 })
  | some (.ended false) => (.error, release { s with handshake := none })
  | _ => (.pending, s)

/-- The part of `poll_next` that gets a permit. -/
def pollAcquire (s : LimitedIncoming) : LimitedIncoming :=
  match s.acquire with
  | some .granted => { s with acquire := none, permit := true }
  | some .waiting => s
  | none =>
    if 0 < s.available then { s with available := s.available - 1, permit := true }
    else { s with acquire := some .waiting }

/-- The part of `poll_next` that accepts under a permit. -/
def pollAccept (s : LimitedIncoming) : Accept → Poll × LimitedIncoming
  | .fails => (.error, release { s with permit := false })
  | .takes handshake =>
    if s.backlog = 0 then (.pending, s)
    else pollTlsHandshake { s with backlog := s.backlog - 1, permit := false, handshake := some handshake }

def pollNext (s : LimitedIncoming) (accept : Accept) : Poll × LimitedIncoming :=
  if s.handshake.isSome then pollTlsHandshake s
  else
    let ready := if s.permit then s else pollAcquire s
    if ready.permit then pollAccept ready accept else (.pending, ready)

inductive Action where
  | polls (accept : Accept)
  | connects
  | shakes (ok : Bool)
  | drops

def step (s : LimitedIncoming) : Action → Option LimitedIncoming
  | .polls accept => some (pollNext s accept).2
  | .connects => some { s with backlog := s.backlog + 1 }
  | .shakes ok => if s.handshake = some .unfinished then some { s with handshake := some (.ended ok) } else none
  | .drops => if 0 < s.streams then some (release { s with streams := s.streams - 1 }) else none

def initial (permits : Nat) : LimitedIncoming where
  backlog := 0
  streams := 0
  available := permits
  acquire := none
  permit := false
  handshake := none

def system (permits : Nat) : System LimitedIncoming Action where
  init s := s = initial permits
  step := step

/-- The accepted streams alive, the one of the handshake among them. -/
def alive (s : LimitedIncoming) : Nat := s.streams + if s.handshake.isSome then 1 else 0

/-- The permit that the acceptor has, or that its `acquire` has been granted. -/
def held (s : LimitedIncoming) : Nat :=
  (if s.permit then 1 else 0) + if s.acquire = some .granted then 1 else 0

/-- The permits bound the streams, and a connection that waits while a permit is
free is accepted by the next poll when no earlier handshake is unfinished; one that has ended is
taken first and leaves the acceptor ready for it. -/
structure Sound (permits : Nat) (s : LimitedIncoming) : Prop where
  bounded : alive s + held s ≤ permits
  accepts : ∀ handshake, s.handshake = none → 0 < s.backlog → alive s < permits →
    (pollNext s (.takes handshake)).2.backlog + 1 = s.backlog
  clears : ∀ accept ok, s.handshake = some (.ended ok) →
    (pollNext s accept).2.handshake = none ∧ (pollNext s accept).2.backlog = s.backlog ∧
      (pollNext s accept).1 = if ok then .stream else .error

section Invariant

/-- Every permit is in one place; the acceptor waits for one only when there is none, and for none
while it has one or a handshake. -/
structure Inv (permits : Nat) (s : LimitedIncoming) : Prop where
  counted : s.available + alive s + held s = permits
  waits : s.acquire = some .waiting → s.available = 0
  apart : s.permit = true ∨ s.handshake.isSome = true → s.acquire = none
  single : s.handshake.isSome = true → s.permit = false

variable {permits : Nat} {s t : LimitedIncoming}

theorem initial_inv : Inv permits (initial permits) := by
  refine ⟨?_, ?_, ?_, ?_⟩ <;> simp [initial, alive, held]

theorem release_backlog : (release s).backlog = s.backlog := by
  unfold release
  split <;> rfl

theorem release_handshake : (release s).handshake = s.handshake := by
  unfold release
  split <;> rfl

/-- A permit that is counted nowhere any more comes back. -/
theorem inv_release (lost : s.available + alive s + held s + 1 = permits)
    (apart : s.permit = true ∨ s.handshake.isSome = true → s.acquire = none)
    (single : s.handshake.isSome = true → s.permit = false) : Inv permits (release s) := by
  cases acquire : s.acquire with
  | none =>
    simp only [release, acquire]
    refine ⟨?_, nofun, fun _ => rfl, single⟩
    simp only [alive, held, acquire] at lost ⊢
    omega
  | some waiter =>
    have idle : ¬(s.permit = true ∨ s.handshake.isSome = true) := by
      intro busy
      rw [apart busy] at acquire
      cases acquire
    obtain ⟨unpermitted, unshaken⟩ : s.permit = false ∧ s.handshake = none := by simpa using idle
    cases waiter with
    | waiting =>
      simp only [release, acquire]
      refine ⟨?_, nofun, fun busy => absurd busy idle, single⟩
      simp [alive, held, acquire, unpermitted, unshaken] at lost ⊢
      omega
    | granted =>
      simp only [release, acquire]
      refine ⟨?_, nofun, fun busy => absurd busy idle, single⟩
      simp [alive, held, acquire, unpermitted, unshaken] at lost ⊢
      omega

theorem inv_handshake (inv : Inv permits s) : Inv permits (pollTlsHandshake s).2 := by
  have counted := inv.counted
  unfold pollTlsHandshake
  split
  next ended =>
    have taken : s.handshake.isSome = true := by rw [ended]; rfl
    refine ⟨?_, inv.waits, fun _ => inv.apart (.inr taken), nofun⟩
    simp [alive, held, taken] at counted ⊢
    omega
  next ended =>
    have taken : s.handshake.isSome = true := by rw [ended]; rfl
    refine inv_release ?_ (fun _ => inv.apart (.inr taken)) nofun
    simp [alive, held, taken] at counted ⊢
    omega
  next => exact inv

theorem inv_acquire (inv : Inv permits s) (unpermitted : s.permit = false) (idle : s.handshake = none) :
    Inv permits (pollAcquire s) := by
  have counted := inv.counted
  unfold pollAcquire
  split
  next granted =>
    refine ⟨?_, nofun, fun _ => rfl, ?_⟩
    · simp [alive, held, granted, unpermitted] at counted ⊢
      omega
    · simp [idle]
  next => exact inv
  next none =>
    split
    next free =>
      refine ⟨?_, ?_, fun _ => none, ?_⟩
      · simp [alive, held, none, unpermitted] at counted ⊢
        omega
      · simp [none]
      · simp [idle]
    next empty =>
      refine ⟨?_, fun _ => by simpa using empty, ?_, ?_⟩
      · simp [alive, held, none, unpermitted] at counted ⊢
        omega
      · simp [unpermitted, idle]
      · simp [idle]

theorem inv_accept (inv : Inv permits s) (permit : s.permit = true) (idle : s.handshake = none)
    (accept : Accept) : Inv permits (pollAccept s accept).2 := by
  have counted := inv.counted
  have free := inv.apart (.inl permit)
  cases accept with
  | fails =>
    refine inv_release ?_ (fun _ => free) ?_
    · simp [alive, held, permit, free] at counted ⊢
      omega
    · simp
  | takes handshake =>
    simp only [pollAccept]
    split
    next => exact inv
    next =>
      refine inv_handshake ⟨?_, inv.waits, fun _ => free, fun _ => rfl⟩
      simp [alive, held, permit, free, idle] at counted ⊢
      omega

theorem acquire_handshake : (pollAcquire s).handshake = s.handshake := by
  unfold pollAcquire
  split
  next => rfl
  next => rfl
  next => split <;> rfl

theorem inv_poll (inv : Inv permits s) (accept : Accept) : Inv permits (pollNext s accept).2 := by
  unfold pollNext
  split
  next => exact inv_handshake inv
  next unshaken =>
    have idle : s.handshake = none := by simpa using unshaken
    cases permit : s.permit with
    | true =>
      simp only [permit, if_true]
      exact inv_accept inv permit idle accept
    | false =>
      have acquired := inv_acquire inv permit idle
      simp only [Bool.false_eq_true, if_false]
      split
      next granted => exact inv_accept acquired granted (acquire_handshake.trans idle) accept
      next => exact acquired

theorem inv_step {action : Action} (inv : Inv permits s) (taken : step s action = some t) : Inv permits t := by
  have counted := inv.counted
  cases action with
  | polls accept =>
    cases taken
    exact inv_poll inv accept
  | connects =>
    cases taken
    exact ⟨counted, inv.waits, inv.apart, inv.single⟩
  | shakes ok =>
    simp only [step, Option.ite_none_right_eq_some, Option.some.injEq] at taken
    obtain ⟨unfinished, rfl⟩ := taken
    have taken : s.handshake.isSome = true := by
      rw [unfinished]
      rfl
    refine ⟨?_, inv.waits, fun _ => inv.apart (.inr taken), fun _ => inv.single taken⟩
    simp [alive, held, unfinished] at counted ⊢
    omega
  | drops =>
    simp only [step, Option.ite_none_right_eq_some, Option.some.injEq] at taken
    obtain ⟨live, rfl⟩ := taken
    refine inv_release ?_ inv.apart inv.single
    simp only [alive, held] at counted ⊢
    omega

/-- With a permit free the acceptor has one by the time it accepts. -/
theorem permitted (inv : Inv permits s) (free : alive s < permits) :
    (if s.permit then s else pollAcquire s).permit = true := by
  have counted := inv.counted
  by_cases permit : s.permit = true
  · rw [if_pos permit]
    exact permit
  · rw [if_neg permit]
    unfold pollAcquire
    split
    next => rfl
    next waiting =>
      have none := inv.waits waiting
      simp [held, permit, waiting] at counted
      omega
    next none =>
      rw [if_pos]
      simp [held, permit, none] at counted
      omega

theorem acquire_backlog : (pollAcquire s).backlog = s.backlog := by
  unfold pollAcquire
  split
  next => rfl
  next => rfl
  next => split <;> rfl

theorem handshake_backlog : (pollTlsHandshake s).2.backlog = s.backlog := by
  unfold pollTlsHandshake
  split
  next => rfl
  next => exact release_backlog
  next => rfl

theorem sound_of_inv (inv : Inv permits s) : Sound permits s where
  bounded := by
    have counted := inv.counted
    omega
  accepts handshake idle waiting free := by
    have permit := permitted inv free
    have backlog : (if s.permit then s else pollAcquire s).backlog = s.backlog := by
      split
      next => rfl
      next => exact acquire_backlog
    unfold pollNext
    rw [if_neg (by simp [idle])]
    simp only [permit, if_true, pollAccept]
    rw [if_neg (by omega), handshake_backlog]
    simp only [backlog]
    omega
  clears accept ok ended := by
    unfold pollNext
    rw [if_pos (by simp [ended])]
    cases ok with
    | true => simp [pollTlsHandshake, ended]
    | false =>
      simp only [pollTlsHandshake, ended]
      exact ⟨release_handshake, release_backlog, rfl⟩

end Invariant

/-- No run gives out more permits than there are, and none leaves a connection waiting beside a
free permit except behind an unfinished handshake. -/
theorem reachable_sound (permits : Nat) (s : LimitedIncoming) (reached : (system permits).Reachable s) :
    Sound permits s :=
  sound_of_inv (reached.invariant (fun _ start => start ▸ initial_inv) fun _ _ _ => inv_step)

section Samples

/-- A peer that connects and stays silent, and a second one after it. -/
def silentPeer : List Action := [.connects, .polls (.takes .unfinished), .connects]

theorem silentPeer_runs : ((system 2).run (initial 2) silentPeer).isSome = true := by decide

theorem silentPeer_sound : Sound 2 (((system 2).run (initial 2) silentPeer).get silentPeer_runs) :=
  reachable_sound 2 _ (System.reachable_of_run (.start rfl) (Option.some_get _).symm)

/-- The second peer is not accepted although a permit is free. -/
theorem silentPeer_delays :
    ¬∀ (permits : Nat) (s : LimitedIncoming), (system permits).Reachable s → 0 < s.backlog →
      alive s < permits → ∃ handshake, (pollNext s (.takes handshake)).2.backlog + 1 = s.backlog := by
  intro always
  obtain ⟨handshake, accepted⟩ := always 2 (((system 2).run (initial 2) silentPeer).get silentPeer_runs)
    (System.reachable_of_run (.start rfl) (Option.some_get _).symm) (by decide) (by decide)
  cases handshake with
  | unfinished => exact absurd accepted (by decide)
  | ended ok => cases ok <;> exact absurd accepted (by decide)

end Samples

end Pbox.Agent.Incoming
