import Pbox.Agent.SessionSteps
import Mathlib.Data.List.Nodup

/-! What a viewer of a session receives: the screen as it stood when it subscribed, and then
every event published after that. The redraw and the subscription share one locked section with
the screen, and an event that is being sent is owed to exactly the viewers it was taken for. -/

namespace Pbox.Agent.Broadcast
open Pbox.Lib.Channel Pbox.Lib.Transition Pbox.Agent.Session Pbox.Agent.Terminal
  Pbox.Agent.SessionRun Pbox.Agent.SessionSteps

section Screens
variable {Screen : Type} (vt : Vt100 Screen)

def apply (parser : Parser Screen) : Happening → Parser Screen
  | .published event headless => (absorb vt parser headless event).2
  | .resized size => setSize vt parser size

/-- The screen after a series of locked sections. -/
def replay (start : Parser Screen) (log : List Happening) : Parser Screen := log.foldl (apply vt) start

def event : Happening → Option Delivery
  | .published event _ => some event
  | .resized _ => none

/-- The events of a log in the order of their publication. -/
def published (log : List Happening) : List Delivery := log.filterMap event

/-- What the owner still has to hand to a viewer. -/
def inFlight (owner : Owner) (v : Nat) : List Delivery :=
  match owner with
  | .sending event rest _ => if v ∈ rest then [event] else []
  | _ => []

/-- The redraw of the screen as it was when the viewer subscribed. -/
def opening (start : Parser Screen) (log : List Happening) (viewer : Viewer) : List Delivery :=
  if viewer.created then []
  else [.ok ⟨some (.stdout (redraw vt (replay vt start (log.take viewer.joined))))⟩]

/-- The stream of one viewer. A viewer's own close ends what it is owed. -/
structure StreamInv (start : Parser Screen) (owner : Owner) (log : List Happening) (v : Nat)
    (viewer : Viewer) : Prop where
  joined : viewer.joined ≤ log.length
  created : viewer.created = true → published (log.take viewer.joined) = []
  delivered : viewer.output.closed = false → ∃ tail, (tail = [] ∨ owner = .ended ∧ tail = [farewell]) ∧
    viewer.received ++ viewer.output.queue ++ inFlight owner v =
      opening vt start log viewer ++ published (log.drop viewer.joined) ++ tail

structure InvAt (start : Parser Screen) (state : State Screen) (viewers : Nat → Option Viewer)
    (owner : Owner) (creating : Bool) (log : List Happening) : Prop where
  screen : state.screen = replay vt start log
  subscribed : owner ≠ .ended → ∀ v viewer, viewers v = some viewer →
    viewer.output.closed = false → v ∈ state.outputs
  distinct : state.outputs.Nodup
  known : ∀ v ∈ state.outputs, viewers v ≠ none
  pending : ∀ event rest seen, owner = .sending event rest seen →
    rest.Nodup ∧ (∀ v ∈ rest, viewers v ≠ none) ∧ seen = state.generation
  silent : owner = .unspawned → published log = []
  creator : creating = true → owner = .unspawned
  stream : ∀ v viewer, viewers v = some viewer → StreamInv vt start owner log v viewer

abbrev Inv (start : Parser Screen) (s : Run Screen) : Prop :=
  InvAt vt start s.state s.viewers s.owner s.creating s.log

end Screens

variable {Screen : Type} {vt : Vt100 Screen} {start : Parser Screen}

@[simp] theorem published_append (first second : List Happening) :
    published (first ++ second) = published first ++ published second := List.filterMap_append

@[simp] theorem published_resized (size : Size) : published [.resized size] = [] := rfl

@[simp] theorem published_published (event : Delivery) (headless : Bool) :
    published [.published event headless] = [event] := rfl

theorem replay_append (first second : List Happening) :
    replay vt start (first ++ second) = replay vt (replay vt start first) second :=
  List.foldl_append

theorem opening_append {log added : List Happening} {viewer : Viewer}
    (joined : viewer.joined ≤ log.length) :
    opening vt start (log ++ added) viewer = opening vt start log viewer := by
  unfold opening
  rw [List.take_append_of_le_length joined]

/-- What carries the stream of a viewer from one state to the next: whatever is added to the
events owed to it is what was published meanwhile. -/
theorem StreamInv.next {owner : Owner} {log : List Happening} {v : Nat} {viewer : Viewer}
    (inv : StreamInv vt start owner log v viewer) (owner' : Owner) (viewer' : Viewer)
    (added : List Happening)
    (joined : viewer'.joined = viewer.joined) (created : viewer'.created = viewer.created)
    (past : owner = .ended → owner' = .ended ∧ published added = [])
    (moved : viewer'.output.closed = false → viewer.output.closed = false ∧
      viewer'.received ++ viewer'.output.queue ++ inFlight owner' v =
        viewer.received ++ viewer.output.queue ++ inFlight owner v ++ published added) :
    StreamInv vt start owner' (log ++ added) v viewer' where
  joined := by
    rw [joined, List.length_append]
    exact Nat.le_add_right_of_le inv.joined
  created own := by
    rw [joined, List.take_append_of_le_length inv.joined]
    exact inv.created (created ▸ own)
  delivered opened := by
    obtain ⟨before, same⟩ := moved opened
    obtain ⟨tail, shape, total⟩ := inv.delivered before
    have first : opening vt start (log ++ added) viewer' = opening vt start log viewer := by
      rw [opening_append (joined ▸ inv.joined)]
      unfold opening
      rw [joined, created]
    refine ⟨tail, ?_, ?_⟩
    · exact shape.imp id fun ⟨ended, last⟩ => ⟨(past ended).1, last⟩
    · rw [same, total, first, joined, List.drop_append_of_le_length inv.joined, published_append]
      rcases shape with rfl | ⟨ended, rfl⟩
      · simp only [List.append_nil, List.append_assoc]
      · rw [(past ended).2]
        simp only [List.append_nil]

/-- A step that neither adds to the log nor serves this viewer. -/
theorem StreamInv.keep {owner owner' : Owner} {log : List Happening} {v : Nat} {viewer : Viewer}
    (inv : StreamInv vt start owner log v viewer) (past : owner = .ended → owner' = .ended)
    (same : viewer.output.closed = false → inFlight owner' v = inFlight owner v) :
    StreamInv vt start owner' log v viewer := by
  have moved := inv.next owner' viewer [] rfl rfl
    (fun ended => ⟨past ended, rfl⟩)
    (fun opened => ⟨opened, by rw [same opened]; exact (List.append_nil _).symm⟩)
  rwa [List.append_nil] at moved

section Steps
variable {state : State Screen} {viewers : Nat → Option Viewer} {owner : Owner} {creating : Bool}
  {log : List Happening}

theorem settled (inv : InvAt vt start state viewers owner creating log)
    (spawned : owner ≠ .unspawned) : creating = false := by
  cases creating with
  | false => rfl
  | true => exact absurd (inv.creator rfl) spawned

/-- A viewer that is known stays known. -/
theorem known_update {v w : Nat} {viewer : Viewer} (known : viewers w ≠ none) :
    Function.update viewers v (some viewer) w ≠ none := by
  rw [Function.update_apply]
  split_ifs
  · exact Option.some_ne_none _
  · exact known

/-- The owner moves on without an event in its hands. -/
theorem inv_owner {owner' : Owner} (inv : InvAt vt start state viewers owner creating log)
    (fresh : creating = false) (alive : owner ≠ .ended) (running : owner' ≠ .unspawned)
    (same : ∀ v, inFlight owner' v = inFlight owner v)
    (resting : ∀ event rest seen, owner' ≠ .sending event rest seen) :
    InvAt vt start state viewers owner' creating log where
  screen := inv.screen
  subscribed _ := inv.subscribed alive
  distinct := inv.distinct
  known := inv.known
  pending event rest seen sending := absurd sending (resting event rest seen)
  silent unspawned := absurd unspawned running
  creator own := by rw [fresh] at own; cases own
  stream v viewer found :=
    (inv.stream v viewer found).keep (fun ended => absurd ended alive) (fun _ => same v)

/-- One viewer's client takes an event or goes away. -/
theorem inv_viewer {v : Nat} {viewer viewer' : Viewer}
    (inv : InvAt vt start state viewers owner creating log) (found : viewers v = some viewer)
    (joined : viewer'.joined = viewer.joined) (created : viewer'.created = viewer.created)
    (kept : viewer'.output.closed = false → viewer.output.closed = false ∧
      viewer'.received ++ viewer'.output.queue = viewer.received ++ viewer.output.queue) :
    InvAt vt start state (Function.update viewers v (some viewer')) owner creating log where
  screen := inv.screen
  subscribed alive w other present opened := by
    rw [Function.update_apply] at present
    split_ifs at present with here
    · cases present
      exact here ▸ inv.subscribed alive v viewer found (kept opened).1
    · exact inv.subscribed alive w other present opened
  distinct := inv.distinct
  known w member := known_update (inv.known w member)
  pending event rest seen sending := by
    obtain ⟨distinct, known, same⟩ := inv.pending event rest seen sending
    exact ⟨distinct, fun w member => known_update (known w member), same⟩
  silent := inv.silent
  creator := inv.creator
  stream w other present := by
    rw [Function.update_apply] at present
    split_ifs at present with here
    · cases present
      have moved := (inv.stream v viewer found).next owner viewer' [] joined created
        (fun ended => ⟨ended, rfl⟩)
        (fun opened => ⟨(kept opened).1, by rw [(kept opened).2]; exact (List.append_nil _).symm⟩)
      rw [List.append_nil] at moved
      exact here ▸ moved
    · exact inv.stream w other present

theorem offer_first {first : Option Delivery} : (openOutput first).queue = first.toList := by
  cases first with
  | none => rfl
  | some event => exact Channel.offer_queue.trans (if_pos (Channel.room_empty (by decide)))

/-- A subscription puts the redraw of the present screen into an empty queue. -/
theorem stream_attach {v : Nat} {created : Bool} {size : Size}
    (inv : InvAt vt start state viewers owner creating log) (fresh : viewers v = none)
    (own : created = true → creating = true) :
    StreamInv vt start owner (log ++ [.resized size]) v
      ⟨openOutput (state.attach vt created size v).2, [], created, log.length + 1⟩ where
  joined := by simp
  created mine := by
    rw [List.take_of_length_le (by simp), published_append]
    simpa using inv.silent (inv.creator (own mine))
  delivered _ := by
    refine ⟨[], .inl rfl, ?_⟩
    have unserved : inFlight owner v = [] := by
      unfold inFlight
      split
      next event rest seen =>
        exact if_neg fun member => (inv.pending event rest seen rfl).2.1 v member fresh
      next => rfl
    have all : (log ++ [Happening.resized size]).take (log.length + 1) = log ++ [.resized size] :=
      List.take_of_length_le (by simp)
    rw [offer_first, unserved, List.drop_of_length_le (by simp)]
    unfold opening
    rw [all, replay_append, ← inv.screen]
    cases created <;> rfl

theorem inv_attach {v : Nat} {created : Bool} {size : Size}
    (inv : InvAt vt start state viewers owner creating log) (fresh : viewers v = none)
    (own : created = true → creating = true) :
    InvAt vt start (state.attach vt created size v).1
      (Function.update viewers v
        (some ⟨openOutput (state.attach vt created size v).2, [], created, log.length + 1⟩))
      owner (creating && !created) (log ++ [.resized size]) where
  screen := by
    rw [replay_append, ← inv.screen]
    rfl
  subscribed alive w other present opened := by
    rw [Function.update_apply] at present
    show w ∈ state.outputs ++ [v]
    split_ifs at present with here
    · exact List.mem_append_right _ (by rw [here]; exact List.mem_singleton_self v)
    · exact List.mem_append_left _ (inv.subscribed alive w other present opened)
  distinct := by
    show (state.outputs ++ [v]).Nodup
    have absent : v ∉ state.outputs := fun member => inv.known v member fresh
    exact inv.distinct.append (List.nodup_singleton v) (List.disjoint_singleton.mpr absent)
  known w member := by
    have cases : w ∈ state.outputs ++ [v] := member
    rcases List.mem_append.mp cases with earlier | last
    · exact known_update (inv.known w earlier)
    · rw [List.mem_singleton.mp last, Function.update_self]
      exact Option.some_ne_none _
  pending event rest seen sending := by
    obtain ⟨distinct, known, same⟩ := inv.pending event rest seen sending
    exact ⟨distinct, fun w member => known_update (known w member), same⟩
  silent unspawned := by
    rw [published_append, inv.silent unspawned]
    rfl
  creator still := inv.creator (Bool.and_eq_true_iff.mp still).1
  stream w other present := by
    rw [Function.update_apply] at present
    split_ifs at present with here
    · cases present
      subst here
      exact stream_attach inv fresh own
    · exact (inv.stream w other present).next owner other [.resized size] rfl rfl
        (fun ended => ⟨ended, rfl⟩) (fun opened => ⟨opened, (List.append_nil _).symm⟩)

/-- A resize by an attached viewer, or an input message without one. -/
theorem inv_commit {resize : Option Size} (inv : InvAt vt start state viewers owner creating log) :
    InvAt vt start (state.attachment vt resize) viewers owner creating
      (match resize with
        | some size => log ++ [.resized size]
        | none => log) := by
  cases resize with
  | none => exact inv
  | some size =>
    exact
      { screen := by
          rw [replay_append, ← inv.screen]
          rfl
        subscribed := inv.subscribed
        distinct := inv.distinct
        known := inv.known
        pending := inv.pending
        silent := fun unspawned => by
          rw [published_append, inv.silent unspawned]
          rfl
        creator := inv.creator
        stream := fun v viewer found =>
          (inv.stream v viewer found).next owner viewer [.resized size] rfl rfl
            (fun ended => ⟨ended, rfl⟩) (fun opened => ⟨opened, (List.append_nil _).symm⟩) }

theorem mem_retain {gone : Nat → Bool} {outputs : List Nat} {v : Nat} :
    v ∈ retain gone outputs ↔ v ∈ outputs ∧ gone v = false := by
  simp [retain]

theorem closed_of_found {v : Nat} {viewer : Viewer} (found : viewers v = some viewer) :
    closed viewers v = viewer.output.closed := by
  unfold closed
  rw [found]

/-- Publishing owes the event to every viewer that is open at that moment. -/
theorem inv_publish {event : Delivery} (inv : InvAt vt start state viewers .idle creating log) :
    InvAt vt start (state.publish vt (closed viewers) event).1 viewers
      (.sending event (state.publish vt (closed viewers) event).2.2 state.generation) creating
      (log ++ [.published event (state.headless (closed viewers))]) where
  screen := by
    rw [replay_append, ← inv.screen]
    rfl
  subscribed _ v viewer found opened :=
    mem_retain.mpr ⟨inv.subscribed (by simp) v viewer found opened,
      (closed_of_found found).trans opened⟩
  distinct := inv.distinct.filter _
  known v member := inv.known v (mem_retain.mp member).1
  pending _ rest _ sending := by
    cases sending
    exact ⟨inv.distinct.filter _, fun v member => inv.known v (mem_retain.mp member).1, rfl⟩
  silent unspawned := by cases unspawned
  creator own := by cases inv.creator own
  stream v viewer found := by
    refine (inv.stream v viewer found).next _ viewer _ rfl rfl (fun ended => by cases ended) ?_
    intro opened
    have owed : v ∈ retain (closed viewers) state.outputs :=
      mem_retain.mpr ⟨inv.subscribed (by simp) v viewer found opened,
        (closed_of_found found).trans opened⟩
    refine ⟨opened, ?_⟩
    have flight : inFlight (.sending event (state.publish vt (closed viewers) event).2.2
        state.generation) v = [event] := if_pos owed
    rw [flight, published_published]
    simp [inFlight]

/-- Serving one viewer leaves what the others are owed. -/
theorem inFlight_tail {event : Delivery} {v w : Nat} {rest : List Nat} {seen : Nat}
    (different : w ≠ v) :
    inFlight (.sending event rest seen) w = inFlight (.sending event (v :: rest) seen) w := by
  simp [inFlight, different]

theorem inFlight_head (event : Delivery) {v : Nat} {rest : List Nat} (seen : Nat)
    (distinct : (v :: rest).Nodup) :
    inFlight (.sending event rest seen) v = [] ∧
      inFlight (.sending event (v :: rest) seen) v = [event] := by
  simp [inFlight, (List.nodup_cons.mp distinct).1]

theorem pending_tail {event : Delivery} {v : Nat} {rest : List Nat} {seen : Nat}
    (inv : InvAt vt start state viewers (.sending event (v :: rest) seen) creating log) :
    rest.Nodup ∧ (∀ w ∈ rest, viewers w ≠ none) ∧ seen = state.generation := by
  obtain ⟨distinct, known, same⟩ := inv.pending event (v :: rest) seen rfl
  exact ⟨(List.nodup_cons.mp distinct).2, fun w member => known w (List.mem_cons_of_mem _ member), same⟩

theorem inv_deliver {event : Delivery} {v : Nat} {rest : List Nat} {seen : Nat} {viewer : Viewer}
    {output : Channel Delivery}
    (inv : InvAt vt start state viewers (.sending event (v :: rest) seen) creating log)
    (found : viewers v = some viewer) (sent : viewer.output.trySend event = some output) :
    InvAt vt start state (Function.update viewers v (some { viewer with output := output }))
      (.sending event rest seen) creating log where
  screen := inv.screen
  subscribed _ w other present opened := by
    rw [Function.update_apply] at present
    split_ifs at present with here
    · cases present
      obtain ⟨_, _, _, still, _⟩ := Channel.trySend_some sent
      exact here ▸ inv.subscribed (by simp) v viewer found (still ▸ opened)
    · exact inv.subscribed (by simp) w other present opened
  distinct := inv.distinct
  known w member := known_update (inv.known w member)
  pending _ _ _ sending := by
    cases sending
    obtain ⟨distinct, known, same⟩ := pending_tail inv
    exact ⟨distinct, fun w member => known_update (known w member), same⟩
  silent unspawned := by cases unspawned
  creator own := by cases inv.creator own
  stream w other present := by
    rw [Function.update_apply] at present
    split_ifs at present with here
    · cases present
      obtain ⟨_, queue, _, still, _⟩ := Channel.trySend_some sent
      obtain ⟨after, before⟩ := inFlight_head event seen
        (inv.pending event (v :: rest) seen rfl).1
      have moved := (inv.stream v viewer found).next (.sending event rest seen)
        { viewer with output := output } [] rfl rfl (fun ended => by cases ended)
        (fun opened => ⟨still ▸ opened, by rw [queue, after, before]; simp [published]⟩)
      rw [List.append_nil] at moved
      exact here ▸ moved
    · exact (inv.stream w other present).keep (fun ended => by cases ended)
        (fun _ => inFlight_tail here)

theorem inv_skipClosed {event : Delivery} {v : Nat} {rest : List Nat} {seen : Nat}
    (inv : InvAt vt start state viewers (.sending event (v :: rest) seen) creating log)
    (gone : closed viewers v = true) :
    InvAt vt start { state with outputs := retain (closed viewers) state.outputs } viewers
      (.sending event rest seen) creating log where
  screen := inv.screen
  subscribed _ w viewer found opened :=
    mem_retain.mpr ⟨inv.subscribed (by simp) w viewer found opened,
      (closed_of_found found).trans opened⟩
  distinct := inv.distinct.filter _
  known w member := inv.known w (mem_retain.mp member).1
  pending _ _ _ sending := by
    have tail := pending_tail inv
    cases sending
    exact tail
  silent unspawned := by cases unspawned
  creator own := by cases inv.creator own
  stream w viewer found := by
    refine (inv.stream w viewer found).keep (fun ended => by cases ended) fun opened => ?_
    refine inFlight_tail fun here => ?_
    rw [here] at found
    rw [closed_of_found found, opened] at gone
    cases gone

/-- The owner's last section adds at most its farewell to a viewer's stream. -/
theorem stream_dismiss {v : Nat} {viewer : Viewer} (inv : StreamInv vt start .stopping log v viewer) :
    StreamInv vt start .ended log v viewer.dismiss where
  joined := inv.joined
  created := inv.created
  delivered opened := by
    obtain ⟨tail, shape, total⟩ := inv.delivered (Channel.offer_closed ▸ opened)
    rcases shape with rfl | ⟨ended, _⟩
    · simp only [inFlight, List.append_nil] at total
      show ∃ tail, _ ∧ viewer.received ++ (viewer.output.offer farewell).queue ++ _ = _
      rw [Channel.offer_queue]
      split
      next =>
        refine ⟨[farewell], .inr ⟨rfl, rfl⟩, ?_⟩
        simp only [inFlight, List.append_nil]
        rw [← List.append_assoc, total]
        rfl
      next =>
        refine ⟨[], .inl rfl, ?_⟩
        simp only [inFlight, List.append_nil]
        exact total
    · cases ended

theorem inv_finish (inv : InvAt vt start state viewers .stopping creating log) :
    InvAt vt start { state with outputs := [], generation := state.generation + 1 }
      (fun v => if v ∈ state.outputs then (viewers v).map Viewer.dismiss else viewers v)
      .ended creating log where
  screen := inv.screen
  subscribed alive := absurd rfl alive
  distinct := List.nodup_nil
  known v member := absurd member List.not_mem_nil
  pending _ _ _ sending := by cases sending
  silent unspawned := by cases unspawned
  creator own := by cases inv.creator own
  stream v viewer found := by
    split_ifs at found
    · obtain ⟨before, present, rfl⟩ := Option.map_eq_some_iff.mp found
      exact stream_dismiss (inv.stream v before present)
    · exact (inv.stream v viewer found).keep (fun ended => by cases ended) (fun _ => rfl)

end Steps

/-- Everything that may happen between attaches, publications and disconnects. Closing the
session cuts a publication short, and a refused resize ends a stream with an error of its own. -/
def interleaved : Action → Bool
  | .close | .reject _ _ => false
  | _ => true

theorem initial_inv (first : ExecRequest) (createdUnix : Nat) (creating : Bool) :
    Inv vt (State.new vt first createdUnix).screen (initial vt first createdUnix creating) where
  screen := rfl
  subscribed _ _ _ found := by cases found
  distinct := List.nodup_nil
  known _ member := absurd member List.not_mem_nil
  pending _ _ _ sending := by cases sending
  silent _ := rfl
  creator _ := rfl
  stream _ _ found := by cases found

theorem inv_step {s t : Run Screen} {a : Action} (inv : Inv vt start s)
    (meets : interleaved a = true) (taken : step vt s a = some t) : Inv vt start t := by
  cases runStep taken with
  | close | reject => cases meets
  | attach _ fresh own => exact inv_attach inv fresh own
  | spawn was settled =>
    exact inv_owner inv settled (by simp [was]) (by simp) (fun v => by rw [was]; rfl) (by simp)
  | publish was =>
    unfold Inv at inv
    rw [was] at inv
    exact inv_publish inv
  | deliver was found sent =>
    unfold Inv at inv
    rw [was] at inv
    exact inv_deliver inv found sent
  | skipClosed was gone =>
    unfold Inv at inv
    rw [was] at inv
    exact inv_skipClosed inv gone
  | skipTakeover was newer => exact absurd (inv.pending _ _ _ was).2.2.symm newer
  | publishDone was =>
    exact inv_owner inv (settled inv (by simp [was])) (by simp [was]) (by simp)
      (fun v => by rw [was]; simp [inFlight]) (by simp)
  | workerEnds was =>
    exact inv_owner inv (settled inv (by simp [was])) (by simp [was]) (by simp)
      (fun v => by rw [was]; rfl) (by simp)
  | finish was =>
    unfold Inv at inv
    rw [was] at inv
    exact inv_finish inv
  | receive found received =>
    obtain ⟨queue, _, still, _⟩ := Channel.receive_some received
    exact inv_viewer inv found rfl rfl (fun opened => ⟨still ▸ opened, by rw [queue]; simp⟩)
  | disconnect found => exact inv_viewer inv found rfl rfl (fun opened => by cases opened)
  | commit => exact inv_commit inv
  | requestResize | read | leave | heartbeat | typeReserve | typeSend | typeDrop | consume |
      feedStops =>
    exact inv

/-- What a viewer that stays open is sure of. The log of locked sections splits at its
subscription: the redraw shows what is before it, the live events are what is after it. -/
structure Receives (vt : Vt100 Screen) (start : Parser Screen) (s : Run Screen) (v : Nat)
    (viewer : Viewer) : Prop where
  screen : s.state.screen = replay vt start s.log
  joined : viewer.joined ≤ s.log.length
  created : viewer.created = true → published (s.log.take viewer.joined) = []
  settled : s.owner = .ended → inFlight s.owner v = []
  delivered : ∃ tail, (tail = [] ∨ s.owner = .ended ∧ tail = [farewell]) ∧
    viewer.received ++ viewer.output.queue ++ inFlight s.owner v =
      opening vt start s.log viewer ++ published (s.log.drop viewer.joined) ++ tail

/-- A viewer that stays open gets the redraw of the screen as of its subscription, unless it
created the session, then all that was published afterwards, each event once and in order, and
at most a farewell at the end. -/
theorem viewer_receives (vt : Vt100 Screen) (first : ExecRequest) (createdUnix : Nat)
    (creating : Bool) (s : Run Screen)
    (reached : (system vt first createdUnix creating).ReachableBy (fun _ a => interleaved a = true) s)
    (v : Nat) (viewer : Viewer) (attached : s.viewers v = some viewer)
    (opened : viewer.output.closed = false) :
    Receives vt (State.new vt first createdUnix).screen s v viewer := by
  have inv : Inv vt (State.new vt first createdUnix).screen s := reached.invariant
    (fun _ start => start.2 ▸ initial_inv first createdUnix creating)
    (fun _ _ _ inv meets taken => inv_step inv meets taken)
  have stream := inv.stream v viewer attached
  exact ⟨inv.screen, stream.joined, stream.created, fun ended => by rw [ended]; rfl,
    stream.delivered opened⟩

/-- A second viewer joins between two events, and the first one leaves during the second. -/
def lateJoin : List Action :=
  [.attach 0 true 0 0, .requestResize 0, .spawn, .publish (.ok ⟨some (.stdout (ascii "a"))⟩), .deliver,
    .publishDone, .attach 1 false 30 90, .publish (.ok ⟨some (.stdout (ascii "b"))⟩), .disconnect 0,
    .skipClosed, .deliver, .receive 1]

theorem lateJoin_runs :
    ((system transcript shell 0 true).runBy (fun _ a => interleaved a) (initial transcript shell 0 true)
      lateJoin).isSome = true := by decide

def late : Run ((Nat × Nat) × Bytes) :=
  ((system transcript shell 0 true).runBy (fun _ a => interleaved a) (initial transcript shell 0 true)
    lateJoin).get lateJoin_runs

theorem late_joined : (late.viewers 1).isSome = true := by decide

theorem late_receives :
    Receives transcript (State.new transcript shell 0).screen late 1 ((late.viewers 1).get late_joined) :=
  viewer_receives transcript shell 0 true late
    (System.reachableBy_of_runBy (fun _ _ meets => meets) (.start ⟨⟨shell, shell_normal⟩, rfl⟩)
      (Option.some_get _).symm)
    1 _ (Option.some_get _).symm (by decide)

end Pbox.Agent.Broadcast
