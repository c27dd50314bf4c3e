import Mathlib.Logic.Relation

/-! Programs that ask one question at a time and go on with the answer, in a world that answers as it likes and may
change between two answers. A specification says what is safe at every moment and what holds at each end; the rules take
it through the constructs of a program. -/

namespace Pbox.Lib.Dialogue

inductive Program (Query : Type) (Answer : Query → Type) (Result : Type) : Type where
  | done (result : Result)
  | ask (query : Query) (next : Answer query → Program Query Answer Result)

variable {Query : Type} {Answer : Query → Type} {State Value Result Error : Type}

def Program.bind : Program Query Answer Value → (Value → Program Query Answer Result) → Program Query Answer Result
  | .done value, next => next value
  | .ask query rest, next => .ask query fun answer => (rest answer).bind next

instance : Monad (Program Query Answer) where
  pure := .done
  bind := Program.bind

/-- What may happen between two questions, and what a question may be answered with. -/
structure World (Query : Type) (Answer : Query → Type) (State : Type) where
  drifts : State → State → Prop
  answers : State → (query : Query) → Answer query → State → Prop

def World.Drifts (world : World Query Answer State) : State → State → Prop := Relation.ReflTransGen world.drifts

/-- What is left of a program, and the state, at some moment of a run. -/
inductive Reaches (world : World Query Answer State) :
    Program Query Answer Result → State → Program Query Answer Result → State → Prop
  | here (program : Program Query Answer Result) (s : State) : Reaches world program s program s
  | drifts {program rest : Program Query Answer Result} {s t u : State} (moved : world.drifts s t)
      (later : Reaches world program t rest u) : Reaches world program s rest u
  | answered {query : Query} {next : Answer query → Program Query Answer Result} {answer : Answer query}
      {rest : Program Query Answer Result} {s t u : State} (answers : world.answers s query answer t)
      (later : Reaches world (next answer) t rest u) : Reaches world (.ask query next) s rest u

/-- Every moment of every run is safe, and every end of a run is as it should be. -/
def Always (world : World Query Answer State) (safe : State → Prop) :
    Program Query Answer Result → (Result → State → Prop) → State → Prop
  | .done result, post, s => ∀ t, world.Drifts s t → safe t ∧ post result t
  | .ask query next, post, s => ∀ t, world.Drifts s t →
      safe t ∧ ∀ answer u, world.answers t query answer u → Always world safe (next answer) post u

section Rules
variable {world : World Query Answer State} {safe : State → Prop} {s t : State}

theorem Always.here {program : Program Query Answer Result} {post : Result → State → Prop}
    (always : Always world safe program post s) : safe s := by
  cases program with
  | done result => exact (always s .refl).1
  | ask query next => exact (always s .refl).1

theorem Always.drifted {program : Program Query Answer Result} {post : Result → State → Prop}
    (always : Always world safe program post s) (moved : world.Drifts s t) : Always world safe program post t := by
  cases program with
  | done result => exact fun u later => always u (moved.trans later)
  | ask query next => exact fun u later => always u (moved.trans later)

theorem Always.mono {program : Program Query Answer Result} {post post' : Result → State → Prop}
    (always : Always world safe program post s) (weaker : ∀ result t, safe t → post result t → post' result t) :
    Always world safe program post' s := by
  induction program generalizing s with
  | done result =>
    intro t moved
    obtain ⟨held, ends⟩ := always t moved
    exact ⟨held, weaker result t held ends⟩
  | ask query next ih =>
    intro t moved
    obtain ⟨held, later⟩ := always t moved
    exact ⟨held, fun answer u answered => ih answer (later answer u answered)⟩

/-- The two halves of a program, one after the other. -/
theorem always_bind {first : Program Query Answer Value} {next : Value → Program Query Answer Result}
    {post : Result → State → Prop} : Always world safe (first.bind next) post s ↔
      Always world safe first (fun value t => Always world safe (next value) post t) s := by
  induction first generalizing s with
  | done value => exact ⟨fun always t moved => ⟨(always.drifted moved).here, always.drifted moved⟩,
      fun always => (always s .refl).2⟩
  | ask query rest ih =>
    constructor
    · intro always t moved
      obtain ⟨held, later⟩ := always t moved
      exact ⟨held, fun answer u answered => (ih answer).mp (later answer u answered)⟩
    · intro always t moved
      obtain ⟨held, later⟩ := always t moved
      exact ⟨held, fun answer u answered => (ih answer).mpr (later answer u answered)⟩

/-- What holds at an end goes on holding as the world changes. -/
theorem Always.kept {program : Program Query Answer Result} {post : Result → State → Prop}
    (always : Always world safe program post s) :
    Always world safe program (fun result t => ∀ u, world.Drifts t u → safe u ∧ post result u) s := by
  induction program generalizing s with
  | done result => exact fun t moved => ⟨(always t moved).1, fun u later => always u (moved.trans later)⟩
  | ask query next ih =>
    intro t moved
    obtain ⟨held, later⟩ := always t moved
    exact ⟨held, fun answer u answered => ih answer (later answer u answered)⟩

/-- A specification says what every run reaches. -/
theorem Always.reached {program rest : Program Query Answer Result} {post : Result → State → Prop}
    (always : Always world safe program post s) (reaches : Reaches world program s rest t) :
    Always world safe rest post t := by
  induction reaches with
  | here => exact always
  | drifts moved _ ih => exact ih (always.drifted (.single moved))
  | answered answers _ ih => exact ih ((always _ .refl).2 _ _ answers)

/-- What no drift from a safe state breaks. -/
theorem drifts_kept {kept : State → Prop} (drift : ∀ s t, safe s → kept s → world.drifts s t → kept t)
    (safely : ∀ u, world.Drifts s u → safe u) (start : kept s) (moved : world.Drifts s t) : kept t := by
  induction moved with
  | refl => exact start
  | tail before moved ih => exact drift _ _ (safely _ before) ih moved

/-- What no step of the world breaks holds at the ends as well. -/
theorem Always.frame {program : Program Query Answer Result} {post : Result → State → Prop} {kept : State → Prop}
    (always : Always world safe program post s) (start : kept s)
    (drift : ∀ s t, safe s → kept s → world.drifts s t → kept t)
    (answered : ∀ s query answer t, safe s → kept s → world.answers s query answer t → kept t) :
    Always world safe program (fun result t => post result t ∧ kept t) s := by
  induction program generalizing s with
  | done result =>
    intro t moved
    obtain ⟨held, ends⟩ := always t moved
    exact ⟨held, ends, drifts_kept drift (fun u later => (always u later).1) start moved⟩
  | ask query next ih =>
    intro t moved
    obtain ⟨held, later⟩ := always t moved
    have here := drifts_kept drift (fun u later => (always u later).1) start moved
    exact ⟨held, fun answer u answers => ih answer (later answer u answers) (answered t query answer u held here answers)⟩

/-- What no step of the world breaks is safe in every program. -/
theorem always_invariant (program : Program Query Answer Result) (drift : ∀ s t, safe s → world.drifts s t → safe t)
    (answered : ∀ s query answer t, safe s → world.answers s query answer t → safe t) (held : safe s) :
    Always world safe program (fun _ _ => True) s := by
  have drifts {s t : State} (held : safe s) (moved : world.Drifts s t) : safe t := by
    induction moved with
    | refl => exact held
    | tail _ moved ih => exact drift _ _ ih moved
  induction program generalizing s with
  | done result => exact fun t moved => ⟨drifts held moved, trivial⟩
  | ask query next ih =>
    intro t moved
    have here := drifts held moved
    exact ⟨here, fun answer u answers => ih answer (answered t query answer u here answers)⟩

end Rules

/-! Programs whose questions and whose parts may fail. -/

abbrev Attempt (Query : Type) (Value : Query → Type) (Error Result : Type) : Type :=
  ExceptT Error (Program Query fun query => Except Error (Value query)) Result

section Attempts
variable {Value : Query → Type} {First : Type}

def request (query : Query) : Attempt Query Value Error (Value query) :=
  ExceptT.mk (.ask query .done)

/-- The errors of a part, changed on their way out. -/
def mapFailure (change : Error → Error) (part : Attempt Query Value Error Result) : Attempt Query Value Error Result :=
  ExceptT.mk (part.run.bind fun outcome => .done (outcome.mapError change))

variable {world : World Query (fun query => Except Error (Value query)) State} {safe : State → Prop} {s : State}

/-- A specification of a program with one condition for its results and one for its errors. -/
def Attempts (world : World Query (fun query => Except Error (Value query)) State) (safe : State → Prop)
    (part : Attempt Query Value Error Result) (ok : Result → State → Prop) (failed : Error → State → Prop) (s : State) :
    Prop :=
  Always world safe part.run (fun outcome t =>
    match outcome with
    | .ok result => ok result t
    | .error error => failed error t) s

section Rules
variable {ok : Result → State → Prop} {failed : Error → State → Prop}

theorem Attempts.mono {part : Attempt Query Value Error Result} {ok' : Result → State → Prop} {failed' : Error → State → Prop}
    (attempts : Attempts world safe part ok failed s) (oks : ∀ result t, safe t → ok result t → ok' result t)
    (faileds : ∀ error t, safe t → failed error t → failed' error t) : Attempts world safe part ok' failed' s := by
  apply Always.mono attempts
  intro outcome t held ends
  cases outcome with
  | ok result => exact oks result t held ends
  | error error => exact faileds error t held ends

/-- A part and what follows its result; its errors end the whole. -/
theorem Attempts.andThen {part : Attempt Query Value Error First} {next : First → Attempt Query Value Error Result}
    {between : First → State → Prop} (first : Attempts world safe part between failed s)
    (later : ∀ value t, safe t → between value t → Attempts world safe (next value) ok failed t) :
    Attempts world safe (part >>= next) ok failed s := by
  change Always world safe (part.run.bind (ExceptT.bindCont next)) _ s
  rw [always_bind]
  apply Always.mono (Always.kept first)
  intro outcome t held ends
  cases outcome with
  | ok value => exact later value t held (ends t .refl).2
  | error error => exact ends

/-- What is done after an error that a part ends with. -/
theorem Attempts.orElse {part : Attempt Query Value Error Result} {handle : Error → Attempt Query Value Error Result}
    {between : Error → State → Prop} (first : Attempts world safe part ok between s)
    (later : ∀ error t, safe t → between error t → Attempts world safe (handle error) ok failed t) :
    Attempts world safe (tryCatch part handle) ok failed s := by
  change Always world safe (part.run.bind _) _ s
  rw [always_bind]
  apply Always.mono (Always.kept first)
  intro outcome t held ends
  cases outcome with
  | ok result => exact ends
  | error error => exact later error t held (ends t .refl).2

theorem Attempts.ended {part : Attempt Query Value Error Result} {result : Result} {t : State}
    (attempts : Attempts world safe part ok failed s) (reaches : Reaches world part.run s (.done (.ok result)) t) :
    ok result t := by
  have rest := Always.reached attempts reaches
  exact (rest t .refl).2

theorem Attempts.frame {part : Attempt Query Value Error Result} {kept : State → Prop}
    (attempts : Attempts world safe part ok failed s) (start : kept s)
    (drift : ∀ s t, safe s → kept s → world.drifts s t → kept t)
    (answered : ∀ s query answer t, safe s → kept s → world.answers s query answer t → kept t) :
    Attempts world safe part (fun result t => ok result t ∧ kept t) (fun error t => failed error t ∧ kept t) s := by
  apply Always.mono (Always.frame attempts start drift answered)
  intro outcome t _ ends
  cases outcome with
  | ok result => exact ends
  | error error => exact ends

theorem Attempts.mapFailure {part : Attempt Query Value Error Result} {change : Error → Error}
    (attempts : Attempts world safe part ok (fun error t => failed (change error) t) s) :
    Attempts world safe (mapFailure change part) ok failed s := by
  change Always world safe (part.run.bind _) _ s
  rw [always_bind]
  apply Always.mono (Always.kept attempts)
  intro outcome t _ ends
  cases outcome with
  | ok result => exact ends
  | error error => exact ends

/-- A question, with what its answers lead to. -/
theorem attempts_request (query : Query) {ok : Value query → State → Prop}
    (held : ∀ t, world.Drifts s t → safe t)
    (answered : ∀ t u answer, world.Drifts s t → world.answers t query answer u → ∀ v, world.Drifts u v → safe v ∧
      match answer with
      | .ok value => ok value v
      | .error error => failed error v) :
    Attempts world safe (request query) ok failed s := by
  intro t moved
  refine ⟨held t moved, fun answer u answers v later => ?_⟩
  have ends := answered t u answer moved answers v later
  cases answer with
  | ok value => exact ends
  | error error => exact ends

end Rules
end Attempts

/-! The world that answers anything possible and keeps a record of what it was asked. -/

section Records

abbrev Exchange (Query : Type) (Answer : Query → Type) : Type := Σ query, Answer query

def recorded (possible : (query : Query) → Answer query → Prop) : World Query Answer (List (Exchange Query Answer)) where
  drifts _ _ := False
  answers s query answer t := possible query answer ∧ t = s ++ [⟨query, answer⟩]

/-- Every question was in order after those before it. -/
def Warranted (allowed : List (Exchange Query Answer) → Query → Prop) (s : List (Exchange Query Answer)) : Prop :=
  ∀ earlier exchange later, s = earlier ++ exchange :: later → allowed earlier exchange.1

variable {possible : (query : Query) → Answer query → Prop} {allowed : List (Exchange Query Answer) → Query → Prop}
  {s t : List (Exchange Query Answer)}

theorem warranted_nil : Warranted allowed [] := by
  intro earlier exchange later same
  cases earlier <;> cases same

theorem Warranted.snoc (held : Warranted allowed s) {query : Query} (answer : Answer query) (next : allowed s query) :
    Warranted allowed (s ++ [⟨query, answer⟩]) := by
  intro earlier exchange later same
  rcases List.eq_nil_or_concat later with rfl | ⟨front, last, rfl⟩
  · obtain ⟨rfl, last⟩ := List.append_inj' same rfl
    cases last
    exact next
  · rw [List.concat_eq_append, ← List.cons_append, ← List.append_assoc] at same
    exact held earlier exchange front (List.append_inj' same rfl).1

/-- One exchange of a run. -/
theorem reaches_answer {query : Query} {next : Answer query → Program Query Answer Result}
    {rest : Program Query Answer Result} (answer : Answer query) (able : possible query answer)
    (later : Reaches (recorded possible) (next answer) (s ++ [⟨query, answer⟩]) rest t) :
    Reaches (recorded possible) (.ask query next) s rest t :=
  .answered ⟨able, rfl⟩ later

theorem recorded_still (moved : (recorded possible).Drifts s t) : s = t := by
  induction moved with
  | refl => rfl
  | tail _ step _ => exact step.elim

end Records

section Records
variable {Value : Query → Type} {possible : (query : Query) → Except Error (Value query) → Prop}
  {allowed : List (Exchange Query fun query => Except Error (Value query)) → Query → Prop}
  {s : List (Exchange Query fun query => Except Error (Value query))}

theorem warranted_pure (held : Warranted allowed s) {result : Result} {ok : Result → _ → Prop} {failed : Error → _ → Prop}
    (ends : ok result s) :
    Attempts (recorded possible) (Warranted allowed) (pure result : Attempt Query Value Error Result) ok failed s := by
  intro t moved
  rw [← recorded_still moved]
  exact ⟨held, ends⟩

theorem warranted_throw (held : Warranted allowed s) {error : Error} {ok : Result → _ → Prop} {failed : Error → _ → Prop}
    (ends : failed error s) :
    Attempts (recorded possible) (Warranted allowed) (throw error : Attempt Query Value Error Result) ok failed s := by
  intro t moved
  rw [← recorded_still moved]
  exact ⟨held, ends⟩

/-- A question that is in order adds itself and its answer to the record. -/
theorem warranted_request (held : Warranted allowed s) {query : Query} (next : allowed s query) :
    Attempts (recorded possible) (Warranted allowed) (request query : Attempt Query Value Error (Value query))
      (fun value t => possible query (.ok value) ∧ t = s ++ [⟨query, .ok value⟩])
      (fun error t => possible query (.error error) ∧ t = s ++ [⟨query, .error error⟩]) s := by
  apply attempts_request query
  · intro t moved
    exact recorded_still moved ▸ held
  · intro t u answer moved answered v later
    cases recorded_still moved
    cases recorded_still later
    obtain ⟨able, rfl⟩ := answered
    refine ⟨held.snoc answer next, ?_⟩
    cases answer with
    | ok value => exact ⟨able, rfl⟩
    | error error => exact ⟨able, rfl⟩

end Records

end Pbox.Lib.Dialogue
