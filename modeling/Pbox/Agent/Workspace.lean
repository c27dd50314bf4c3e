import Pbox.Agent.Session
import Pbox.Files.Path
import Pbox.Lib.Upsert

/-! Requests in a workspace made from an image: `resolve` fills in what a request leaves open, from the image's
configuration, the account the command runs as and the defaults of a development box. -/

namespace Pbox.Agent.Workspace
open Pbox.Lib.Strings Pbox.Lib.Numerals Pbox.Lib.Upsert Pbox.Agent.Session

/-- A value of `serde_json`; nothing here looks into numbers. -/
inductive Value where
  | null
  | bool (value : Bool)
  | number (digits : Text)
  | string (value : Text)
  | array (items : List Value)
  | object (members : List (Text × Value))

/-- A member of an object, and null where there is none. -/
def Value.get (value : Value) (key : String) : Value :=
  match value with
  | .object members => (members.lookup key.toList).getD .null
  | _ => .null

def Value.asStr : Value → Option Text
  | .string value => some value
  | _ => none

def Value.asArray : Value → Option (List Value)
  | .array items => some items
  | _ => none

def strings (value : Value) (key : String) : List Text :=
  ((value.get key).asArray.getD []).filterMap Value.asStr

abbrev Environment := List (Text × Text)

/-- `entry(key).or_insert(value)`. -/
def orInsert (key value : Text) (env : Environment) : Environment :=
  if (env.lookup key).isSome then env else env ++ [(key, value)]

def insert (key value : Text) (env : Environment) : Environment := upsert Prod.fst (key, value) env

/-- An entry of the password database. -/
structure User where
  uid : Nat
  gid : Nat
  name : Text
  dir : Text
  shell : Text

/-- The system's user and group databases; a look-up may fail. -/
structure Accounts where
  fromUid : Nat → Except Text (Option User)
  fromName : Text → Except Text (Option User)
  groupFromName : Text → Except Text (Option Nat)

structure Identity where
  uid : Nat
  gid : Nat
  name : Option Text
  home : Text
  shell : Text
  deriving DecidableEq

def u32Max : Nat := 2 ^ 32 - 1

def groupId (accounts : Accounts) (user : Option User) : Option Text → Except Text Nat
  | none => .ok (user.elim 0 User.gid)
  | some group =>
    match parseUnsigned u32Max group with
    | some gid => .ok gid
    | none => do
      match ← accounts.groupFromName group with
      | some gid => return gid
      | none => throw "image group does not exist".toList

def identity (accounts : Accounts) (value : Text) : Except Text Identity := do
  let (name, group) :=
    match splitOnce ':' value with
    | some (user, group) => (user, some group)
    | none => (value, none)
  let numeric := parseUnsigned u32Max name
  let user ←
    match numeric with
    | some uid => accounts.fromUid uid
    | none => accounts.fromName name
  if user.isNone && numeric.isNone then
    throw ("image user does not exist: ".toList ++ name)
  let gid ← groupId accounts user group
  return {
    uid := user.elim (numeric.getD 0) User.uid
    gid
    name := user.map User.name
    home := user.elim "/".toList User.dir
    shell := user.elim "/bin/sh".toList User.shell }

/-- The name of a command that is a shell without arguments. -/
def shellCommand (argv : List Text) : Bool :=
  match argv with
  | [program] =>
    ((Files.Path.parse program).fileName).any
      ["sh".toList, "bash".toList, "zsh".toList, "fish".toList, "ash".toList, "dash".toList, "ksh".toList].contains
  | _ => false

/-- What an image asks for in a field, if it says so. -/
def nonEmpty (value : Value) : Option Text := value.asStr.filter (· ≠ [])

def pbox : Text := "pbox".toList
def SENTINEL : Text := "pbox:default".toList

section Resolve
variable (config : Value)

/-- Whether commands run as the development user where they do not say which. -/
def developmentDefault (marker : Bool) : Bool :=
  marker && ["".toList, "root".toList, "0".toList, "0:0".toList, "root:root".toList].contains
    ((config.get "User").asStr.getD [])

def withUser (development : Bool) (request : ExecRequest) : ExecRequest :=
  if request.user = [] then
    { request with user := if development then pbox else (nonEmpty (config.get "User")).getD "root".toList }
  else request

def withTerm (request : ExecRequest) : ExecRequest :=
  if request.allocatePty then { request with env := orInsert "TERM".toList "xterm-256color".toList request.env }
  else request

def withDirectory (development : Bool) (request : ExecRequest) : ExecRequest :=
  if request.cwd = [] then
    let cwd := (nonEmpty (config.get "WorkingDir")).getD "/".toList
    { request with cwd := if development && cwd == "/".toList then "/home/pbox".toList else cwd }
  else request

/-- An entry of the image's environment, as far as the request has none for its key. -/
def withEntry (env : Environment) (entry : Text) : Environment :=
  match splitOnce '=' entry with
  | some (key, value) => orInsert key value env
  | none => env

/-- What a development box sets for its default user. -/
def developmentEnv (user : Identity) (explicitHome : Bool) (env : Environment) : Environment :=
  insert "LOGNAME".toList pbox (insert "USER".toList pbox
    (if explicitHome then env else insert "HOME".toList user.home env))

def withEnvironment (development : Bool) (user : Identity) (request : ExecRequest) : ExecRequest :=
  let explicitHome := (request.env.lookup "HOME".toList).isSome
  let env := (strings config "Env").foldl withEntry request.env
  let env := if development then developmentEnv user explicitHome env else env
  let env := orInsert "HOME".toList user.home env
  { request with env := orInsert "USER".toList (user.name.getD (showNat user.uid)) env }

/-- The image's command where that is a shell, and the account's shell elsewhere. -/
def defaultArgv (user : Identity) : List Text :=
  let argv := strings config "Entrypoint" ++ strings config "Cmd"
  if shellCommand argv then argv else [user.shell, "-i".toList]

def withArgv (user : Identity) (request : ExecRequest) : Except Text Unit × ExecRequest :=
  if request.argv = [SENTINEL] then
    let request := { request with argv := defaultArgv config user }
    (if request.argv.head? = some [] then throw "image user has no shell; provide a command".toList else pure (),
      request)
  else (.ok (), request)

/-- `resolve`, with the request it leaves behind; the marker is the file `/etc/pbox/default-user`. -/
def resolve (accounts : Accounts) (marker : Bool) (request : ExecRequest) : Except Text Unit × ExecRequest :=
  let development := request.user.isEmpty && developmentDefault config marker
  let request := withUser config development request
  match identity accounts request.user with
  | .error error => (.error error, request)
  | .ok user =>
    withArgv config user (withEnvironment config development user (withDirectory config development (withTerm request)))

end Resolve

theorem lookup_entry (first : Text × Text) (rest : Environment) (key : Text) :
    List.lookup key (first :: rest) = if key = first.1 then some first.2 else rest.lookup key := by
  rw [List.lookup_cons]
  by_cases same : key = first.1
  · rw [if_pos same, same, beq_self_eq_true]
  · rw [if_neg same, beq_false_of_ne same]

theorem lookup_orInsert (key value other : Text) (env : Environment) :
    (orInsert key value env).lookup other = (env.lookup other).or (if other = key then some value else none) := by
  unfold orInsert
  split
  next held =>
    by_cases same : other = key
    · subst same
      obtain ⟨old, found⟩ := Option.isSome_iff_exists.mp held
      rw [found]
      rfl
    · rw [if_neg same, Option.or_none]
  next => rw [List.lookup_append, lookup_entry, List.lookup_nil]

theorem lookup_insert (key value other : Text) (env : Environment) :
    (insert key value env).lookup other = if other = key then some value else env.lookup other := by
  unfold insert
  induction env with
  | nil => rw [upsert, lookup_entry]
  | cons first rest ih =>
    unfold upsert
    by_cases replaced : first.1 = key
    · rw [if_pos replaced, lookup_entry, lookup_entry, replaced]
      split <;> rfl
    · rw [if_neg replaced, lookup_entry, lookup_entry, ih]
      by_cases here : other = first.1
      · rw [if_pos here, if_neg (here ▸ replaced), if_pos here]
      · rw [if_neg here, if_neg here]

/-- Whether every variable of an environment is in another with the same value. -/
def Extends (before after : Environment) : Prop :=
  ∀ key value, before.lookup key = some value → after.lookup key = some value

theorem orInsert_extends (key value : Text) (env : Environment) : Extends env (orInsert key value env) := by
  intro other old found
  rw [lookup_orInsert, found]
  rfl

theorem orInsert_holds (key value : Text) (env : Environment) : ((orInsert key value env).lookup key).isSome := by
  rw [lookup_orInsert, if_pos rfl]
  cases env.lookup key with
  | none => rfl
  | some old => rfl

theorem orInsert_held {key value : Text} {env : Environment} (held : (env.lookup key).isSome) :
    orInsert key value env = env := if_pos held

theorem Extends.held {before after : Environment} (step : Extends before after) {key : Text}
    (held : (before.lookup key).isSome) : (after.lookup key).isSome := by
  obtain ⟨value, found⟩ := Option.isSome_iff_exists.mp held
  rw [step key value found]
  rfl

theorem Extends.trans {first second third : Environment} (left : Extends first second)
    (right : Extends second third) : Extends first third :=
  fun key value found => right key value (left key value found)

theorem withEntry_extends (env : Environment) (entry : Text) : Extends env (withEntry env entry) := by
  unfold withEntry
  cases splitOnce '=' entry with
  | none => exact fun key value found => found
  | some parts => exact orInsert_extends parts.1 parts.2 env

theorem entries_extend (entries : List Text) (env : Environment) : Extends env (entries.foldl withEntry env) := by
  induction entries generalizing env with
  | nil => exact fun key value found => found
  | cons entry rest ih => exact (withEntry_extends env entry).trans (ih (withEntry env entry))

/-- Whether an environment has a variable for each of the image's entries. -/
def Covers (env : Environment) (entries : List Text) : Prop :=
  ∀ entry ∈ entries, ∀ key value, splitOnce '=' entry = some (key, value) → (env.lookup key).isSome

theorem Covers.mono {before after : Environment} {entries : List Text} (covers : Covers before entries)
    (held : ∀ key, (before.lookup key).isSome → (after.lookup key).isSome) : Covers after entries :=
  fun entry member key value parts => held key (covers entry member key value parts)

theorem entries_cover (entries : List Text) (env : Environment) : Covers (entries.foldl withEntry env) entries := by
  induction entries generalizing env with
  | nil =>
    intro entry member
    cases member
  | cons entry rest ih =>
    intro chosen member key value parts
    cases List.mem_cons.mp member with
    | inl same =>
      apply (entries_extend rest (withEntry env entry)).held
      rw [← same, withEntry, parts]
      exact orInsert_holds key value env
    | inr later => exact ih (withEntry env entry) chosen later key value parts

theorem entries_covered {entries : List Text} {env : Environment} (covers : Covers env entries) :
    entries.foldl withEntry env = env := by
  induction entries with
  | nil => rfl
  | cons entry rest ih =>
    have same : withEntry env entry = env := by
      unfold withEntry
      cases parts : splitOnce '=' entry with
      | none => rfl
      | some pair => exact orInsert_held (covers entry List.mem_cons_self pair.1 pair.2 parts)
    rw [List.foldl_cons, same]
    exact ih fun later member => covers later (List.mem_cons_of_mem entry member)

/-- The variables a development box sets whatever the request says of them. -/
def forced : List Text := ["USER".toList, "LOGNAME".toList]

theorem lookup_developmentEnv (user : Identity) (explicitHome : Bool) (env : Environment) (key : Text) :
    (developmentEnv user explicitHome env).lookup key =
      if key ∈ forced then some pbox
      else if key = "HOME".toList ∧ explicitHome = false then some user.home else env.lookup key := by
  have forced_iff : key ∈ forced ↔ key = "LOGNAME".toList ∨ key = "USER".toList := by
    simp [forced, or_comm]
  unfold developmentEnv
  rw [lookup_insert, lookup_insert]
  by_cases log : key = "LOGNAME".toList
  · rw [if_pos log, if_pos (forced_iff.mpr (.inl log))]
  by_cases name : key = "USER".toList
  · rw [if_neg log, if_pos name, if_pos (forced_iff.mpr (.inr name))]
  rw [if_neg log, if_neg name, if_neg fun member => (forced_iff.mp member).elim log name]
  cases explicitHome with
  | false => simp [lookup_insert]
  | true => simp

section Environment
variable (config : Value) (development : Bool) (user : Identity) (request : ExecRequest)

theorem developmentEnv_held (explicitHome : Bool) (env : Environment) (key : Text)
    (held : (env.lookup key).isSome) : ((developmentEnv user explicitHome env).lookup key).isSome := by
  rw [lookup_developmentEnv]
  split
  · rfl
  · split
    · rfl
    · exact held

/-- What becomes of a variable that the request has set. -/
theorem withEnvironment_lookup {key value : Text} (found : request.env.lookup key = some value) :
    (withEnvironment config development user request).env.lookup key =
      some (if development = true ∧ key ∈ forced then pbox else value) := by
  have imaged := entries_extend (strings config "Env") request.env key value found
  apply orInsert_extends
  apply orInsert_extends
  cases development with
  | false => simpa using imaged
  | true =>
    simp only [if_true, lookup_developmentEnv, true_and, imaged]
    by_cases fixed : key ∈ forced
    · rw [if_pos fixed, if_pos fixed]
    · rw [if_neg fixed, if_neg fixed]
      apply if_neg
      intro home
      obtain ⟨same, absent⟩ := home
      rw [← same, found] at absent
      cases absent

theorem withEnvironment_covers :
    Covers (withEnvironment config development user request).env (strings config "Env") := by
  apply (entries_cover (strings config "Env") request.env).mono
  intro key held
  apply (orInsert_extends _ _ _).held
  apply (orInsert_extends _ _ _).held
  cases development with
  | false => exact held
  | true => exact developmentEnv_held user _ _ key held

theorem withEnvironment_home :
    ((withEnvironment config development user request).env.lookup "HOME".toList).isSome :=
  (orInsert_extends _ _ _).held (orInsert_holds _ _ _)

theorem withEnvironment_user :
    ((withEnvironment config development user request).env.lookup "USER".toList).isSome :=
  orInsert_holds _ _ _

/-- Where every variable is there already, a box that is not a development box adds nothing. -/
theorem withEnvironment_settled (covers : Covers request.env (strings config "Env"))
    (home : (request.env.lookup "HOME".toList).isSome) (name : (request.env.lookup "USER".toList).isSome) :
    withEnvironment config false user request = request := by
  unfold withEnvironment
  simp only [entries_covered covers, Bool.false_eq_true, if_false, orInsert_held home, orInsert_held name]

end Environment

section Stages
variable (config : Value) (development : Bool) (user : Identity) (request : ExecRequest)

theorem nonEmpty_getD (value : Value) {default : Text} (solid : default ≠ []) : (nonEmpty value).getD default ≠ [] := by
  cases found : nonEmpty value with
  | none => exact solid
  | some text =>
    have kept := (Option.filter_eq_some_iff.mp found).2
    exact of_decide_eq_true kept

@[simp] theorem withUser_env : (withUser config development request).env = request.env := by
  unfold withUser
  split <;> rfl

@[simp] theorem withUser_cwd : (withUser config development request).cwd = request.cwd := by
  unfold withUser
  split <;> rfl

@[simp] theorem withUser_argv : (withUser config development request).argv = request.argv := by
  unfold withUser
  split <;> rfl

@[simp] theorem withUser_pty : (withUser config development request).allocatePty = request.allocatePty := by
  unfold withUser
  split <;> rfl

theorem withUser_named : (withUser config development request).user ≠ [] := by
  unfold withUser
  split
  next =>
    cases development with
    | false => exact nonEmpty_getD (config.get "User") (by decide)
    | true =>
      change pbox ≠ []
      decide
  next named => exact named

@[simp] theorem withTerm_user : (withTerm request).user = request.user := by
  unfold withTerm
  split <;> rfl

@[simp] theorem withTerm_cwd : (withTerm request).cwd = request.cwd := by
  unfold withTerm
  split <;> rfl

@[simp] theorem withTerm_argv : (withTerm request).argv = request.argv := by
  unfold withTerm
  split <;> rfl

@[simp] theorem withTerm_pty : (withTerm request).allocatePty = request.allocatePty := by
  unfold withTerm
  split <;> rfl

theorem withTerm_extends : Extends request.env (withTerm request).env := by
  unfold withTerm
  split
  · exact orInsert_extends _ _ _
  · exact fun key value found => found

theorem withTerm_term (pty : request.allocatePty = true) :
    ((withTerm request).env.lookup "TERM".toList).isSome := by
  unfold withTerm
  rw [if_pos pty]
  exact orInsert_holds _ _ _

@[simp] theorem withDirectory_user : (withDirectory config development request).user = request.user := by
  unfold withDirectory
  split <;> rfl

@[simp] theorem withDirectory_env : (withDirectory config development request).env = request.env := by
  unfold withDirectory
  split <;> rfl

@[simp] theorem withDirectory_argv : (withDirectory config development request).argv = request.argv := by
  unfold withDirectory
  split <;> rfl

@[simp] theorem withDirectory_pty :
    (withDirectory config development request).allocatePty = request.allocatePty := by
  unfold withDirectory
  split <;> rfl

theorem withDirectory_placed : (withDirectory config development request).cwd ≠ [] := by
  unfold withDirectory
  split
  next =>
    dsimp only
    split
    · decide
    · exact nonEmpty_getD (config.get "WorkingDir") (by decide)
  next placed => exact placed

theorem withDirectory_set (placed : request.cwd ≠ []) :
    (withDirectory config development request).cwd = request.cwd := by
  unfold withDirectory
  rw [if_neg placed]

/-- No shell is called like the sentinel. -/
theorem shellCommand_sentinel : shellCommand [SENTINEL] = false := by decide

theorem defaultArgv_own : defaultArgv config user ≠ [SENTINEL] := by
  unfold defaultArgv
  dsimp only
  split
  next shell =>
    intro same
    rw [same, shellCommand_sentinel] at shell
    cases shell
  next => exact fun same => absurd (congrArg List.length same) (Nat.succ_ne_self 1)

/-- Apart from the command nothing of the request depends on this stage. -/
theorem withArgv_request : (withArgv config user request).2 =
    { request with argv := if request.argv = [SENTINEL] then defaultArgv config user else request.argv } := by
  unfold withArgv
  split <;> rfl

theorem withArgv_set (own : request.argv ≠ [SENTINEL]) : withArgv config user request = (.ok (), request) :=
  if_neg own

end Stages

/-- A request that leaves nothing open. -/
structure Settled (config : Value) (request : ExecRequest) : Prop where
  user : request.user ≠ []
  cwd : request.cwd ≠ []
  argv : request.argv ≠ [SENTINEL]
  term : request.allocatePty = true → (request.env.lookup "TERM".toList).isSome
  entries : Covers request.env (strings config "Env")
  home : (request.env.lookup "HOME".toList).isSome
  name : (request.env.lookup "USER".toList).isSome

/-- What a request says itself is still there: its variables, its directory, its user and its command. -/
structure Keeps (before after : ExecRequest) : Prop where
  env : Extends before.env after.env
  cwd : before.cwd ≠ [] → after.cwd = before.cwd
  user : before.user ≠ [] → after.user = before.user
  argv : before.argv ≠ [SENTINEL] → after.argv = before.argv

section Whole
variable {config : Value} {accounts : Accounts} {marker : Bool} {request : ExecRequest}

/-- Whether the development user is the one a request runs as. -/
def developed (config : Value) (marker : Bool) (request : ExecRequest) : Bool :=
  request.user.isEmpty && developmentDefault config marker

/-- The request as it goes into the last stage. -/
def filled (config : Value) (development : Bool) (user : Identity) (request : ExecRequest) : ExecRequest :=
  withEnvironment config development user
    (withDirectory config development (withTerm (withUser config development request)))

section Filled
variable (config : Value) (development : Bool) (user : Identity) (request : ExecRequest)

theorem filled_user :
    (filled config development user request).user = (withUser config development request).user := by
  simp [filled, withEnvironment]

theorem filled_argv : (filled config development user request).argv = request.argv := by
  simp [filled, withEnvironment]

theorem filled_pty : (filled config development user request).allocatePty = request.allocatePty := by
  simp [filled, withEnvironment]

theorem filled_cwd (placed : request.cwd ≠ []) : (filled config development user request).cwd = request.cwd := by
  unfold filled
  simp only [withEnvironment]
  rw [withDirectory_set]
  · simp
  · simpa using placed

theorem filled_lookup {key value : Text} (found : request.env.lookup key = some value) :
    (filled config development user request).env.lookup key =
      some (if development = true ∧ key ∈ forced then pbox else value) := by
  apply withEnvironment_lookup
  rw [withDirectory_env]
  apply withTerm_extends
  rw [withUser_env]
  exact found

theorem filled_term (pty : request.allocatePty = true) :
    ((filled config development user request).env.lookup "TERM".toList).isSome := by
  obtain ⟨term, found⟩ := Option.isSome_iff_exists.mp
    (withTerm_term (withUser config development request) (by rw [withUser_pty, pty]))
  rw [filled, withEnvironment_lookup config development user _ (by rw [withDirectory_env, found])]
  rfl

end Filled

theorem resolve_unknown {error : Text}
    (unknown : identity accounts (withUser config (developed config marker request) request).user = .error error) :
    resolve config accounts marker request =
      (.error error, withUser config (developed config marker request) request) := by
  unfold resolve
  unfold developed at unknown ⊢
  simp only [unknown]

theorem resolve_known {user : Identity}
    (known : identity accounts (withUser config (developed config marker request) request).user = .ok user) :
    resolve config accounts marker request =
      withArgv config user (filled config (developed config marker request) user request) := by
  unfold resolve filled
  unfold developed at known ⊢
  simp only [known]

theorem resolve_settled {user : Identity} (settled : Settled config request)
    (known : identity accounts request.user = .ok user) :
    resolve config accounts marker request = (.ok (), request) := by
  have own : developed config marker request = false := by
    unfold developed
    rw [List.isEmpty_eq_false_iff.mpr settled.user, Bool.false_and]
  have named : withUser config false request = request := if_neg settled.user
  have termed : withTerm request = request := by
    unfold withTerm
    split
    next pty => rw [orInsert_held (settled.term pty)]
    next => rfl
  have placed : withDirectory config false request = request := if_neg settled.cwd
  rw [resolve_known (by rw [own, named]; exact known), own, filled, named, termed, placed,
    withEnvironment_settled config user request settled.entries settled.home settled.name]
  exact withArgv_set config user request settled.argv

theorem resolve_settles (solved : (resolve config accounts marker request).1 = .ok ()) :
    Settled config (resolve config accounts marker request).2 ∧
      ∃ user, identity accounts (resolve config accounts marker request).2.user = .ok user := by
  cases known : identity accounts (withUser config (developed config marker request) request).user with
  | error error =>
    rw [resolve_unknown known] at solved
    cases solved
  | ok user =>
    rw [resolve_known known, withArgv_request]
    have account := filled_user config (developed config marker request) user request
    refine ⟨⟨?_, ?_, ?_, ?_, ?_, ?_, ?_⟩, user, ?_⟩
    · rw [account]
      exact withUser_named config _ request
    · exact withDirectory_placed config _ _
    · dsimp only
      split
      · exact defaultArgv_own config user
      · assumption
    · intro pty
      apply filled_term
      rw [← filled_pty config (developed config marker request) user request]
      exact pty
    · exact withEnvironment_covers config _ user _
    · exact withEnvironment_home config _ user _
    · exact withEnvironment_user config _ user _
    · rw [account]
      exact known

/-- A request that was resolved is left as it is when it is resolved again. -/
theorem resolve_again (solved : (resolve config accounts marker request).1 = .ok ()) :
    resolve config accounts marker (resolve config accounts marker request).2 =
      (.ok (), (resolve config accounts marker request).2) := by
  obtain ⟨settled, user, known⟩ := resolve_settles solved
  exact resolve_settled settled known

theorem withUser_set (development : Bool) (named : request.user ≠ []) :
    withUser config development request = request := if_neg named

/-- The variables of a request, where the account it runs as is known. -/
theorem resolve_lookup {user : Identity} {key value : Text}
    (known : identity accounts (withUser config (developed config marker request) request).user = .ok user)
    (found : request.env.lookup key = some value) :
    (resolve config accounts marker request).2.env.lookup key =
      some (if developed config marker request = true ∧ key ∈ forced then pbox else value) := by
  rw [resolve_known known, withArgv_request]
  exact filled_lookup config _ user request found

theorem resolve_cwd (placed : request.cwd ≠ []) :
    (resolve config accounts marker request).2.cwd = request.cwd := by
  cases known : identity accounts (withUser config (developed config marker request) request).user with
  | error error => rw [resolve_unknown known, withUser_cwd]
  | ok user =>
    rw [resolve_known known, withArgv_request]
    exact filled_cwd config _ user request placed

theorem resolve_user (named : request.user ≠ []) :
    (resolve config accounts marker request).2.user = request.user := by
  cases known : identity accounts (withUser config (developed config marker request) request).user with
  | error error => rw [resolve_unknown known, withUser_set _ named]
  | ok user =>
    rw [resolve_known known, withArgv_request]
    dsimp only
    rw [filled_user, withUser_set _ named]

theorem resolve_argv (own : request.argv ≠ [SENTINEL]) :
    (resolve config accounts marker request).2.argv = request.argv := by
  cases known : identity accounts (withUser config (developed config marker request) request).user with
  | error error => rw [resolve_unknown known, withUser_argv]
  | ok user =>
    rw [resolve_known known, withArgv_request]
    dsimp only
    rw [filled_argv, if_neg own]

end Whole

/-- Whether the development user's own variables take the place of ones that the request has set. -/
def Overrides (config : Value) (accounts : Accounts) (marker : Bool) (request : ExecRequest) : Prop :=
  request.user = [] ∧ developmentDefault config marker = true ∧ (∃ user, identity accounts pbox = .ok user) ∧
    ∃ key ∈ forced, ∃ value, request.env.lookup key = some value ∧ value ≠ pbox

theorem developed_iff (config : Value) (marker : Bool) (request : ExecRequest) :
    developed config marker request = true ↔ request.user = [] ∧ developmentDefault config marker = true := by
  unfold developed
  rw [Bool.and_eq_true, List.isEmpty_iff]

theorem developed_user {config : Value} {marker : Bool} {request : ExecRequest}
    (development : developed config marker request = true) :
    (withUser config (developed config marker request) request).user = pbox := by
  unfold withUser
  rw [if_pos ((developed_iff config marker request).mp development).1, development]
  rfl

theorem resolve_extends_iff (config : Value) (accounts : Accounts) (marker : Bool) (request : ExecRequest) :
    Extends request.env (resolve config accounts marker request).2.env ↔
      ¬ Overrides config accounts marker request := by
  constructor
  · intro kept overrides
    obtain ⟨unnamed, default, account, key, fixed, value, found, other⟩ := overrides
    obtain ⟨user, known⟩ := account
    have development := (developed_iff config marker request).mpr ⟨unnamed, default⟩
    have after := kept key value found
    rw [← developed_user development] at known
    rw [resolve_lookup known found, if_pos ⟨development, fixed⟩] at after
    exact other (Option.some.inj after).symm
  · intro untouched key value found
    cases known : identity accounts (withUser config (developed config marker request) request).user with
    | error error => rw [resolve_unknown known, withUser_env, found]
    | ok user =>
      rw [resolve_lookup known found]
      congr 1
      split
      next replaced =>
        obtain ⟨development, fixed⟩ := replaced
        by_contra other
        obtain ⟨unnamed, default⟩ := (developed_iff config marker request).mp development
        rw [developed_user development] at known
        exact untouched ⟨unnamed, default, ⟨user, known⟩, key, fixed, value, found, Ne.symm other⟩
      next => rfl

theorem resolve_iff (config : Value) (accounts : Accounts) (marker : Bool) (request : ExecRequest) :
    (Keeps request (resolve config accounts marker request).2 ∧
      ((resolve config accounts marker request).1 = .ok () →
        resolve config accounts marker (resolve config accounts marker request).2 =
          (.ok (), (resolve config accounts marker request).2))) ↔
    ¬ Overrides config accounts marker request := by
  rw [← resolve_extends_iff]
  constructor
  · exact fun kept => kept.1.env
  · exact fun kept => ⟨⟨kept, resolve_cwd, resolve_user, resolve_argv⟩, resolve_again⟩

/-- A box with the accounts `root` and `pbox`. -/
def boxAccounts : Accounts where
  fromUid uid := .ok (if uid = 0 then some ⟨0, 0, "root".toList, "/root".toList, "/bin/bash".toList⟩ else none)
  fromName name := .ok (if name = pbox then some ⟨1000, 1000, pbox, "/home/pbox".toList, "/bin/zsh".toList⟩ else none)
  groupFromName _ := .ok none

theorem own_user_variable_replaced :
    ¬ Keeps { argv := ["env".toList], env := [("USER".toList, "alice".toList)] }
      (resolve (.object [("User".toList, .string "root".toList)]) boxAccounts true
        { argv := ["env".toList], env := [("USER".toList, "alice".toList)] }).2 := by
  intro kept
  have after := kept.env "USER".toList "alice".toList rfl
  revert after
  decide

end Pbox.Agent.Workspace
