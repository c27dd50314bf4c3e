import Pbox.Files.Upload

/-! What an upload does to the files. Until the last step only the temporary file differs from what
was there, so the guard's removal undoes everything a failure leaves. -/

namespace Pbox.Files
open Pbox.Lib.Strings Pbox.Lib.Framing Pbox.Lib.Numerals Pbox.Lib.Effects
open Pbox.Agent.Session (Bytes Status PROTOCOL)

section Operations
variable {fs : Fs} {path temporary : Path} {host : Host} {done : Unit → Fs → Prop} {failed : Status → Fs → Prop}

@[simp] theorem ends_attempt {fault : Option Text} {update : Fs → Fs} :
    Ends (attempt fault update) fs done failed ↔
      (∀ error, fault = some error → failed (internalIo error) fs) ∧ (fault = none → done () (update fs)) := by
  cases fault <;> simp [attempt]

@[simp] theorem ends_attemptAppend {fault : Option (Nat × Text)} {data : Bytes} :
    Ends (attemptAppend fault path data) fs done failed ↔
      (∀ count error, fault = some (count, error) → failed (internalIo error) (fs.append path (data.take count))) ∧
        (fault = none → done () (fs.append path data)) := by
  rcases fault with _ | ⟨count, error⟩ <;> simp [attemptAppend]

@[simp] theorem ends_applyMode {fault : Option Text} {mode : UInt32} :
    Ends (applyMode fault path mode) fs done failed ↔
      (∀ error, fault = some error → mode ≠ 0 → failed (internalIo error) fs) ∧
        (mode ≠ 0 → fault = none → done () (fs.setMode path (safeMode mode))) ∧ (mode = 0 → done () fs) := by
  unfold applyMode
  by_cases given : mode = 0 <;> simp [given]

theorem ends_checkEnd {stream : List FileEvent} (ended : stream = [] → done () fs)
    (other : stream ≠ [] → ∀ status, failed status fs) : Ends (checkEnd stream) fs done failed := by
  cases stream with
  | nil => exact ended rfl
  | cons event stream => cases event <;> exact other (List.cons_ne_nil _ _) _

variable {file : File}

theorem append_update (data : Bytes) :
    Fs.append (Function.update fs path (some file)) path data =
      Function.update fs path (some { file with bytes := file.bytes ++ data }) := by
  unfold Fs.append
  rw [Function.update_self, Function.update_idem]
  rfl

theorem setMode_update (mode : UInt32) :
    Fs.setMode (Function.update fs path (some file)) path mode =
      Function.update fs path (some { file with mode }) := by
  unfold Fs.setMode
  rw [Function.update_self, Function.update_idem]
  rfl

theorem remove_update (absent : fs path = none) (file : Option File) :
    Fs.remove (Function.update fs path file) path = fs := by
  unfold Fs.remove
  rw [Function.update_idem, ← absent, Function.update_eq_self]

end Operations

section Receiving
variable {fs t : Fs} {host : Host} {temporary destination : Path} {mode : UInt32} {progress : Progress}
  {chunk first : FileChunk} {stream : List FileEvent}

/-- The temporary file holds what was counted and hashed, and nothing else differs. -/
structure Holding (fs : Fs) (temporary : Path) (mode : UInt32) (progress : Progress) (t : Fs) : Prop where
  state : t = Function.update fs temporary (some ⟨progress.hashed, mode⟩)
  size : progress.size = progress.hashed.length
  fits : progress.size ≤ MAX_FILE_SIZE

/-- A failure on the way: the temporary file is there with something in it. -/
def Abandoned (fs : Fs) (temporary : Path) (t : Fs) : Prop :=
  ∃ file, t = Function.update fs temporary (some file)

theorem Holding.abandoned (holding : Holding fs temporary mode progress t) : Abandoned fs temporary t :=
  ⟨_, holding.state⟩

theorem ends_writeChunk (holding : Holding fs temporary mode progress t) :
    Ends (writeChunk host temporary chunk progress) t
      (fun next u => next.hashed = progress.hashed ++ chunk.data ∧ Holding fs temporary mode next u)
      (fun _ u => Abandoned fs temporary u) := by
  unfold writeChunk
  simp only [ends_bind, ends_throwIf, ends_attemptAppend, ends_pure]
  obtain ⟨rfl, size, fits⟩ := holding
  simp only [append_update]
  refine ⟨fun _ => ⟨_, rfl⟩, fun room => ⟨fun count error _ => ⟨_, rfl⟩, fun _ => ⟨trivial, rfl, ?_, ?_⟩⟩⟩
  · simp [size]
  · show progress.size + chunk.data.length ≤ MAX_FILE_SIZE
    omega

/-- What the loop has received when it ends at the mark. -/
theorem ends_receiveRest (holding : Holding fs temporary mode progress t) :
    Ends (receiveRest host temporary stream progress) t
      (fun (next, rest) u => Holding fs temporary mode next u ∧
        ∃ chunks contents, stream = chunks.map .message ++ rest ∧ Complete chunks contents ∧
          next.hashed = progress.hashed ++ contents)
      (fun _ u => Abandoned fs temporary u) := by
  induction stream generalizing progress t with
  | nil => exact holding.abandoned
  | cons event stream ih =>
    cases event with
    | idle => exact holding.abandoned
    | failed status => exact holding.abandoned
    | message chunk =>
      unfold receiveRest
      simp only [ends_bind, ends_throwIf]
      refine ⟨fun _ => holding.abandoned, fun _ => ⟨fun _ => holding.abandoned, fun _ => ?_⟩⟩
      apply (ends_writeChunk holding).mono
      · rintro next u ⟨hashed, holds⟩
        by_cases marked : chunk.eof = true
        · rw [if_pos marked]
          exact ⟨holds, [chunk], chunk.data, rfl, .last chunk marked, hashed⟩
        · rw [if_neg marked]
          apply (ih holds).mono
          · rintro ⟨final, rest⟩ v ⟨holds, chunks, contents, rfl, complete, later⟩
            refine ⟨holds, chunk :: chunks, chunk.data ++ contents, rfl,
              .more _ _ _ (eq_false_of_ne_true marked) complete, ?_⟩
            rw [later, hashed, List.append_assoc]
          · exact fun _ _ abandoned => abandoned
      · exact fun _ _ abandoned => abandoned

/-- The bytes that a whole stream carries, when it ends behind its mark and within the limit. -/
def Received (first : FileChunk) (stream : List FileEvent) (contents : Bytes) : Prop :=
  ∃ chunks, stream = chunks.map .message ∧ Complete (first :: chunks) contents ∧
    contents.length ≤ MAX_FILE_SIZE

theorem ends_receiveMarked (holding : Holding fs temporary mode {} t) :
    Ends (receiveMarked host temporary first stream) t
      (fun (progress, rest) u => Holding fs temporary mode progress u ∧
        (rest = [] → Received first stream progress.hashed))
      (fun _ u => Abandoned fs temporary u) := by
  unfold receiveMarked
  simp only [ends_bind, ends_throwIf]
  refine ⟨fun _ => holding.abandoned, fun _ => ?_⟩
  apply (ends_writeChunk holding).mono
  · rintro progress u ⟨hashed, holds⟩
    by_cases marked : first.eof = true
    · rw [if_pos marked]
      refine ⟨holds, fun none => ⟨[], none, ?_, holds.size ▸ holds.fits⟩⟩
      rw [hashed]
      exact .last first marked
    · rw [if_neg marked]
      apply (ends_receiveRest holds).mono
      · rintro ⟨next, rest⟩ v ⟨holds, chunks, contents, rfl, complete, later⟩
        refine ⟨holds, fun (none : rest = []) =>
          ⟨chunks, by rw [none, List.append_nil], ?_, holds.size ▸ holds.fits⟩⟩
        rw [later, hashed]
        exact .more _ _ _ (eq_false_of_ne_true marked) complete
      · exact fun _ _ abandoned => abandoned
  · exact fun _ _ abandoned => abandoned

end Receiving

section Moving
variable {fs t : Fs} {host : Host} {temporary destination : Path} {held : UInt32} {bytes : Bytes}
  {first : FileChunk} {stream : List FileEvent}

/-- Nothing differs but these two files, and the destination is not lost. -/
structure OnlyAt (temporary destination : Path) (fs t : Fs) : Prop where
  others : ∀ path, path ≠ temporary → path ≠ destination → t path = fs path
  kept : t destination = fs destination ∨ (t destination).isSome = true

theorem onlyAt_temporary (fs : Fs) (different : temporary ≠ destination) (file : Option File) :
    OnlyAt temporary destination fs (Function.update fs temporary file) :=
  ⟨fun _ notTemporary _ => Function.update_of_ne notTemporary _ _,
    .inl (Function.update_of_ne different.symm _ _)⟩

/-- The permission bits of a file that was written: those asked for, or those it was created with. -/
def writtenMode (host : Host) (mode : UInt32) (atomicWrite : Bool) (held : UInt32) (before : Option File) :
    UInt32 :=
  if mode ≠ 0 then safeMode mode
  else if atomicWrite then held
  else (before.map File.mode).getD (0o666 &&& ~~~host.umask)

theorem ends_copyInto (absent : fs temporary = none) (different : temporary ≠ destination)
    (copies : first.atomicWrite = false) {mode : UInt32} :
    Ends (copyInto host first.mode temporary destination) (Function.update fs temporary (some ⟨bytes, mode⟩))
      (fun _ t => t = Function.update fs destination
        (some ⟨bytes, writtenMode host first.mode first.atomicWrite held (fs destination)⟩))
      (fun _ t => OnlyAt temporary destination fs t) := by
  have begun := onlyAt_temporary fs different (some ⟨bytes, mode⟩)
  have only (file : Option File) (entry : File) : OnlyAt temporary destination fs
      (Function.update (Function.update fs temporary file) destination (some entry)) := by
    constructor
    · intro path notTemporary notDestination
      rw [Function.update_of_ne notDestination, Function.update_of_ne notTemporary]
    · right
      rw [Function.update_self]
      rfl
  have opened : Fs.truncate (Function.update fs temporary (some ⟨bytes, mode⟩)) host destination =
      Function.update (Function.update fs temporary (some ⟨bytes, mode⟩)) destination
        (some ⟨[], ((fs destination).map File.mode).getD (0o666 &&& ~~~host.umask)⟩) := by
    unfold Fs.truncate
    rw [Function.update_of_ne different.symm]
  have source (entry : Option File) : Function.update (Function.update fs temporary (some ⟨bytes, mode⟩))
      destination entry temporary = some ⟨bytes, mode⟩ := by
    rw [Function.update_of_ne different, Function.update_self]
  have removed (entry : Option File) : Fs.remove (Function.update (Function.update fs temporary
      (some ⟨bytes, mode⟩)) destination entry) temporary = Function.update fs destination entry := by
    rw [Function.update_comm different, remove_update]
    rw [Function.update_of_ne different, absent]
  unfold copyInto
  simp only [ends_bind, ends_attempt, ends_attemptAppend, ends_applyMode, ends_get, id, opened, source,
    append_update, setMode_update, removed, only, begun, List.nil_append, Option.map_some, Option.getD_some,
    implies_true, true_and]
  intro _ _ _ _
  constructor
  · intro given _ _
    rw [writtenMode, if_pos given]
  · intro none _
    rw [writtenMode, if_neg (not_not_intro none), copies, if_neg Bool.false_ne_true]

/-- The last step of an upload. -/
theorem ends_moveInto (absent : fs temporary = none) (different : temporary ≠ destination)
    {mode : UInt32} (applied : mode = if first.mode ≠ 0 then safeMode first.mode else held) :
    Ends (moveInto host first temporary destination) (Function.update fs temporary (some ⟨bytes, mode⟩))
      (fun _ t => t = Function.update fs destination
        (some ⟨bytes, writtenMode host first.mode first.atomicWrite held (fs destination)⟩))
      (fun _ t => (first.atomicWrite = true → Abandoned fs temporary t) ∧ OnlyAt temporary destination fs t) := by
  unfold moveInto
  by_cases atomic : first.atomicWrite = true
  · rw [if_pos atomic, ends_attempt]
    constructor
    · intro error _
      exact ⟨fun _ => ⟨_, rfl⟩, onlyAt_temporary fs different _⟩
    · intro _
      rw [remove_update absent, Function.update_self, writtenMode, if_pos atomic, applied]
  · rw [if_neg atomic]
    apply (ends_copyInto absent different (eq_false_of_ne_true atomic)).mono
    · exact fun _ _ written => written
    · exact fun _ _ only => ⟨fun moves => absurd moves atomic, only⟩

/-- What an upload that returns has done: the stream was whole, the result describes its bytes, and
the destination alone differs and holds them. -/
def Stored (host : Host) (stream : List FileEvent) (first : FileChunk) (destination : Path) (held : UInt32)
    (fs : Fs) (result : FileResult) (t : Fs) : Prop :=
  ∃ contents, Received first stream contents ∧
    result = ⟨contents.length, hexEncode (host.sha256 contents)⟩ ∧
    t = Function.update fs destination
      (some ⟨contents, writtenMode host first.mode first.atomicWrite held (fs destination)⟩)

theorem ends_fillAndMove (absent : fs temporary = none) (different : temporary ≠ destination) :
    Ends (fillAndMove host stream first temporary destination) (Function.update fs temporary (some ⟨[], held⟩))
      (Stored host stream first destination held fs)
      (fun _ t => (first.atomicWrite = true → Abandoned fs temporary t) ∧ OnlyAt temporary destination fs t) := by
  have given_up {t : Fs} (abandoned : Abandoned fs temporary t) :
      (first.atomicWrite = true → Abandoned fs temporary t) ∧ OnlyAt temporary destination fs t := by
    obtain ⟨file, rfl⟩ := abandoned
    exact ⟨fun _ => ⟨file, rfl⟩, onlyAt_temporary fs different _⟩
  unfold fillAndMove
  simp only [ends_bind]
  have start : Holding fs temporary held {} (Function.update fs temporary (some ⟨[], held⟩)) :=
    ⟨rfl, rfl, Nat.zero_le _⟩
  apply (ends_receiveMarked start).mono
  · rintro ⟨progress, rest⟩ t ⟨holds, received⟩
    apply ends_checkEnd
    · intro none
      simp only [ends_attempt, ends_applyMode, ends_pure, id]
      have moved {mode : UInt32} (applied : mode = if first.mode ≠ 0 then safeMode first.mode else held) :
          Ends (moveInto host first temporary destination)
            (Function.update fs temporary (some ⟨progress.hashed, mode⟩))
            (fun _ u => Stored host stream first destination held fs
              ⟨progress.size, hexEncode (host.sha256 progress.hashed)⟩ u)
            (fun _ u => (first.atomicWrite = true → Abandoned fs temporary u) ∧
              OnlyAt temporary destination fs u) := by
        apply (ends_moveInto absent different applied).mono
        · exact fun _ u written => ⟨progress.hashed, received none, by rw [holds.size], written⟩
        · exact fun _ _ failed => failed
      refine ⟨fun _ _ => given_up holds.abandoned, fun _ => ⟨fun _ _ _ => given_up holds.abandoned, ?_, ?_⟩⟩
      · intro given _
        rw [holds.state, setMode_update]
        exact moved (if_pos given).symm
      · intro zero
        rw [holds.state]
        exact moved (if_neg (not_not_intro zero)).symm
    · exact fun _ _ => given_up holds.abandoned
  · exact fun _ _ abandoned => given_up abandoned

/-- The mode of a new temporary file. -/
def Host.privateMode (host : Host) : UInt32 := 0o600 &&& ~~~host.umask

/-- What a failed upload can have changed. A move changes nothing, nor does a name that is taken;
a copy may have begun. -/
structure Failed (atomicWrite : Bool) (temporary destination : Path) (fs t : Fs) : Prop where
  others : ∀ path, path ≠ destination → t path = fs path
  kept : t destination = fs destination ∨ (t destination).isSome = true
  unchanged : atomicWrite = true ∨ fs temporary ≠ none → t = fs

/-- Either the upload is stored, or nothing but the destination can differ, and for a move not even
that. -/
theorem ends_receiveUpload (different : temporary ≠ destination) :
    Ends (receiveUpload host stream first temporary destination) fs
      (fun result t => fs temporary = none ∧ Stored host stream first destination host.privateMode fs result t)
      (fun _ t => Failed first.atomicWrite temporary destination fs t) := by
  have untouched : Failed first.atomicWrite temporary destination fs fs :=
    ⟨fun _ _ => rfl, .inl rfl, fun _ => rfl⟩
  unfold receiveUpload createNew
  simp only [ends_bind, ends_get, ends_throwIf, ends_attempt, ends_guarded]
  refine ⟨fun _ => untouched, fun taken => ⟨fun _ _ => untouched, fun _ => ?_⟩⟩
  have absent : fs temporary = none := by simpa using taken
  apply (ends_fillAndMove absent different).mono
  · exact fun _ _ stored => ⟨absent, stored⟩
  · rintro _ t ⟨abandoned, only⟩
    refine ⟨?_, ?_, ?_⟩
    · intro path other
      by_cases here : path = temporary
      · subst here
        rw [Fs.remove, Function.update_self, absent]
      · rw [Fs.remove, Function.update_of_ne here]
        exact only.others path here other
    · rw [Fs.remove, Function.update_of_ne different.symm]
      exact only.kept
    · intro spared
      obtain ⟨file, rfl⟩ := abandoned (spared.resolve_right (not_not_intro absent))
      exact remove_update absent _

end Moving

section Returning
variable {fs : Fs} {host : Host} {temporary destination : Path} {progress : Progress} {chunk first : FileChunk}
  {chunks : List FileChunk} {contents : Bytes}

/-- A chunk behind the first one that the agent takes. -/
def Follows (chunk : FileChunk) : Prop :=
  ¬chunk.Owned ∧ (chunk.protocolVersion = 0 ∨ chunk.protocolVersion = PROTOCOL)

variable (clear : host.faults = {})
include clear

theorem writeChunk_returns (room : progress.size + chunk.data.length ≤ MAX_FILE_SIZE) :
    Ends (writeChunk host temporary chunk progress) fs
      (fun next _ => next.size = progress.size + chunk.data.length) (fun _ _ => False) := by
  unfold writeChunk
  simp only [ends_bind, ends_throwIf, ends_attemptAppend, ends_pure, clear]
  refine ⟨fun large => ?_, fun _ => ⟨by simp, fun _ => trivial⟩⟩
  omega

theorem receiveRest_returns (complete : Complete chunks contents) (follow : ∀ chunk ∈ chunks, Follows chunk)
    (room : progress.size + contents.length ≤ MAX_FILE_SIZE) :
    Ends (receiveRest host temporary (chunks.map .message) progress) fs (fun (_, rest) _ => rest = [])
      (fun _ _ => False) := by
  induction complete generalizing progress fs with
  | last chunk marked =>
    show Ends (receiveRest host temporary (.message chunk :: []) progress) fs _ _
    obtain ⟨unowned, version⟩ := follow chunk List.mem_cons_self
    unfold receiveRest
    simp only [ends_bind, ends_throwIf]
    refine ⟨fun other => ?_, fun _ => ⟨unowned, fun _ => ?_⟩⟩
    · exact version.elim other.1 other.2
    · apply (writeChunk_returns clear room).mono
      · intro _ _ _
        rw [if_pos marked]
        exact rfl
      · exact fun _ _ never => never
  | more chunk chunks contents unmarked rest ih =>
    show Ends (receiveRest host temporary (.message chunk :: chunks.map .message) progress) fs _ _
    obtain ⟨unowned, version⟩ := follow chunk List.mem_cons_self
    rw [List.length_append] at room
    unfold receiveRest
    simp only [ends_bind, ends_throwIf]
    refine ⟨fun other => ?_, fun _ => ⟨unowned, fun _ => ?_⟩⟩
    · exact version.elim other.1 other.2
    · apply (writeChunk_returns clear (by omega)).mono
      · intro next _ size
        rw [unmarked, if_neg Bool.false_ne_true]
        exact ih (fun later member => follow later (List.mem_cons_of_mem _ member)) (by omega)
      · exact fun _ _ never => never

theorem receiveMarked_returns (complete : Complete (first :: chunks) contents) (unowned : ¬first.Owned)
    (follow : ∀ chunk ∈ chunks, Follows chunk) (room : contents.length ≤ MAX_FILE_SIZE) :
    Ends (receiveMarked host temporary first (chunks.map .message)) fs (fun (_, rest) _ => rest = [])
      (fun _ _ => False) := by
  unfold receiveMarked
  simp only [ends_bind, ends_throwIf]
  refine ⟨unowned, fun _ => ?_⟩
  cases complete with
  | last _ marked =>
    apply (writeChunk_returns clear (by simpa using room)).mono
    · intro _ _ _
      rw [if_pos marked]
      exact rfl
    · exact fun _ _ never => never
  | more _ _ rest unmarked complete =>
    rw [List.length_append] at room
    apply (writeChunk_returns clear (by simp only; omega)).mono
    · intro next _ size
      rw [unmarked, if_neg Bool.false_ne_true]
      apply receiveRest_returns clear complete follow
      simp only at size
      omega
    · exact fun _ _ never => never

theorem moveInto_returns :
    Ends (moveInto host first temporary destination) fs (fun _ _ => True) (fun _ _ => False) := by
  unfold moveInto
  by_cases atomic : first.atomicWrite = true
  · simp [atomic, clear]
  · unfold copyInto
    simp [atomic, clear]

/-- An upload of a whole stream within the limit returns when nothing fails and its temporary name
is free. -/
theorem receiveUpload_returns (free : fs temporary = none) (complete : Complete (first :: chunks) contents)
    (unowned : ¬first.Owned) (follow : ∀ chunk ∈ chunks, Follows chunk)
    (room : contents.length ≤ MAX_FILE_SIZE) :
    Ends (receiveUpload host (chunks.map .message) first temporary destination) fs (fun _ _ => True)
      (fun _ _ => False) := by
  unfold receiveUpload createNew fillAndMove
  have modeless : host.faults.setMode = none := by rw [clear]
  have flushes : host.faults.flush = none := by rw [clear]
  have creates : host.faults.create = none := by rw [clear]
  simp only [ends_bind, ends_get, ends_throwIf, ends_attempt, ends_guarded, creates, free]
  refine ⟨by simp, fun _ => ⟨by simp, fun _ => ?_⟩⟩
  apply (receiveMarked_returns clear complete unowned follow room).mono
  · rintro ⟨progress, rest⟩ t none
    apply ends_checkEnd
    · intro _
      have moves (u : Fs) : Ends (moveInto host first temporary destination) u (fun _ _ => True)
          (fun _ _ => False) := moveInto_returns clear
      simp [modeless, flushes, moves]
    · exact fun some => absurd none some
  · exact fun _ _ never => never

end Returning

end Pbox.Files
