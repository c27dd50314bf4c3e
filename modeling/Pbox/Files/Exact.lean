import Pbox.Files.UploadSpec

/-! Transfers are exact. In both directions the frames a receiver accepts are the ones that were
sent, since a cut stream has no mark and a longer one is refused. -/

namespace Pbox.Files
open Pbox.Lib.Strings Pbox.Lib.Framing Pbox.Lib.Numerals Pbox.Lib.Effects
open Pbox.Agent.Session (Bytes Status PROTOCOL)

section Client
variable {path : Text} {data : Bytes} {mode : UInt32} {atomicWrite : Bool}

/-- The first message of an upload says all that is to be said of the file. -/
structure Opens (path : Text) (mode : UInt32) (atomicWrite : Bool) (first : FileChunk) : Prop where
  path : first.path = path
  mode : first.mode = mode
  atomicWrite : first.atomicWrite = atomicWrite
  version : first.protocolVersion = PROTOCOL
  unowned : ¬first.Owned

theorem uploadChunk_flatMap (parts : List Bytes) :
    (parts.mapIdx (uploadChunk path mode atomicWrite)).flatMap FileChunk.data = parts.flatten := by
  have datas : (parts.mapIdx (uploadChunk path mode atomicWrite)).map FileChunk.data = parts := by
    apply List.ext_getElem
    · simp
    · simp [uploadChunk]
  rw [List.flatMap_def, datas]

theorem uploadChunks_complete (path : Text) (data : Bytes) (mode : UInt32) (atomicWrite : Bool) :
    Complete ((pieces CHUNK data).mapIdx (uploadChunk path mode atomicWrite) ++ [{ eof := true }]) data := by
  have unmarked : ∀ chunk ∈ (pieces CHUNK data).mapIdx (uploadChunk path mode atomicWrite), chunk.eof = false := by
    intro chunk member
    obtain ⟨index, inside, rfl⟩ := List.mem_mapIdx.mp member
    rfl
  have mark : Complete [{ eof := true }] [] := .last _ rfl
  have framed := Framed.prepend unmarked mark
  rw [uploadChunk_flatMap, pieces_flatten (by decide), List.append_nil] at framed
  exact framed

theorem uploadChunks_shape (path : Text) (data : Bytes) (mode : UInt32) (atomicWrite : Bool) :
    ∃ first chunks, uploadChunks path data mode atomicWrite = first :: chunks ∧
      Complete (first :: chunks) data ∧ Opens path mode atomicWrite first ∧ ∀ chunk ∈ chunks, Follows chunk := by
  unfold uploadChunks
  by_cases empty : data = []
  · rw [if_pos empty, empty]
    exact ⟨_, [], rfl, .last _ rfl, ⟨rfl, rfl, rfl, rfl, by simp [FileChunk.Owned]⟩, by simp⟩
  · rw [if_neg empty]
    have complete := uploadChunks_complete path data mode atomicWrite
    obtain ⟨part, parts, cut⟩ := List.exists_cons_of_ne_nil (pieces_ne_nil (by decide : 0 < CHUNK) empty)
    rw [cut, List.mapIdx_cons] at complete ⊢
    refine ⟨_, _, List.cons_append .., complete,
      ⟨rfl, rfl, by simp [uploadChunk], rfl, by simp [uploadChunk, FileChunk.Owned]⟩, ?_⟩
    intro chunk member
    rcases List.mem_append.mp member with front | last
    · obtain ⟨index, inside, rfl⟩ := List.mem_mapIdx.mp front
      exact ⟨by simp [uploadChunk, FileChunk.Owned], .inl rfl⟩
    · rw [List.mem_singleton.mp last]
      exact ⟨by decide, .inl rfl⟩

end Client

section Agent
variable {host : Host} {slots : Slots} {uploadId : Nat} {stream : List FileEvent} {first : FileChunk}
  {rest : List FileEvent} {named : Path} {fs t : Fs} {result : FileResult}

theorem accept_iff : accept slots stream = .ok (first, rest, named) ↔
    slots.handshake = true ∧ slots.file = true ∧ stream = .message first :: rest ∧
      first.protocolVersion = PROTOCOL ∧ safePath first.path = .ok named := by
  unfold accept
  constructor
  · intro ok
    split at ok
    next => cases ok
    next free =>
      split at ok
      next => cases ok
      next chunk later received =>
        split at ok
        next => cases ok
        next version =>
          split at ok
          next => cases ok
          next open_ =>
            split at ok
            next => cases ok
            next path admitted =>
              cases ok
              refine ⟨by simpa using free, by simpa using open_, ?_, not_not.mp version, admitted⟩
              unfold handshake at received
              split at received <;> cases received
              rfl
  · rintro ⟨free, room, rfl, version, admitted⟩
    simp [handshake, free, room, version, admitted]

/-- The agent answers only for a whole stream within the limit, and has stored what it carries. -/
theorem putFile_sound (ok : (putFile host slots uploadId stream).from fs = (.ok result, t)) :
    ∃ first chunks named contents, stream = (first :: chunks).map .message ∧ safePath first.path = .ok named ∧
      Complete (first :: chunks) contents ∧ contents.length ≤ MAX_FILE_SIZE ∧
      result = ⟨contents.length, hexEncode (host.sha256 contents)⟩ ∧
      t = Function.update fs named
        (some ⟨contents, writtenMode host first.mode first.atomicWrite host.privateMode (fs named)⟩) := by
  unfold putFile at ok
  split at ok
  next => cases ok
  next first rest named accepted =>
    obtain ⟨_, _, rfl, _, admitted⟩ := accept_iff.mp accepted
    have different := temporaryPath_ne named host.process uploadId
    obtain ⟨_, contents, ⟨chunks, rfl, complete, fits⟩, stored, files⟩ := (ends_receiveUpload different).ok_of ok
    exact ⟨first, chunks, named, contents, rfl, admitted, complete, fits, stored, files⟩

/-- A stream of more than the limit has no result, whatever follows it. -/
theorem putFile_limit {chunks : List FileChunk} {contents : Bytes} (complete : Complete chunks contents)
    (large : MAX_FILE_SIZE < contents.length) :
    (putFile host slots uploadId (chunks.map .message ++ stream)).from fs ≠ (.ok result, t) := by
  intro ok
  obtain ⟨first, others, named, received, shape, _, whole, fits, _⟩ := putFile_sound ok
  have begins : chunks <+: first :: others :=
    (List.prefix_map_iff_of_injective message_injective).mp ⟨stream, shape⟩
  have same := complete.eq_of_prefix whole begins
  have longer : received = contents := by rw [whole.contents_eq, complete.contents_eq, same]
  rw [longer] at fits
  omega

end Agent

section Uploads
variable {host : Host} {slots : Slots} {uploadId : Nat} {deliver : List FileChunk → List FileEvent}
  {respond : Except Status FileResult → Reply} {path : Text} {data : Bytes} {mode : UInt32} {atomicWrite : Bool}
  {named : Path} {fs t : Fs} {result : FileResult}

/-- An answer to a stream that carries an upload is about the bytes of that upload. -/
theorem putFile_carried {stream : List FileEvent}
    (carries : Carries ((uploadChunks path data mode atomicWrite).map .message) stream)
    (ok : (putFile host slots uploadId stream).from fs = (.ok result, t)) :
    result = ⟨data.length, hexEncode (host.sha256 data)⟩ ∧
      ∃ named, safePath path = .ok named ∧
        t = Function.update fs named
          (some ⟨data, writtenMode host mode atomicWrite host.privateMode (fs named)⟩) := by
  obtain ⟨first, chunks, shape, framed, opens, _⟩ := uploadChunks_shape path data mode atomicWrite
  obtain ⟨head, tail, named, contents, rfl, admitted, complete, _, rfl, rfl⟩ := putFile_sound ok
  rw [shape] at carries
  have frames : head :: tail = first :: chunks := received_frames framed carries complete
  obtain ⟨rfl, rfl⟩ := List.cons.inj frames
  have same : contents = data := by rw [complete.contents_eq, framed.contents_eq]
  rw [same, ← opens.path, ← opens.mode, ← opens.atomicWrite]
  exact ⟨rfl, named, admitted, rfl⟩

theorem upload_complete (fits : data.length ≤ MAX_FILE_SIZE) (admitted : safePath path = .ok named)
    (clear : host.faults = {}) (free : fs (temporaryPath named host.process uploadId) = none) :
    upload host ⟨true, true⟩ uploadId (·.map .message) .response path data mode atomicWrite fs =
      (.ok ⟨data.length, hexEncode (host.sha256 data)⟩,
        Function.update fs named
          (some ⟨data, writtenMode host mode atomicWrite host.privateMode (fs named)⟩)) := by
  obtain ⟨first, chunks, shape, complete, opens, follow⟩ := uploadChunks_shape path data mode atomicWrite
  have accepted : accept ⟨true, true⟩ ((uploadChunks path data mode atomicWrite).map .message) =
      .ok (first, chunks.map .message, named) := by
    rw [shape, accept_iff, opens.path]
    exact ⟨rfl, rfl, rfl, opens.version, admitted⟩
  have runs : putFile host ⟨true, true⟩ uploadId ((uploadChunks path data mode atomicWrite).map .message) =
      receiveUpload host (chunks.map .message) first (temporaryPath named host.process uploadId) named := by
    unfold putFile
    rw [accepted]
  have returns : Ends (receiveUpload host (chunks.map .message) first
      (temporaryPath named host.process uploadId) named) fs (fun _ _ => True) (fun _ _ => False) :=
    receiveUpload_returns clear free complete opens.unowned follow fits
  obtain ⟨result, t, ok, _⟩ := returns.exists_ok
  rw [← runs] at ok
  obtain ⟨described, found, same, stored⟩ := putFile_carried (carries_self _) ok
  rw [admitted] at same
  cases same
  have within : ¬MAX_COLLECTED_BYTES < data.length := not_lt.mpr fits
  unfold upload AgentClient.putFile
  rw [if_neg within]
  dsimp only
  rw [ok, described, stored]

/-- What the client is told is true: the bytes it sent are what the destination holds. -/
theorem upload_sound (delivers : ∀ chunks, Carries (chunks.map .message) (deliver chunks))
    (honest : ∀ served result, respond served = .response (.ok result) → served = .ok result)
    (ok : upload host slots uploadId deliver respond path data mode atomicWrite fs = (.ok result, t)) :
    data.length ≤ MAX_FILE_SIZE ∧ result = ⟨data.length, hexEncode (host.sha256 data)⟩ ∧
      ∃ named, safePath path = .ok named ∧
        t = Function.update fs named
          (some ⟨data, writtenMode host mode atomicWrite host.privateMode (fs named)⟩) := by
  unfold upload AgentClient.putFile at ok
  split at ok
  next => cases ok
  next fits =>
    refine ⟨not_lt.mp fits, ?_⟩
    split at ok
    next => cases ok
    next => cases ok
    next answer u served =>
      cases ok
      have answered := (Prod.mk.inj served).1
      have state := (Prod.mk.inj served).2
      exact putFile_carried (delivers _) (Prod.ext (honest _ _ answered) state)

theorem upload_limit (large : MAX_COLLECTED_BYTES < data.length) :
    upload host slots uploadId deliver respond path data mode atomicWrite fs =
      (.error (.rpc (.of .resourceExhausted "upload exceeds the 64 MiB collection limit")), fs) := by
  unfold upload AgentClient.putFile
  rw [if_pos large]

end Uploads

section Transfers

/-- The entry of a file that an upload of these bytes leaves. -/
def Host.written (host : Host) (data : Bytes) (mode : UInt32) (atomicWrite : Bool) (before : Option File) :
    File :=
  ⟨data, writtenMode host mode atomicWrite host.privateMode before⟩

/-- Uploads report and store the very bytes that the client holds, or fail. -/
structure UploadsExact (host : Host) : Prop where
  returns (path : Text) (named : Path) (data : Bytes) (mode : UInt32) (atomicWrite : Bool) (uploadId : Nat)
      (fs : Fs) : host.faults = {} → safePath path = .ok named →
    fs (temporaryPath named host.process uploadId) = none → data.length ≤ MAX_FILE_SIZE →
    upload host ⟨true, true⟩ uploadId (·.map .message) .response path data mode atomicWrite fs =
      (.ok ⟨data.length, hexEncode (host.sha256 data)⟩,
        Function.update fs named (some (host.written data mode atomicWrite (fs named))))
  sound (slots : Slots) (deliver : List FileChunk → List FileEvent) (respond : Except Status FileResult → Reply)
      (path : Text) (data : Bytes) (mode : UInt32) (atomicWrite : Bool) (uploadId : Nat) (fs t : Fs)
      (result : FileResult) :
    (∀ chunks, Carries (chunks.map .message) (deliver chunks)) →
    (∀ served result, respond served = .response (.ok result) → served = .ok result) →
    upload host slots uploadId deliver respond path data mode atomicWrite fs = (.ok result, t) →
    data.length ≤ MAX_FILE_SIZE ∧ result = ⟨data.length, hexEncode (host.sha256 data)⟩ ∧
      ∃ named, safePath path = .ok named ∧
        t = Function.update fs named (some (host.written data mode atomicWrite (fs named)))
  /-- Any client: what the agent answers for is a whole stream and what it stored. -/
  answered (slots : Slots) (stream : List FileEvent) (uploadId : Nat) (fs t : Fs) (result : FileResult) :
    (putFile host slots uploadId stream).from fs = (.ok result, t) →
    ∃ first chunks named data, stream = (first :: chunks).map .message ∧ safePath first.path = .ok named ∧
      Complete (first :: chunks) data ∧ result = ⟨data.length, hexEncode (host.sha256 data)⟩ ∧
      t = Function.update fs named (some (host.written data first.mode first.atomicWrite (fs named)))
  refused (slots : Slots) (deliver : List FileChunk → List FileEvent) (respond : Except Status FileResult → Reply)
      (path : Text) (data : Bytes) (mode : UInt32) (atomicWrite : Bool) (uploadId : Nat) (fs : Fs) :
    MAX_FILE_SIZE < data.length →
    upload host slots uploadId deliver respond path data mode atomicWrite fs =
      (.error (.rpc (.of .resourceExhausted "upload exceeds the 64 MiB collection limit")), fs)
  refusedByAgent (slots : Slots) (chunks : List FileChunk) (more : List FileEvent) (data : Bytes) (uploadId : Nat)
      (fs t : Fs) (result : FileResult) : Complete chunks data → MAX_FILE_SIZE < data.length →
    (putFile host slots uploadId (chunks.map .message ++ more)).from fs ≠ (.ok result, t)

/-- Downloads return the very bytes of the file, however its reads cut them, or fail. -/
structure DownloadsExact : Prop where
  returns (source : Path → Source) (path : Text) (named : Path) (data : Bytes) :
    safePath path = .ok named → (source named).Readable → contents (source named).reads = some data →
    data.length ≤ MAX_FILE_SIZE → download true source id path = .ok data
  sound (slots : Bool) (source : Path → Source) (deliver : List FileEvent → List FileEvent) (path : Text)
      (data : Bytes) : (∀ events, Carries events (deliver events)) →
    download slots source deliver path = .ok data →
    ∃ named, safePath path = .ok named ∧ contents (source named).reads = some data ∧ data.length ≤ MAX_FILE_SIZE
  refusedByAgent (source : Source) (path : Text) (data : Bytes) : source.Readable →
    contents source.reads = some data → MAX_FILE_SIZE < data.length →
    ∃ front : List FileChunk, readFile path source =
        front.map .message ++ [.failed (.of .resourceExhausted "file exceeds the 64 MiB limit")] ∧
      ∀ chunk ∈ front, chunk.eof = false
  refused (chunks : List FileChunk) (more : List FileEvent) (data : Bytes) : Complete chunks data →
    Versioned true chunks → MAX_COLLECTED_BYTES < data.length →
    collectFileStream {} (chunks.map .message ++ more) =
      .error (.rpc (.of .resourceExhausted "download exceeds the 64 MiB collection limit"))

theorem uploads_exact (host : Host) : UploadsExact host where
  returns _ _ _ _ _ _ _ clear admitted free fits := upload_complete fits admitted clear free
  sound _ _ _ _ _ _ _ _ _ _ _ delivers honest ok := upload_sound delivers honest ok
  answered slots stream uploadId fs t result ok := by
    obtain ⟨first, chunks, named, data, shape, admitted, complete, _, described, stored⟩ := putFile_sound ok
    exact ⟨first, chunks, named, data, shape, admitted, complete, described, stored⟩
  refused _ _ _ _ _ _ _ _ _ large := upload_limit large
  refusedByAgent _ _ _ _ _ _ _ _ complete large := putFile_limit complete large

theorem downloads_exact : DownloadsExact where
  returns _ _ _ _ admitted readable adds fits := download_complete admitted readable adds fits
  sound _ _ _ _ _ delivers ok := download_sound delivers ok
  refusedByAgent _ _ _ readable adds large := readFile_limit readable adds large
  refused _ _ _ complete versioned large :=
    collect_limit rfl complete versioned (Nat.zero_le _) (by simpa using large)

theorem transfers_exact (host : Host) : UploadsExact host ∧ DownloadsExact :=
  ⟨uploads_exact host, downloads_exact⟩

def abc : Bytes := [0x61, 0x62, 0x63]

/-- A file whose reads return its three bytes in two parts. -/
def sampleSource : Source where
  opens := .ok ()
  metadata := .ok ⟨true, 0o100644⟩
  reads := [.ok ⟨[0x61], by decide, by decide⟩, .ok ⟨[0x62, 0x63], by decide, by decide⟩]

theorem abc_transferred :
    (upload sampleHost ⟨true, true⟩ 0 (·.map .message) .response "f".toList abc 0o644 true fun _ => none) =
        (.ok ⟨3, hexEncode (sampleHost.sha256 abc)⟩,
          Function.update (fun _ => none) (.parse "f".toList) (some ⟨abc, 0o644⟩)) ∧
      download true (fun _ => sampleSource) id "f".toList = .ok abc :=
  ⟨(transfers_exact sampleHost).1.returns _ (.parse "f".toList) abc 0o644 true 0 _ rfl rfl rfl (by decide),
    (transfers_exact sampleHost).2.returns _ _ (.parse "f".toList) abc rfl ⟨rfl, _, rfl, rfl⟩ rfl (by decide)⟩

end Transfers

end Pbox.Files
