import Pbox.Files.Path
import Pbox.Files.Chunk

/-! Downloads. The agent reads a file in fragments of any size up to its buffer and sends each as a
chunk; the client collects the chunks and insists on the mark of the last one. -/

namespace Pbox.Files
open Pbox.Lib.Strings Pbox.Lib.Framing
open Pbox.Agent.Session (Bytes Status PROTOCOL)

section Agent

/-- What one read returns before the end of the file. -/
structure Fragment where
  bytes : Bytes
  some : bytes ≠ []
  fits : bytes.length ≤ CHUNK

structure Metadata where
  isFile : Bool
  mode : UInt32

/-- A file as the agent meets it: the results of opening it, of asking for its metadata and of its
reads, with the texts of the errors. The end of the list is the end of the file. -/
structure Source where
  opens : Except Text Unit
  metadata : Except Text Metadata
  reads : List (Except Text Fragment)

def internalIo (error : Text) : Status := ⟨.internal, error⟩

/-- The first chunk says what is sent; a later one says nothing. -/
def header (path : Text) (mode : UInt32) (first : Bool) : FileChunk :=
  { path := if first then path else []
    mode := if first then mode else 0
    protocolVersion := if first then PROTOCOL else 0 }

/-- The loop of `read_file`. A send that fails stops it, and the stream then carries a beginning of
these events. -/
def readLoop (path : Text) (mode : UInt32) : Bool → Nat → List (Except Text Fragment) → List FileEvent
  | first, _, [] => [.message { header path mode first with eof := true }]
  | _, _, .error error :: _ => [.failed (internalIo error)]
  | first, total, .ok fragment :: reads =>
    if MAX_FILE_SIZE - total < fragment.bytes.length then
      [.failed (.of .resourceExhausted "file exceeds the 64 MiB limit")]
    else
      .message { header path mode first with data := fragment.bytes } ::
        readLoop path mode false (total + fragment.bytes.length) reads

def readFile (path : Text) (source : Source) : List FileEvent :=
  match source.opens, source.metadata with
  | .error error, _ => [.failed (internalIo error)]
  | .ok (), .error error => [.failed (internalIo error)]
  | .ok (), .ok metadata =>
    if metadata.isFile then readLoop path metadata.mode true 0 source.reads
    else [.failed (.of .failedPrecondition "agent file reads require a regular file")]

structure GetFileRequest where
  protocolVersion : Nat
  path : Text

def safePath (value : Text) : Except Status Path :=
  if value = [] ∨ Char.ofNat 0 ∈ value then
    .error (.of .invalidArgument "path must not be empty or contain NUL")
  else .ok (.parse value)

/-- `get_file` of the agent; the file that a path names is looked up in `source`. -/
def getFile (fileSlots : Bool) (source : Path → Source) (request : GetFileRequest) :
    Except Status (List FileEvent) := do
  if request.protocolVersion ≠ PROTOCOL then
    throw (.of .failedPrecondition "unsupported agent protocol version")
  if fileSlots = false then
    throw (.of .resourceExhausted "too many concurrent file requests")
  let path ← safePath request.path
  return readFile request.path (source path)

end Agent

section Client

structure Collected where
  complete : Bool := false
  first : Bool := true
  data : Bytes := []

@[grind =] def collectFileStream : Collected → List FileEvent → Except AgentClientError Bytes
  | collected, [] =>
    if collected.complete then .ok collected.data
    else .error (.rpc (.of .unknown "agent file stream ended without EOF marker"))
  | _, .idle :: _ => .error .timeout
  | _, .failed status :: _ => .error (.rpc status)
  | collected, .message chunk :: events =>
    if collected.complete then
      .error (.rpc (.of .invalidArgument "agent file stream sent data after EOF"))
    else if chunk.protocolVersion ≠ (if collected.first then PROTOCOL else 0) then
      .error (.protocolMismatch PROTOCOL chunk.protocolVersion)
    else if MAX_COLLECTED_BYTES < collected.data.length + chunk.data.length then
      .error (.rpc (.of .resourceExhausted "download exceeds the 64 MiB collection limit"))
    else
      collectFileStream { complete := chunk.eof, first := false, data := collected.data ++ chunk.data } events

/-- `get_file` of the client: the call itself, and then the stream that it opens. -/
def AgentClient.getFile (call : GetFileRequest → Except Status (List FileEvent)) (path : Text) :
    Except AgentClientError Bytes :=
  match call ⟨PROTOCOL, path⟩ with
  | .error status => .error (.rpc status)
  | .ok events => collectFileStream {} events

/-- A download from end to end: the stream that the agent opens reaches the client as `deliver`
has it. -/
def download (fileSlots : Bool) (source : Path → Source) (deliver : List FileEvent → List FileEvent)
    (path : Text) : Except AgentClientError Bytes :=
  AgentClient.getFile (fun request => (getFile fileSlots source request).map deliver) path

end Client

section Sending

/-- What the reads add up to, when none of them fails. -/
def contents : List (Except Text Fragment) → Option Bytes
  | [] => some []
  | .error _ :: _ => none
  | .ok fragment :: reads => (contents reads).map (fragment.bytes ++ ·)

/-- Protocol versions as the receiver of a download wants them. -/
def Versioned : Bool → List FileChunk → Prop
  | _, [] => True
  | first, chunk :: chunks =>
    chunk.protocolVersion = (if first then PROTOCOL else 0) ∧ Versioned false chunks

variable {path : Text} {mode : UInt32} {first : Bool} {total : Nat} {reads : List (Except Text Fragment)}
  {d : Bytes}

/-- The induction is on the reads; the bytes read so far and those still to come fit together. -/
theorem readLoop_complete (adds : contents reads = some d) (fits : total + d.length ≤ MAX_FILE_SIZE) :
    ∃ chunks, readLoop path mode first total reads = chunks.map .message ∧ Complete chunks d ∧
      Versioned first chunks := by
  induction reads generalizing first total d with
  | nil =>
    cases adds
    exact ⟨[{ header path mode first with eof := true }], rfl, .last _ rfl, rfl, trivial⟩
  | cons read reads ih =>
    cases read with
    | error error => cases adds
    | ok fragment =>
      obtain ⟨rest, added, rfl⟩ := Option.map_eq_some_iff.mp adds
      rw [List.length_append] at fits
      have later : total + fragment.bytes.length + rest.length ≤ MAX_FILE_SIZE := by omega
      obtain ⟨chunks, events, complete, versioned⟩ := @ih false _ _ added later
      refine ⟨{ header path mode first with data := fragment.bytes } :: chunks, ?_, .more _ _ _ rfl complete,
        rfl, versioned⟩
      rw [readLoop, if_neg (by omega), events]
      rfl

/-- A read that fails, or one byte too many, ends the stream before any mark. -/
theorem readLoop_broken (small : total ≤ MAX_FILE_SIZE)
    (broken : ∀ d, contents reads = some d → MAX_FILE_SIZE < total + d.length) :
    ∃ (front : List FileChunk) (status : Status),
      readLoop path mode first total reads = front.map .message ++ [.failed status] ∧
      (∀ chunk ∈ front, chunk.eof = false) ∧
      ((contents reads).isSome → status = .of .resourceExhausted "file exceeds the 64 MiB limit") := by
  induction reads generalizing first total with
  | nil => exact absurd (broken [] rfl) (by simpa using small)
  | cons read reads ih =>
    cases read with
    | error error => exact ⟨[], internalIo error, rfl, by simp, by simp [contents]⟩
    | ok fragment =>
      by_cases large : MAX_FILE_SIZE - total < fragment.bytes.length
      · refine ⟨[], .of .resourceExhausted "file exceeds the 64 MiB limit", ?_, by simp, fun _ => rfl⟩
        rw [readLoop, if_pos large]
        rfl
      · have later : ∀ d, contents reads = some d → MAX_FILE_SIZE < total + fragment.bytes.length + d.length := by
          intro d adds
          have whole := broken (fragment.bytes ++ d) (by simp [contents, adds])
          rw [List.length_append] at whole
          omega
        obtain ⟨front, status, events, unmarked, exceeded⟩ := @ih false _ (by omega) later
        refine ⟨{ header path mode first with data := fragment.bytes } :: front, status, ?_, ?_, ?_⟩
        · rw [readLoop, if_neg large, events]
          rfl
        · intro chunk member
          rcases List.mem_cons.mp member with rfl | member
          · rfl
          · exact unmarked chunk member
        · intro adds
          exact exceeded (by simpa [contents] using adds)

end Sending

section Collecting
variable {collected : Collected} {events : List FileEvent} {d : Bytes}

theorem collect_complete (complete : collected.complete = true) :
    collectFileStream collected events = .ok d ↔ events = [] ∧ d = collected.data := by
  cases events with
  | nil => simp [collectFileStream, complete, eq_comm]
  | cons event events => cases event <;> simp [collectFileStream, complete]

/-- What one chunk has to pass, and what it leaves. -/
theorem collect_message {chunk : FileChunk} (running : collected.complete = false) :
    collectFileStream collected (.message chunk :: events) = .ok d ↔
      chunk.protocolVersion = (if collected.first then PROTOCOL else 0) ∧
        collected.data.length + chunk.data.length ≤ MAX_COLLECTED_BYTES ∧
        collectFileStream { complete := chunk.eof, first := false, data := collected.data ++ chunk.data }
          events = .ok d := by
  rw [collectFileStream, running, if_neg Bool.false_ne_true]
  by_cases version : chunk.protocolVersion = if collected.first then PROTOCOL else 0
  · rw [if_neg (not_not_intro version)]
    by_cases large : MAX_COLLECTED_BYTES < collected.data.length + chunk.data.length
    · rw [if_pos large]
      simp only [reduceCtorEq, false_iff, not_and]
      intro _ fits
      omega
    · rw [if_neg large]
      simp only [version, true_and, not_lt.mp large]
  · rw [if_pos version]
    simp [version]

/-- The client returns what a whole file's chunks carry, and nothing for any other stream. -/
theorem collect_iff (running : collected.complete = false) :
    collectFileStream collected events = .ok d ↔
      ∃ chunks rest, events = chunks.map .message ∧ Complete chunks rest ∧
        Versioned collected.first chunks ∧ d = collected.data ++ rest ∧ d.length ≤ MAX_COLLECTED_BYTES := by
  induction events generalizing collected with
  | nil =>
    simp only [collectFileStream, running]
    constructor
    · intro ok
      cases ok
    · rintro ⟨chunks, rest, none, complete, _⟩
      rw [List.map_eq_nil_iff.mp none.symm] at complete
      cases complete
  | cons event events ih =>
    cases event with
    | failed status =>
      constructor
      · intro ok
        cases ok
      · rintro ⟨_ | ⟨chunk, chunks⟩, rest, shape, _⟩ <;> cases shape
    | idle =>
      constructor
      · intro ok
        cases ok
      · rintro ⟨_ | ⟨chunk, chunks⟩, rest, shape, _⟩ <;> cases shape
    | message chunk =>
      rw [collect_message running]
      cases marked : chunk.eof with
      | true =>
        rw [collect_complete rfl]
        constructor
        · rintro ⟨version, fits, rfl, rfl⟩
          exact ⟨[chunk], chunk.data, rfl, .last chunk marked, ⟨version, trivial⟩, rfl, by simpa using fits⟩
        · rintro ⟨_ | ⟨first, chunks⟩, rest, shape, complete, versioned, rfl, fits⟩
          · cases shape
          · cases shape
            cases complete with
            | last => exact ⟨versioned.1, by simpa using fits, rfl, rfl⟩
            | more _ _ _ unmarked =>
              rw [marked] at unmarked
              cases unmarked
      | false =>
        rw [ih rfl]
        constructor
        · rintro ⟨version, _, chunks, rest, rfl, complete, versioned, rfl, fits⟩
          exact ⟨chunk :: chunks, chunk.data ++ rest, rfl, .more _ _ _ marked complete, ⟨version, versioned⟩,
            List.append_assoc _ _ _, fits⟩
        · rintro ⟨_ | ⟨first, chunks⟩, rest, shape, complete, versioned, rfl, fits⟩
          · cases shape
          · cases shape
            cases complete with
            | last _ unmarked =>
              rw [marked] at unmarked
              cases unmarked
            | more _ _ rest _ complete =>
              have small : collected.data.length + chunk.data.length ≤ MAX_COLLECTED_BYTES := by
                simp only [List.length_append] at fits
                omega
              exact ⟨versioned.1, small, chunks, rest, rfl, complete, versioned.2,
                (List.append_assoc _ _ _).symm, fits⟩

/-- A stream of more than the limit is refused at the chunk that exceeds it, whatever follows. -/
theorem collect_limit {chunks : List FileChunk} (running : collected.complete = false)
    (complete : Complete chunks d) (versioned : Versioned collected.first chunks)
    (small : collected.data.length ≤ MAX_COLLECTED_BYTES)
    (large : MAX_COLLECTED_BYTES < collected.data.length + d.length) :
    collectFileStream collected (chunks.map .message ++ events) =
      .error (.rpc (.of .resourceExhausted "download exceeds the 64 MiB collection limit")) := by
  induction complete generalizing collected with
  | last chunk =>
    show collectFileStream collected (.message chunk :: events) = _
    rw [collectFileStream, running, if_neg Bool.false_ne_true, if_neg (not_not_intro versioned.1), if_pos large]
  | more chunk chunks rest unmarked complete ih =>
    show collectFileStream collected (.message chunk :: (chunks.map .message ++ events)) = _
    rw [collectFileStream, running, if_neg Bool.false_ne_true, if_neg (not_not_intro versioned.1)]
    by_cases exceeds : MAX_COLLECTED_BYTES < collected.data.length + chunk.data.length
    · rw [if_pos exceeds]
    · rw [if_neg exceeds]
      apply ih unmarked versioned.2
      · simpa using exceeds
      · simpa [Nat.add_assoc] using large

end Collecting

section Downloads
variable {slots : Bool} {source : Path → Source} {deliver : List FileEvent → List FileEvent} {path : Text}
  {named : Path} {d : Bytes}

/-- A regular file that opens. -/
structure Source.Readable (source : Source) : Prop where
  opens : source.opens = .ok ()
  regular : ∃ metadata, source.metadata = .ok metadata ∧ metadata.isFile = true

theorem readFile_readable (path : Text) {source : Source} (readable : source.Readable) :
    ∃ mode, readFile path source = readLoop path mode true 0 source.reads := by
  obtain ⟨opens, metadata, known, regular⟩ := readable
  refine ⟨metadata.mode, ?_⟩
  unfold readFile
  rw [opens, known]
  exact if_pos regular

/-- Whatever the file does, the stream is its contents as a whole or never marked. -/
theorem readFile_cases (path : Text) (source : Source) :
    (∃ chunks d, readFile path source = chunks.map .message ∧ Complete chunks d ∧
      contents source.reads = some d ∧ d.length ≤ MAX_FILE_SIZE) ∨
    ∃ (front : List FileChunk) (status : Status),
      readFile path source = front.map .message ++ [.failed status] ∧ ∀ chunk ∈ front, chunk.eof = false := by
  by_cases readable : source.Readable
  · obtain ⟨mode, loop⟩ := readFile_readable path readable
    rw [loop]
    by_cases whole : ∃ d, contents source.reads = some d ∧ d.length ≤ MAX_FILE_SIZE
    · obtain ⟨d, adds, fits⟩ := whole
      obtain ⟨chunks, events, complete, _⟩ := readLoop_complete adds (by omega : 0 + d.length ≤ MAX_FILE_SIZE)
      exact .inl ⟨chunks, d, events, complete, adds, fits⟩
    · have broken : ∀ d, contents source.reads = some d → MAX_FILE_SIZE < 0 + d.length := by
        intro d adds
        by_contra fits
        exact whole ⟨d, adds, by omega⟩
      obtain ⟨front, status, events, unmarked, _⟩ := readLoop_broken (Nat.zero_le _) broken
      exact .inr ⟨front, status, events, unmarked⟩
  · right
    unfold readFile
    split
    next error _ => exact ⟨[], internalIo error, rfl, by simp⟩
    next error _ _ => exact ⟨[], internalIo error, rfl, by simp⟩
    next metadata opens known =>
      have irregular : ¬metadata.isFile = true := fun regular => readable ⟨opens, metadata, known, regular⟩
      rw [if_neg irregular]
      exact ⟨[], _, rfl, by simp⟩

theorem getFile_iff {request : GetFileRequest} {events : List FileEvent} :
    getFile slots source request = .ok events ↔
      request.protocolVersion = PROTOCOL ∧ slots = true ∧
        ∃ named, safePath request.path = .ok named ∧ events = readFile request.path (source named) := by
  unfold getFile
  by_cases version : request.protocolVersion = PROTOCOL
  · cases slots with
    | false => simp [version, throw, throwThe, MonadExceptOf.throw, bind, Except.bind]
    | true =>
      cases admitted : safePath request.path with
      | error => simp [version, bind, Except.bind]
      | ok named => simp [version, bind, Except.bind, pure, Except.pure, eq_comm]
  · simp [version, throw, throwThe, MonadExceptOf.throw, bind, Except.bind]

/-- A download that returns collected a stream that the agent opened. -/
theorem download_iff : download slots source deliver path = .ok d ↔
    slots = true ∧ ∃ named, safePath path = .ok named ∧
      collectFileStream {} (deliver (readFile path (source named))) = .ok d := by
  unfold download AgentClient.getFile
  dsimp only
  constructor
  · intro ok
    cases opened : getFile slots source ⟨PROTOCOL, path⟩ with
    | error status =>
      rw [opened] at ok
      cases ok
    | ok events =>
      obtain ⟨_, free, named, admitted, rfl⟩ := getFile_iff.1 opened
      rw [opened] at ok
      exact ⟨free, named, admitted, ok⟩
  · rintro ⟨free, named, admitted, ok⟩
    have opened : getFile slots source ⟨PROTOCOL, path⟩ = .ok (readFile path (source named)) :=
      getFile_iff.2 ⟨rfl, free, named, admitted, rfl⟩
    rw [opened]
    exact ok

theorem download_complete (admitted : safePath path = .ok named) (readable : (source named).Readable)
    (adds : contents (source named).reads = some d) (fits : d.length ≤ MAX_FILE_SIZE) :
    download true source id path = .ok d := by
  obtain ⟨mode, loop⟩ := readFile_readable path readable
  obtain ⟨chunks, events, complete, versioned⟩ :=
    readLoop_complete adds (by omega : 0 + d.length ≤ MAX_FILE_SIZE)
  have sent : readFile path (source named) = chunks.map .message := loop.trans events
  have collects : collectFileStream {} (readFile path (source named)) = .ok d :=
    (collect_iff rfl).mpr ⟨chunks, d, sent, complete, versioned, rfl, fits⟩
  exact download_iff.2 ⟨rfl, named, admitted, collects⟩

/-- A download that returns has the contents of the file, whatever becomes of the stream. -/
theorem download_sound (delivers : ∀ events, Carries events (deliver events))
    (ok : download slots source deliver path = .ok d) :
    ∃ named, safePath path = .ok named ∧ contents (source named).reads = some d ∧ d.length ≤ MAX_FILE_SIZE := by
  obtain ⟨_, named, admitted, ok⟩ := download_iff.1 ok
  obtain ⟨chunks, rest, events, complete, _, received, _⟩ := (collect_iff rfl).mp ok
  have carries := delivers (readFile path (source named))
  rw [events] at carries
  rcases readFile_cases path (source named) with
    ⟨sent, whole, shape, framed, adds, fits⟩ | ⟨front, status, shape, unmarked⟩
  · rw [shape] at carries
    have same : rest = whole := received_eq framed carries complete
    rw [received, same]
    exact ⟨named, admitted, adds, fits⟩
  · rw [shape] at carries
    exact absurd complete (not_received unmarked carries)

/-- The agent never sends more than the limit: it fails the stream instead of the marked chunk. -/
theorem readFile_limit {source : Source} (readable : source.Readable) (adds : contents source.reads = some d)
    (large : MAX_FILE_SIZE < d.length) :
    ∃ front : List FileChunk, readFile path source =
        front.map .message ++ [.failed (.of .resourceExhausted "file exceeds the 64 MiB limit")] ∧
      ∀ chunk ∈ front, chunk.eof = false := by
  obtain ⟨mode, loop⟩ := readFile_readable path readable
  have broken : ∀ d, contents source.reads = some d → MAX_FILE_SIZE < 0 + d.length := by
    intro other same
    rw [adds] at same
    cases same
    omega
  obtain ⟨front, status, events, unmarked, exceeded⟩ := readLoop_broken (Nat.zero_le _) broken
  rw [exceeded (by rw [adds]; rfl)] at events
  exact ⟨front, loop.trans events, unmarked⟩

end Downloads

end Pbox.Files
