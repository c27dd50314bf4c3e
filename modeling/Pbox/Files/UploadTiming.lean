import Pbox.Files.UploadSpec

/-! Uploads with the times at which their chunks come. The agent waits for a chunk as long as for any idle
stream, but for the end of the stream behind the marked chunk hardly at all. -/

namespace Pbox.Files
open Pbox.Lib.Framing Pbox.Lib.Effects
open Pbox.Agent.Session (Bytes Status PROTOCOL)

/-- Times are in nanoseconds. -/
def FILE_STREAM_IDLE_TIMEOUT : Nat := 5 * 60 * 10 ^ 9
def FILE_STREAM_POST_EOF_TIMEOUT : Nat := 10 * 10 ^ 6

/-- A chunk, the time since the item before it, and the time that the agent takes to write it. -/
structure Arrival where
  gap : Nat
  chunk : FileChunk
  work : Nat

def messageTimeout (complete : Bool) : Nat :=
  if complete then FILE_STREAM_POST_EOF_TIMEOUT else FILE_STREAM_IDLE_TIMEOUT

/-- What `receive_upload` sees of the stream, which ends `close` behind its last chunk. `lag` is how long the last
chunk had been there when the agent was done with it: it waits that much less for the next one. -/
def seen (close : Nat) : Bool → Nat → List Arrival → List FileEvent
  | complete, lag, [] => if close - lag ≤ messageTimeout complete then [] else [.idle]
  | complete, lag, arrival :: rest =>
    if arrival.gap - lag ≤ messageTimeout complete then
      .message arrival.chunk :: seen close arrival.chunk.eof (lag - arrival.gap + arrival.work) rest
    else [.idle]

/-- How long the last chunk had been there when the agent was done with it. -/
def settled (lag : Nat) (arrivals : List Arrival) : Nat :=
  arrivals.foldl (fun lag arrival => lag - arrival.gap + arrival.work) lag

/-- The chunks that an agent accepts: one mark at the end, no owner, a known version, within the limit. -/
structure WellFormed (first : FileChunk) (arrivals : List Arrival) (contents : Bytes) : Prop where
  complete : Complete (first :: arrivals.map Arrival.chunk) contents
  unowned : ¬first.Owned
  follow : ∀ arrival ∈ arrivals, Follows arrival.chunk
  room : contents.length ≤ MAX_FILE_SIZE

/-- No gap is too long for an idle stream. -/
structure Patient (arrivals : List Arrival) (close : Nat) : Prop where
  gaps : ∀ arrival ∈ arrivals, arrival.gap ≤ FILE_STREAM_IDLE_TIMEOUT
  close : close ≤ FILE_STREAM_IDLE_TIMEOUT

/-- A host on which nothing fails, with a free temporary name. -/
structure Ready (host : Host) (fs : Fs) (temporary destination : Path) : Prop where
  clear : host.faults = {}
  free : fs temporary = none
  different : temporary ≠ destination

/-- `receive_upload` on a stream with times. -/
def receiveTimed (host : Host) (first : FileChunk) (work : Nat) (arrivals : List Arrival) (close : Nat)
    (temporary destination : Path) : Io FileResult :=
  receiveUpload host (seen close first.eof work arrivals) first temporary destination

def Succeeds (upload : Io FileResult) (fs : Fs) : Prop := ∃ result t, upload.from fs = (.ok result, t)

section Timing
variable {host : Host} {fs : Fs} {temporary destination : Path} {first : FileChunk} {arrivals : List Arrival}
  {contents : Bytes} {lag close : Nat}

/-- All chunks are seen, and then the end if it comes in time. -/
theorem seen_complete (complete : Complete (first :: arrivals.map Arrival.chunk) contents)
    (gaps : ∀ arrival ∈ arrivals, arrival.gap ≤ FILE_STREAM_IDLE_TIMEOUT) :
    seen close first.eof lag arrivals = (arrivals.map Arrival.chunk).map .message ++
      if close ≤ settled lag arrivals + FILE_STREAM_POST_EOF_TIMEOUT then [] else [.idle] := by
  induction arrivals generalizing first lag contents with
  | nil =>
    have marked : first.eof = true := by
      cases complete with
      | last _ marked => exact marked
      | more _ _ _ _ rest => cases rest
    unfold seen
    rw [marked, messageTimeout, if_pos rfl]
    exact if_congr Nat.sub_le_iff_le_add' rfl rfl
  | cons arrival rest ih =>
    cases complete with
    | more _ _ _ unmarked framed =>
      have here := gaps arrival List.mem_cons_self
      have later := @ih _ _ (lag - arrival.gap + arrival.work) framed
        fun other member => gaps other (List.mem_cons_of_mem _ member)
      unfold seen
      rw [unmarked, messageTimeout, if_neg Bool.false_ne_true, if_pos (by omega), later]
      rfl

theorem succeeds_of_ends {upload : Io FileResult} (returns : Ends upload fs (fun _ _ => True) fun _ _ => False) :
    Succeeds upload fs := by
  unfold Ends at returns
  split at returns
  next result t ended => exact ⟨result, t, ended⟩
  next => cases returns

/-- A stream that stalls at its end is not accepted. -/
theorem stalled_fails (different : temporary ≠ destination) {stream : List FileEvent} (stalls : .idle ∈ stream) :
    ¬Succeeds (receiveUpload host stream first temporary destination) fs := by
  rintro ⟨result, t, ended⟩
  obtain ⟨_, _, ⟨chunks, rfl, _⟩, _⟩ := (ends_receiveUpload different).ok_of ended
  obtain ⟨chunk, _, same⟩ := List.mem_map.mp stalls
  cases same

end Timing

/-- A well-formed upload is accepted exactly when the end of the stream comes at most 10 ms after the agent has
written the marked chunk. -/
theorem receive_upload_iff (host : Host) (fs : Fs) (temporary destination : Path)
    (ready : Ready host fs temporary destination) (first : FileChunk) (work : Nat) (arrivals : List Arrival)
    (contents : Bytes) (wellFormed : WellFormed first arrivals contents) (close : Nat) (patient : Patient arrivals close) :
    Succeeds (receiveTimed host first work arrivals close temporary destination) fs ↔
      close ≤ settled work arrivals + FILE_STREAM_POST_EOF_TIMEOUT := by
  have visible := @seen_complete first arrivals contents work close wellFormed.complete patient.gaps
  unfold receiveTimed
  rw [visible]
  by_cases prompt : close ≤ settled work arrivals + FILE_STREAM_POST_EOF_TIMEOUT
  · rw [if_pos prompt, List.append_nil]
    refine ⟨fun _ => prompt, fun _ => succeeds_of_ends ?_⟩
    refine receiveUpload_returns ready.clear ready.free wellFormed.complete wellFormed.unowned ?_ wellFormed.room
    intro chunk member
    obtain ⟨arrival, found, rfl⟩ := List.mem_map.mp member
    exact wellFormed.follow arrival found
  · rw [if_neg prompt]
    exact ⟨fun accepted => absurd accepted
      (stalled_fails ready.different (List.mem_append_right _ List.mem_cons_self)), fun late => absurd late prompt⟩

section Samples

/-- A file in one chunk, and its mark a second later. -/
def sampleArrivals : List Arrival := [⟨10 ^ 9, { eof := true }, 0⟩]

def sampleFirst : FileChunk := { path := "/srv/notes".toList, data := [0x61, 0x62, 0x63], protocolVersion := PROTOCOL }

def notes : Path := .parse "/srv/notes".toList

theorem sample_ready : Ready sampleHost (fun _ => none) (temporaryPath notes 7 0) notes :=
  ⟨rfl, rfl, temporaryPath_ne notes 7 0⟩

theorem sample_wellFormed : WellFormed sampleFirst sampleArrivals [0x61, 0x62, 0x63] where
  complete := .more _ _ [] rfl (.last _ rfl)
  unowned := by decide
  follow arrival member := by
    rw [List.mem_singleton.mp member]
    exact ⟨by decide, .inl rfl⟩
  room := by decide

theorem prompt_accepted : Succeeds (receiveTimed sampleHost sampleFirst 0 sampleArrivals (2 * 10 ^ 6)
    (temporaryPath notes 7 0) notes) fun _ => none :=
  (receive_upload_iff sampleHost _ _ _ sample_ready sampleFirst 0 sampleArrivals _ sample_wellFormed (2 * 10 ^ 6)
    ⟨by decide, by decide⟩).mpr (by decide)

/-- The end of the stream comes 20 ms behind the marked chunk. -/
theorem late_end_refused : ¬∀ (host : Host) (fs : Fs) (temporary destination : Path) (first : FileChunk) (work : Nat)
    (arrivals : List Arrival) (contents : Bytes) (close : Nat), Ready host fs temporary destination →
    WellFormed first arrivals contents → Patient arrivals close →
    Succeeds (receiveTimed host first work arrivals close temporary destination) fs := by
  intro always
  have accepted := always sampleHost _ _ _ sampleFirst 0 sampleArrivals _ (20 * 10 ^ 6) sample_ready sample_wellFormed
    ⟨by decide, by decide⟩
  have stalls : Event.idle ∈ seen (20 * 10 ^ 6) false 0 sampleArrivals := by
    show Event.idle ∈ ([.message { eof := true }, .idle] : List FileEvent)
    exact List.mem_cons_of_mem _ List.mem_cons_self
  exact stalled_fails sample_ready.different stalls accepted

end Samples

end Pbox.Files
