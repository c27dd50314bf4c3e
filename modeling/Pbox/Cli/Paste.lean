import Pbox.Cli.Typing

/-! Pasted text between its two markers. The parser looks for the end marker among the escape sequences
of the text, so it finds the marker exactly when the text does not end inside one. -/

namespace Pbox.Cli.Paste
open Pbox.Cli.Typing

/-- Whole escape sequences: two bytes, or a control sequence up to its final byte or to 64 bytes. -/
inductive Sequence : Bytes → Prop
  | short {byte : UInt8} (other : byte ≠ BRACKET) : Sequence [ESC, byte]
  | control {body : Bytes} {last : UInt8} (inside : ∀ byte ∈ body, isFinal byte = false)
      (ends : isFinal last = true) (fits : body.length ≤ 61) : Sequence (ESC :: BRACKET :: (body ++ [last]))
  | cut {body : Bytes} (inside : ∀ byte ∈ body, isFinal byte = false) (long : body.length = 62) :
      Sequence (ESC :: BRACKET :: body)

/-- Bytes that end outside an escape sequence. -/
inductive Whole : Bytes → Prop
  | nil : Whole []
  | byte {byte : UInt8} {rest : Bytes} (plain : byte ≠ ESC) (more : Whole rest) : Whole (byte :: rest)
  | sequence {first rest : Bytes} (sequence : Sequence first) (more : Whole rest) : Whole (first ++ rest)

/-- What is asked of a paste and the calls that pass it on: every byte is forwarded, and Ctrl-] detaches after it. -/
structure Forwards (readOnly : Bool) (calls : List Call) : Prop where
  unchanged : ((TerminalInput.new readOnly).run calls).1 = typed calls
  attached : ((TerminalInput.new readOnly).run calls).2.1 = false
  outside : ((TerminalInput.new readOnly).run calls).2.2.pasted = false
  whole : ((TerminalInput.new readOnly).run calls).2.2.pending = []
  detaches : (((TerminalInput.new readOnly).run calls).2.2.push [DETACH]).2.1 = true

/-- The beginning of an escape sequence that is not whole. -/
inductive Held : Bytes → Prop
  | escape : Held [ESC]
  | control {body : Bytes} (inside : ∀ byte ∈ body, isFinal byte = false) (fits : body.length ≤ 61) :
      Held (ESC :: BRACKET :: body)

section Sequences
variable {first second rest other held : Bytes} {byte : UInt8}

theorem Held.head (unfinished : Held held) : ∃ more, held = ESC :: more := by
  cases unfinished with
  | escape => exact ⟨_, rfl⟩
  | control inside fits => exact ⟨_, rfl⟩

theorem Sequence.of_held (sequence : Sequence first) : ∃ held byte, first = held ++ [byte] ∧ Held held := by
  cases sequence with
  | @short byte other => exact ⟨[ESC], byte, rfl, .escape⟩
  | @control body last inside ends fits => exact ⟨ESC :: BRACKET :: body, last, rfl, .control inside fits⟩
  | @cut body inside long =>
    have nonempty : body ≠ [] := by
      rintro rfl
      cases long
    refine ⟨ESC :: BRACKET :: body.dropLast, body.getLast nonempty, ?_, .control ?_ ?_⟩
    · rw [List.cons_append, List.cons_append, List.dropLast_append_getLast]
    · exact fun byte member => inside byte (List.mem_of_mem_dropLast member)
    · rw [List.length_dropLast, long]

/-- An unfinished sequence does not go beyond a whole one. -/
theorem Held.not_sequence (unfinished : Held held) (starts : first <+: held) : ¬Sequence first := by
  intro sequence
  cases unfinished with
  | escape =>
    have short := starts.length_le
    cases sequence <;> simp at short
  | @control body inside fits =>
    cases sequence with
    | short other =>
      rw [List.cons_prefix_cons, List.cons_prefix_cons] at starts
      exact other starts.2.1
    | @control front last _ ends _ =>
      rw [List.cons_prefix_cons, List.cons_prefix_cons] at starts
      have member : last ∈ body := starts.2.2.subset (List.mem_append_right _ List.mem_cons_self)
      rw [inside last member] at ends
      cases ends
    | cut _ long =>
      have short := starts.length_le
      simp only [List.length_cons] at short
      omega

theorem Held.closes (unfinished : Held (held ++ [byte])) (ends : isFinal byte = true) : held = [ESC] := by
  generalize shape : held ++ [byte] = bytes at unfinished
  cases unfinished with
  | escape =>
    cases held with
    | nil =>
      cases shape
      cases ends
    | cons first more => simp at shape
  | @control body inside _ =>
    rcases List.eq_nil_or_concat' body with rfl | ⟨front, last, rfl⟩
    · exact (List.append_inj' (show held ++ [byte] = [ESC] ++ [BRACKET] from shape) rfl).1
    · have same := (List.append_inj' (show held ++ [byte] = ESC :: BRACKET :: front ++ [last] from shape) rfl).2
      cases same
      rw [inside byte (List.mem_append_right _ List.mem_cons_self)] at ends
      cases ends

theorem Sequence.not_shorter (sequence : Sequence first) (longer : Sequence second) (starts : first <+: second) :
    first = second := by
  obtain ⟨held, byte, rfl, unfinished⟩ := longer.of_held
  rcases List.prefix_concat_iff.mp starts with same | within
  · exact same
  · exact (unfinished.not_sequence within sequence).elim

theorem Sequence.prefix_free (sequence : Sequence first) (sequence' : Sequence second)
    (same : first ++ rest = second ++ other) : first = second := by
  rcases List.prefix_or_prefix_of_prefix (List.prefix_append first rest)
    (same ▸ List.prefix_append second other) with shorter | longer
  · exact sequence.not_shorter sequence' shorter
  · exact (sequence'.not_shorter sequence longer).symm

theorem Sequence.head (sequence : Sequence first) : ∃ more, first = ESC :: more := by
  cases sequence <;> exact ⟨_, rfl⟩

theorem whole_byte (plain : byte ≠ ESC) : Whole (byte :: rest) ↔ Whole rest := by
  refine ⟨fun whole => ?_, .byte plain⟩
  generalize shape : byte :: rest = bytes at whole
  cases whole with
  | nil => cases shape
  | byte plain more =>
    cases shape
    exact more
  | sequence sequence more =>
    obtain ⟨tail, rfl⟩ := sequence.head
    cases shape
    exact (plain rfl).elim

theorem whole_sequence (sequence : Sequence first) : Whole (first ++ rest) ↔ Whole rest := by
  refine ⟨fun whole => ?_, .sequence sequence⟩
  obtain ⟨tail, rfl⟩ := sequence.head
  generalize shape : ESC :: tail ++ rest = bytes at whole
  cases whole with
  | nil => cases shape
  | byte plain more =>
    cases shape
    exact (plain rfl).elim
  | sequence other more =>
    obtain rfl := sequence.prefix_free other shape
    rwa [List.append_cancel_left shape]

theorem Held.not_whole (unfinished : Held held) : ¬Whole held := by
  intro whole
  obtain ⟨more, rfl⟩ := unfinished.head
  generalize shape : ESC :: more = bytes at whole
  cases whole with
  | nil => cases shape
  | byte plain more =>
    cases shape
    exact plain rfl
  | sequence sequence more => exact unfinished.not_sequence (shape ▸ List.prefix_append _ _) sequence

end Sequences

section Parser
variable {readOnly : Bool} {held content : Bytes} {byte : UInt8}

/-- A byte makes an unfinished sequence longer, or whole. -/
theorem Held.extended (unfinished : Held held) (t : TerminalInput) (byte : UInt8) :
    Held (held ++ [byte]) ∧ t.extended (held ++ [byte]) byte = some ([], { t with pending := held ++ [byte] }) ∨
      Sequence (held ++ [byte]) ∧ t.extended (held ++ [byte]) byte = t.sequence (held ++ [byte]) := by
  unfold TerminalInput.extended
  cases unfinished with
  | escape =>
    by_cases bracket : byte = BRACKET
    · left
      subst bracket
      exact ⟨@Held.control [] (by simp) (by simp), by simp⟩
    · right
      exact ⟨.short bracket, by simp [bracket]⟩
  | @control body inside fits =>
    have length : (ESC :: BRACKET :: body ++ [byte]).length = body.length + 3 := by simp
    have more (plain : isFinal byte = false) : ∀ b ∈ body ++ [byte], isFinal b = false := by
      intro b member
      rcases List.mem_append.mp member with before | last
      · exact inside b before
      · rwa [List.mem_singleton.mp last]
    rw [length, if_neg (by omega)]
    cases final : isFinal byte with
    | true =>
      right
      exact ⟨.control inside final fits, if_neg (by simp)⟩
    | false =>
      by_cases last : body.length = 61
      · right
        exact ⟨.cut (more final) (by simp [last]), if_neg (by omega)⟩
      · left
        exact ⟨.control (more final) (by simp; omega), if_pos ⟨by omega, rfl, by omega⟩⟩

theorem extended_of_nil (t : TerminalInput) (empty : t.pending = []) (pasted : t.pasted = true) (byte : UInt8) :
    t.accept byte = if byte = ESC then some ([], { t with pending := [byte] }) else some ([byte], t) := by
  unfold TerminalInput.accept
  rw [if_pos empty, pasted, Bool.not_true, Bool.and_false, if_neg Bool.false_ne_true]

theorem sequence_pasted {pending : Bytes} (other : pending ≠ PASTE_END) :
    (⟨held, true, readOnly⟩ : TerminalInput).sequence pending = some (pending, ⟨[], true, readOnly⟩) := by
  unfold TerminalInput.sequence
  simp [other]

theorem Held.accept (unfinished : Held held) (t : TerminalInput) (pending : t.pending = held) (byte : UInt8) :
    t.accept byte = t.extended (held ++ [byte]) byte := by
  obtain ⟨more, rfl⟩ := unfinished.head
  unfold TerminalInput.accept
  rw [pending, if_neg (List.cons_ne_nil _ _)]

/-- Inside a paste everything passes, until the marker, and the bytes at its end are held back exactly when they
are an unfinished sequence. -/
theorem push_pasted (unmarked : ¬PASTE_END <:+: held ++ content) (start : held = [] ∨ Held held) :
    ∃ output last, (⟨held, true, readOnly⟩ : TerminalInput).push content = (output, false, ⟨last, true, readOnly⟩) ∧
      (last = [] ∨ Held last) ∧ (Whole (held ++ content) ↔ last = []) := by
  induction content generalizing held with
  | nil =>
    refine ⟨[], held, rfl, start, ?_⟩
    rw [List.append_nil]
    rcases start with rfl | unfinished
    · exact iff_of_true .nil rfl
    · obtain ⟨more, rfl⟩ := unfinished.head
      exact iff_of_false unfinished.not_whole (List.cons_ne_nil _ _)
  | cons byte rest ih =>
    have longer : held ++ byte :: rest = held ++ [byte] ++ rest := by simp
    have after (infix' : PASTE_END <:+: rest) : False :=
      unmarked (longer ▸ infix'.trans (List.suffix_append _ _).isInfix)
    unfold TerminalInput.push
    rcases start with rfl | unfinished
    · rw [extended_of_nil _ rfl rfl]
      by_cases escape : byte = ESC
      · subst escape
        obtain ⟨output, last, pushed, ends, whole⟩ := @ih [ESC] unmarked (.inr .escape)
        exact ⟨output, last, by simp [pushed], ends, whole⟩
      · obtain ⟨output, last, pushed, ends, whole⟩ := @ih [] after (.inl rfl)
        refine ⟨byte :: output, last, by simp [escape, pushed], ends, ?_⟩
        exact (whole_byte escape).trans whole
    · rw [unfinished.accept _ rfl]
      rcases unfinished.extended ⟨held, true, readOnly⟩ byte with ⟨next, kept⟩ | ⟨sequence, passed⟩
      · obtain ⟨output, last, pushed, ends, whole⟩ := @ih (held ++ [byte]) (longer ▸ unmarked) (.inr next)
        exact ⟨output, last, by simp [kept, pushed], ends, longer ▸ whole⟩
      · have other : held ++ [byte] ≠ PASTE_END := by
          intro same
          exact unmarked (longer ▸ same ▸ (List.prefix_append _ rest).isInfix)
        obtain ⟨output, last, pushed, ends, whole⟩ := @ih [] after (.inl rfl)
        refine ⟨held ++ [byte] ++ output, last, ?_, ends, ?_⟩
        · simp [passed, sequence_pasted other, pushed]
        · rw [longer, whole_sequence sequence]
          exact whole

theorem ne_marker {bytes : Bytes} {last : UInt8} (other : last ≠ 0x7e) : bytes ++ [last] ≠ PASTE_END := by
  intro same
  have ends := congrArg List.getLast? same
  rw [List.getLast?_concat] at ends
  exact other (Option.some.inj ends)

/-- Behind an unfinished sequence the end marker is not seen. -/
theorem Held.hides (unfinished : Held held) :
    ((⟨held, true, readOnly⟩ : TerminalInput).push PASTE_END).2 = (false, ⟨[], true, readOnly⟩) := by
  have digits : ((⟨[], true, readOnly⟩ : TerminalInput).push [50, 48, 49, 126]).2 = (false, ⟨[], true, readOnly⟩) := by
    cases readOnly <;> decide
  have bracket : (⟨[], true, readOnly⟩ : TerminalInput).accept BRACKET = some ([BRACKET], ⟨[], true, readOnly⟩) := by
    cases readOnly <;> decide
  show ((⟨held, true, readOnly⟩ : TerminalInput).push (ESC :: BRACKET :: [50, 48, 49, 126])).2 = _
  have first := unfinished.accept ⟨held, true, readOnly⟩ rfl ESC
  rcases unfinished.extended ⟨held, true, readOnly⟩ ESC with ⟨next, kept⟩ | ⟨_, passed⟩
  · -- the escape character is taken into the sequence, and the bracket ends it
    have second := next.accept ⟨held ++ [ESC], true, readOnly⟩ rfl BRACKET
    rcases next.extended ⟨held ++ [ESC], true, readOnly⟩ BRACKET with ⟨later, _⟩ | ⟨_, passed⟩
    · obtain ⟨more, rfl⟩ := unfinished.head
      have short := congrArg List.length (later.closes (by decide))
      simp at short
    · rw [passed, sequence_pasted (ne_marker (by decide))] at second
      rw [TerminalInput.push_cons (first.trans kept), TerminalInput.push_cons second]
      exact digits
  · rw [passed, sequence_pasted (ne_marker (by decide))] at first
    rw [TerminalInput.push_cons first, TerminalInput.push_cons bracket]
    exact digits

theorem push_marked (readOnly : Bool) {output : Bytes} {last : TerminalInput} (content : Bytes)
    (pushed : (⟨[], true, readOnly⟩ : TerminalInput).push content = (output, false, last)) :
    ((TerminalInput.new readOnly).push (PASTE_START ++ content ++ PASTE_END)).2 = (last.push PASTE_END).2 := by
  have start : (TerminalInput.new readOnly).push PASTE_START = (PASTE_START, false, ⟨[], true, readOnly⟩) := by
    cases readOnly <;> decide
  rw [TerminalInput.push_append, TerminalInput.push_append, start]
  simp only [pushed]

end Parser

/-- A paste passes exactly when its text ends outside an escape sequence. -/
theorem paste_forwards_iff (readOnly : Bool) (content : Bytes) (calls : List Call) (unmarked : ¬PASTE_END <:+: content)
    (unflushed : .flush ∉ calls) (pasted : typed calls = PASTE_START ++ content ++ PASTE_END) :
    Forwards readOnly calls ↔ Whole content := by
  obtain ⟨output, held, pushed, ends, whole⟩ := @push_pasted readOnly [] content unmarked (.inl rfl)
  have ran := TerminalInput.run_pushes (.new readOnly) unflushed
  have marked := push_marked readOnly content pushed
  rw [← pasted, ← ran] at marked
  rw [List.nil_append] at whole
  rw [whole]
  constructor
  · intro forwards
    rcases ends with empty | unfinished
    · exact empty
    · have inside := forwards.outside
      rw [marked, unfinished.hides] at inside
      cases inside
  · rintro rfl
    have last : ((⟨[], true, readOnly⟩ : TerminalInput).push PASTE_END).2 = (false, .new readOnly) := by
      cases readOnly <;> decide
    rw [last] at marked
    have clear := TerminalInput.run_clear (t := .new readOnly) calls (by rw [marked])
    refine ⟨?_, by rw [marked], by rw [marked]; rfl, by rw [marked]; rfl, ?_⟩
    · rw [marked] at clear
      exact (List.append_nil _).symm.trans clear.1
    · rw [marked]
      cases readOnly <;> decide

theorem plain_paste_forwards : Forwards false [.push (PASTE_START ++ [104, 105]), .push PASTE_END] :=
  (paste_forwards_iff false [104, 105] _ (by decide) (by decide) (by decide)).mpr
    (.byte (by decide) (.byte (by decide) .nil))

/-- An escape character at the end of the text takes the marker's with it. -/
theorem escape_hides_marker : ¬∀ (readOnly : Bool) (content : Bytes) (calls : List Call), ¬PASTE_END <:+: content →
    .flush ∉ calls → typed calls = PASTE_START ++ content ++ PASTE_END → Forwards readOnly calls := by
  intro always
  have forwards := always false [ESC] [.push (PASTE_START ++ [ESC] ++ PASTE_END)] (by decide) (by decide) (by decide)
  exact absurd forwards.outside (by decide)

end Pbox.Cli.Paste
