import Pbox.Lib.PosixShell
import Pbox.Lib.Replace

/-! `shell_quote`, and the commands that are run as root in a new box with what it quotes. -/

namespace Pbox.Cli.ShellQuote
open Pbox.Lib.PosixShell Pbox.Lib.Replace

def shellQuote (value : Text) : Text := ['\''] ++ replace ['\''] ['\'', '\\', '\'', '\''] value ++ ['\'']

/-- What stands in the scripts for a quoted value. -/
inductive Slot where
  | stage
  | publicKey
  deriving DecidableEq

/-- The command that creates the directory the agent is copied into. -/
def stageCommand : List (Piece Slot) := [.text "install -d -m 0700 ".toList, .hole .stage]

/-- The commands that set up the account of the box, where the image has none. -/
def USER_SETUP : String := "
if ! id -u pbox >/dev/null 2>&1; then
  useradd --create-home --shell /bin/bash pbox
  install -d -m 0755 /etc/sudoers.d
  printf '%s\\n' 'pbox ALL=(ALL:ALL) NOPASSWD: ALL' > /etc/sudoers.d/90-pbox
  chmod 0440 /etc/sudoers.d/90-pbox
  visudo -cf /etc/sudoers.d/90-pbox
fi
"

def installScript : List (Piece Slot) :=
  [.text "set -eu
if ! command -v sudo >/dev/null 2>&1; then
if ! command -v apt-get >/dev/null 2>&1; then echo 'sudo is missing and apt-get is unavailable' >&2; exit 1; fi
export DEBIAN_FRONTEND=noninteractive
apt-get update
apt-get install -y --no-install-recommends sudo
fi
if ! command -v systemctl >/dev/null 2>&1; then echo 'systemd is required for pbox-agent' >&2; exit 1; fi
".toList, .text USER_SETUP.toList, .text "
install -d -o pbox -g pbox -m 0755 /home/pbox
install -d -m 0750 /etc/pbox
install -m 0755 ".toList, .hole .stage, .text "/pbox-agent /usr/local/bin/pbox-agent
install -m 0644 ".toList, .hole .stage, .text "/server.pem /etc/pbox/server.pem
install -m 0600 ".toList, .hole .stage, .text "/server-key.pem /etc/pbox/server-key.pem
install -m 0644 ".toList, .hole .stage, .text "/client-ca.pem /etc/pbox/client-ca.pem
install -m 0644 ".toList, .hole .stage, .text "/pbox-agent.service /etc/systemd/system/pbox-agent.service
sudo -n -u pbox -- true
systemctl daemon-reload
systemctl enable pbox-agent.service
systemctl restart pbox-agent.service
".toList]

def cleanupScript : List (Piece Slot) :=
  [.text "set -eu
rm -rf ".toList, .hole .stage, .text "
if [ -f /root/.ssh/authorized_keys ]; then
temporary=/root/.ssh/.pbox-authorized-keys-cleanup
grep -Fvx -- ".toList, .hole .publicKey, .text " /root/.ssh/authorized_keys > \"$temporary\" || true
install -m 0600 \"$temporary\" /root/.ssh/authorized_keys
rm -f \"$temporary\"
fi
".toList]

def Slot.given (stage publicKey : Text) : Slot → Text
  | .stage => stage
  | .publicKey => publicKey

/-- A script as it is run, with the values quoted. -/
def format (stage publicKey : Text) (script : List (Piece Slot)) : Text :=
  render (fun slot => shellQuote (slot.given stage publicKey)) script

/-! What the shell reads a quoted value as: text in single quotes, and between two of these a quote behind a backslash. -/

section Quoting

variable {Hole : Type}

def quoteFrom (text : Text) : Text → List (Fragment Hole)
  | [] => [.single text]
  | c :: rest => if c = '\'' then .single text :: .escaped '\'' :: quoteFrom [] rest else quoteFrom (text ++ [c]) rest

def quoteParts (value : Text) : List (Fragment Hole) := quoteFrom [] value

/-- The characters that a character becomes within the quotes. -/
def escape (c : Char) : Text := if c = '\'' then ['\'', '\\', '\'', '\''] else [c]

theorem shellQuote_eq (value : Text) : shellQuote value = '\'' :: (value.flatMap escape ++ ['\'']) := by
  unfold shellQuote
  rw [replace_single]
  rfl

theorem quoteFrom_quoted (text value : Text) : Quoted (quoteFrom text value : List (Fragment Hole)) := by
  induction value generalizing text with
  | nil => exact ⟨List.cons_ne_nil _ _, fun part member => List.mem_singleton.mp member ▸ rfl⟩
  | cons c rest ih =>
    unfold quoteFrom
    split
    · refine ⟨List.cons_ne_nil _ _, fun part member => ?_⟩
      rcases List.mem_cons.mp member with rfl | member
      · rfl
      · rcases List.mem_cons.mp member with rfl | member
        · rfl
        · exact (ih []).quoted part member
    · exact ih _

theorem afterDollar_quoted {tokens : List (Token Hole)} {parts : List (Fragment Hole)} {mode : Mode}
    (part : Fragment Hole) (quoted : part.plainChar = none) : Lexer.afterDollar ⟨tokens, some (parts ++ [part]), mode⟩ = false := by
  unfold Lexer.afterDollar
  rw [Option.bind_some, List.getLast?_concat, Option.bind_some, quoted]
  rfl

/-- From inside of single quotes on, to behind the last quote. -/
theorem run_quoteFrom (tokens : List (Token Hole)) (parts : List (Fragment Hole)) (text value : Text) :
    Lexer.run ⟨tokens, some parts, .single text⟩ (value.flatMap escape ++ ['\'']) =
      some ⟨tokens, some (parts ++ quoteFrom text value), .unquoted⟩ := by
  induction value generalizing parts text with
  | nil => rfl
  | cons c rest ih =>
    rw [List.flatMap_cons, List.append_assoc, run_append]
    unfold escape quoteFrom
    split
    next quote =>
      let between := parts ++ [.single text] ++ [.escaped '\'']
      have behind : Lexer.step ⟨tokens, some (parts ++ [.single text]), .unquoted⟩ '\\' =
          some ⟨tokens, some (parts ++ [.single text]), .escape⟩ := by
        change (if Lexer.afterDollar _ && _ || _ then none else _) = _
        rw [afterDollar_quoted (.single text) rfl]
        rfl
      have reopened : Lexer.step ⟨tokens, some between, .unquoted⟩ '\'' =
          some ⟨tokens, some between, .single []⟩ := by
        change (if Lexer.afterDollar _ && _ || _ then none else _) = _
        rw [afterDollar_quoted (.escaped '\'') rfl]
        rfl
      have opened : Lexer.run ⟨tokens, some parts, .single text⟩ ['\'', '\\', '\'', '\''] =
          some ⟨tokens, some between, .single []⟩ := by
        change (Lexer.step ⟨tokens, some (parts ++ [.single text]), .unquoted⟩ '\\').bind _ = _
        rw [behind]
        change (Lexer.step ⟨tokens, some between, .unquoted⟩ '\'').bind some = _
        rw [reopened]
        rfl
      rw [opened]
      exact (ih between []).trans (by simp [between])
    next other =>
      have inside : Lexer.run ⟨tokens, some parts, .single text⟩ [c] =
          some ⟨tokens, some parts, .single (text ++ [c])⟩ := by
        change (if c = '\'' then _ else _ : Option (Lexer Hole)).bind some = _
        rw [if_neg other]
        rfl
      rw [inside]
      exact ih parts (text ++ [c])

theorem reads_shellQuote (value : Text) : Reads (shellQuote value) (quoteParts value : List (Fragment Hole)) where
  quoted := quoteFrom_quoted [] value
  run l mode dollar := by
    rw [shellQuote_eq]
    have opened : l.step '\'' = some (l.begin (.single [])) := by
      unfold Lexer.step
      rw [mode]
      change (if l.afterDollar && _ || _ then none else _) = _
      rw [dollar]
      rfl
    change (l.step '\'').bind _ = _
    rw [opened]
    have read := run_quoteFrom l.tokens (l.word.getD []) [] value
    refine read.trans ?_
    unfold Lexer.addAll
    rw [mode]
    rfl

/-- The one word that a quoted value is, by itself. -/
theorem lex_shellQuote (value : Text) :
    lex (shellQuote value) = some [.word (quoteParts value : List (Fragment Hole))] := by
  unfold lex
  rw [(reads_shellQuote value).run Lexer.start rfl rfl]
  rfl

theorem value_quoteFrom (text value : Text) :
    ∃ values, (quoteFrom text value : List (Fragment Hole)).mapM Fragment.value = some values ∧
      values.flatten = text ++ value := by
  induction value generalizing text with
  | nil => exact ⟨[text], rfl, by simp⟩
  | cons c rest ih =>
    unfold quoteFrom
    split
    next quote =>
      obtain ⟨values, found, same⟩ := ih []
      refine ⟨text :: ['\''] :: values, ?_, ?_⟩
      · rw [List.mapM_cons, List.mapM_cons, found]
        rfl
      · rw [List.flatten_cons, List.flatten_cons, same, quote]
        rfl
    next other =>
      obtain ⟨values, found, same⟩ := ih (text ++ [c])
      exact ⟨values, found, by rw [same, List.append_assoc]; rfl⟩

/-- The value of that word is the value that was quoted. -/
theorem fields_quoteParts (value : Text) : fields (quoteParts value : List (Fragment Hole)) = some [value] := by
  obtain ⟨values, found, same⟩ := @value_quoteFrom Hole [] value
  unfold fields quoteParts wordValue
  rw [found, Option.map_some, same]
  rfl

end Quoting

theorem text_chars (chars : Text) : (.text (String.ofList chars).toList : Piece Slot) = .text chars := by
  rw [String.toList_ofList]

theorem cleanup_lexes : (lexPieces cleanupScript).isSome = true := by
  unfold cleanupScript
  rw [text_chars, text_chars, text_chars]
  decide +kernel

theorem install_lexes : (lexPieces installScript).isSome = true := by
  unfold installScript USER_SETUP
  rw [text_chars, text_chars, text_chars, text_chars, text_chars, text_chars, text_chars, text_chars]
  decide +kernel

theorem stage_lexes : (lexPieces stageCommand).isSome = true := by
  unfold stageCommand
  rw [text_chars]
  decide +kernel

/-- What stands for the slots in the words of a script. -/
def Slot.parts (stage publicKey : Text) (slot : Slot) : List (Fragment Empty) := quoteParts (slot.given stage publicKey)

theorem scripts_lex {script : List (Piece Slot)} (listed : script ∈ [stageCommand, installScript, cleanupScript]) :
    ∃ tokens, lexPieces script = some tokens := by
  rcases List.mem_cons.mp listed with rfl | listed
  · exact Option.isSome_iff_exists.mp stage_lexes
  · rcases List.mem_cons.mp listed with rfl | listed
    · exact Option.isSome_iff_exists.mp install_lexes
    · exact List.mem_singleton.mp listed ▸ Option.isSome_iff_exists.mp cleanup_lexes

/-- A quoted value is one word with that value. In the scripts only the pieces of words that stand for the values depend
on them: the shell finds the same tokens of the same kinds whatever they are, and each word has them as they are. -/
theorem shell_quote_exact :
    (∀ value, lex (shellQuote value) = some [.word (quoteParts value : List (Fragment Empty))] ∧
      fields (quoteParts value : List (Fragment Empty)) = some [value]) ∧
    ∀ script ∈ [stageCommand, installScript, cleanupScript], ∃ tokens, lexPieces script = some tokens ∧
      ∀ stage publicKey,
        lex (format stage publicKey script) = some (tokens.map (Token.fill (Slot.parts stage publicKey))) ∧
        (tokens.map (Token.fill (Slot.parts stage publicKey))).map Token.kind = tokens.map Token.kind ∧
        ∀ parts, .word parts ∈ tokens →
          fields (fillWord (Slot.parts stage publicKey) parts) = fieldsWith (Slot.given stage publicKey) parts := by
  constructor
  · exact fun value => ⟨lex_shellQuote value, fields_quoteParts value⟩
  · intro script listed
    obtain ⟨tokens, lexed⟩ := scripts_lex listed
    refine ⟨tokens, lexed, fun stage publicKey => ⟨?_, ?_, ?_⟩⟩
    · exact lex_render (fun slot => reads_shellQuote (slot.given stage publicKey)) lexed
    · rw [List.map_map]
      apply List.map_congr_left
      intro token _
      exact kind_fill (fun slot => (reads_shellQuote (slot.given stage publicKey)).quoted) token
    · intro parts _
      exact fields_fill (fun slot => fields_quoteParts (slot.given stage publicKey)) parts

/-- The words and operators of the script that cleans up, with names for what it quotes. -/
example : (lexPieces cleanupScript).map (fun tokens => (tokens.drop 3).take 4) =
    some [.word (List.map Fragment.plain ['r', 'm']), .word (List.map Fragment.plain ['-', 'r', 'f']),
      .word [.hole .stage], .operator ['\n']] := by
  unfold cleanupScript
  rw [text_chars, text_chars, text_chars]
  decide +kernel

end Pbox.Cli.ShellQuote
