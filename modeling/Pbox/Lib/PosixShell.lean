import Mathlib.Data.List.Basic

/-! How a POSIX shell splits its input into tokens, with quoting. Words keep track of what in them was quoted and how;
input that the splitting here does not cover (substitutions, here-documents, quotes that do not end) has no tokens.
A text with holes is split in the same way, so that what is put into the holes can be looked at by itself. -/

namespace Pbox.Lib.PosixShell

abbrev Text := List Char

/-- A piece of a word: a character by itself, behind a backslash, text in single or in double quotes, or a hole. -/
inductive Fragment (Hole : Type) where
  | plain (c : Char)
  | escaped (c : Char)
  | single (text : Text)
  | double (text : Text)
  | hole (name : Hole)
  deriving DecidableEq

inductive Token (Hole : Type) where
  | word (parts : List (Fragment Hole))
  | ioNumber (digits : Text)
  | operator (text : Text)
  deriving DecidableEq

/-- The operators, with the end of a line. -/
def operators : List Text :=
  [['&', '&'], ['|', '|'], [';', ';'], ['<', '<'], ['<', '<', '-'], ['>', '>'], ['<', '&'], ['>', '&'], ['<', '>'],
    ['>', '|'], ['&'], ['|'], [';'], ['<'], ['>'], ['('], [')'], ['\n']]

def hereDocuments : List Text := [['<', '<'], ['<', '<', '-']]

inductive Mode where
  | unquoted
  | escape
  | single (text : Text)
  | double (text : Text)
  | doubleEscape (text : Text)
  | comment
  | operator (text : Text)
  deriving DecidableEq

/-- The tokens that are complete, and the word that is being read, if one has begun. -/
structure Lexer (Hole : Type) where
  tokens : List (Token Hole)
  word : Option (List (Fragment Hole))
  mode : Mode
  deriving DecidableEq

variable {Hole : Type}

def Fragment.plainChar : Fragment Hole → Option Char
  | .plain c => some c
  | _ => none

/-- The text of a word without any quoting. -/
def plainText (parts : List (Fragment Hole)) : Option Text := parts.mapM Fragment.plainChar

namespace Lexer

def start : Lexer Hole := ⟨[], none, .unquoted⟩

def add (part : Fragment Hole) (l : Lexer Hole) : Lexer Hole := { l with word := some (l.word.getD [] ++ [part]) }

def begin (mode : Mode) (l : Lexer Hole) : Lexer Hole := { l with word := some (l.word.getD []), mode }

def delimit (l : Lexer Hole) : Lexer Hole :=
  match l.word with
  | none => l
  | some parts => { l with tokens := l.tokens ++ [.word parts], word := none }

/-- A word of digits directly before a redirection is the number of a file descriptor. -/
def ioDigits (c : Char) (parts : List (Fragment Hole)) : Option Text :=
  (plainText parts).filter fun text => (c == '<' || c == '>') && text ≠ [] && text.all Char.isDigit

def delimitAt (c : Char) (l : Lexer Hole) : Lexer Hole :=
  match l.word.bind (ioDigits c) with
  | some digits => { l with tokens := l.tokens ++ [.ioNumber digits], word := none }
  | none => l.delimit

def afterDollar (l : Lexer Hole) : Bool := ((l.word.bind List.getLast?).bind Fragment.plainChar) == some '$'

def unquoted (l : Lexer Hole) (c : Char) : Option (Lexer Hole) :=
  if l.afterDollar && (c == '\'' || c == '(' || c == '{') || c = '`' then none
  else if c = '\'' then some (l.begin (.single []))
  else if c = '"' then some (l.begin (.double []))
  else if c = '\\' then some { l with mode := .escape }
  else if operators.contains [c] then some { l.delimitAt c with mode := .operator [c] }
  else if c = ' ' || c = '\t' then some l.delimit
  else if c = '#' && l.word.isNone then some { l with mode := .comment }
  else some (l.add (.plain c))

def double (l : Lexer Hole) (text : Text) (c : Char) : Option (Lexer Hole) :=
  if c = '"' then some { l.add (.double text) with mode := .unquoted }
  else if c = '\\' then some { l with mode := .doubleEscape text }
  else if c = '`' || (text.getLast? == some '$' && (c == '(' || c == '{')) then none
  else some { l with mode := .double (text ++ [c]) }

def closeOperator (l : Lexer Hole) (text : Text) : Option (Lexer Hole) :=
  if hereDocuments.contains text then none
  else some { l with tokens := l.tokens ++ [.operator text], mode := .unquoted }

def operator (l : Lexer Hole) (text : Text) (c : Char) : Option (Lexer Hole) :=
  if operators.contains (text ++ [c]) then some { l with mode := .operator (text ++ [c]) }
  else (l.closeOperator text).bind fun l => l.unquoted c

def step (l : Lexer Hole) (c : Char) : Option (Lexer Hole) :=
  match l.mode with
  | .unquoted => l.unquoted c
  | .escape =>
    -- A backslash and the end of the line are as if they were not there.
    if c = '\n' then some { l with mode := .unquoted } else some { l.add (.escaped c) with mode := .unquoted }
  | .single text =>
    if c = '\'' then some { l.add (.single text) with mode := .unquoted }
    else some { l with mode := .single (text ++ [c]) }
  | .double text => l.double text c
  | .doubleEscape text => some { l with mode := .double (text ++ ['\\', c]) }
  | .comment => if c = '\n' then ({ l with mode := .unquoted } : Lexer Hole).unquoted c else some l
  | .operator text => l.operator text c

def run (l : Lexer Hole) (text : Text) : Option (Lexer Hole) := text.foldlM step l

def finish (l : Lexer Hole) : Option (List (Token Hole)) :=
  match l.mode with
  | .unquoted => some l.delimit.tokens
  | .comment => some l.tokens
  | .operator text => (l.closeOperator text).map tokens
  | _ => none

end Lexer

open Lexer

/-- The tokens of a text. -/
def lex (text : Text) : Option (List (Token Hole)) := (start.run text).bind finish

/-! The value of a word. -/

/-- A character that stands for itself outside of quotes. -/
def ordinary (c : Char) : Bool := !(['$', '*', '?', '[', '~'].contains c)

/-- What a piece of a word stands for when that is the same whatever the variables and files are. -/
def Fragment.value : Fragment Hole → Option Text
  | .plain c => if ordinary c then some [c] else none
  | .escaped c => some [c]
  | .single text => some text
  | _ => none

def wordValue (parts : List (Fragment Hole)) : Option Text := (parts.mapM Fragment.value).map List.flatten

/-- The fields that a word expands to, where they are the same whatever the variables and files are: one. -/
def fields (parts : List (Fragment Hole)) : Option (List Text) := (wordValue parts).map fun value => [value]

/-- The value of a word where strings stand in the holes. -/
def wordValueWith (given : Hole → Text) : List (Fragment Hole) → Option Text
  | [] => some []
  | .hole name :: rest => (wordValueWith given rest).map (given name ++ ·)
  | part :: rest => part.value.bind fun text => (wordValueWith given rest).map (text ++ ·)

def fieldsWith (given : Hole → Text) (parts : List (Fragment Hole)) : Option (List Text) :=
  (wordValueWith given parts).map fun value => [value]

/-! What the grammar sees of a token. -/

def reservedWords : List Text :=
  ["!", "\x7b", "\x7d", "case", "do", "done", "elif", "else", "esac", "fi", "for", "if", "in", "then", "until",
    "while"].map String.toList

inductive Kind where
  | operator (text : Text)
  | ioNumber
  | reserved (text : Text)
  | assignment (name : Text)
  | word
  deriving DecidableEq

def isName : Text → Bool
  | [] => false
  | c :: rest => (c.isAlpha || c == '_') && rest.all fun c => c.isAlphanum || c == '_'

/-- The characters a word begins with before anything quoted. -/
def plainFront : List (Fragment Hole) → Text
  | .plain c :: rest => c :: plainFront rest
  | _ => []

def assigned (front : Text) : Option Text :=
  let name := front.takeWhile (· ≠ '=')
  if name.length < front.length && isName name then some name else none

def Token.kind : Token Hole → Kind
  | .operator text => .operator text
  | .ioNumber _ => .ioNumber
  | .word parts =>
    match (plainText parts).filter reservedWords.contains with
    | some text => .reserved text
    | none =>
      match assigned (plainFront parts) with
      | some name => .assignment name
      | none => .word

/-! Texts with holes. -/

inductive Piece (Hole : Type) where
  | text (text : Text)
  | hole (name : Hole)

def Piece.step (l : Lexer Hole) : Piece Hole → Option (Lexer Hole)
  | .text chars => l.run chars
  | .hole name => if l.mode = .unquoted && !l.afterDollar then some (l.add (.hole name)) else none

/-- The tokens of a text with holes; a hole must not be inside quotes. -/
def lexPieces (pieces : List (Piece Hole)) : Option (List (Token Hole)) := (pieces.foldlM Piece.step start).bind finish

def Piece.render (given : Hole → Text) : Piece Hole → Text
  | .text chars => chars
  | .hole name => given name

def render (given : Hole → Text) (pieces : List (Piece Hole)) : Text := pieces.flatMap (Piece.render given)

/-! What is put into a hole: pieces of a word that are all quoted. -/

variable {Other : Type}

/-- Quoted pieces, at least one of them. -/
structure Quoted (parts : List (Fragment Other)) : Prop where
  nonempty : parts ≠ []
  quoted : ∀ part ∈ parts, part.plainChar = none

def Fragment.fill (given : Hole → List (Fragment Other)) : Fragment Hole → List (Fragment Other)
  | .plain c => [.plain c]
  | .escaped c => [.escaped c]
  | .single text => [.single text]
  | .double text => [.double text]
  | .hole name => given name

def fillWord (given : Hole → List (Fragment Other)) (parts : List (Fragment Hole)) : List (Fragment Other) :=
  parts.flatMap (Fragment.fill given)

def Token.fill (given : Hole → List (Fragment Other)) : Token Hole → Token Other
  | .word parts => .word (fillWord given parts)
  | .ioNumber digits => .ioNumber digits
  | .operator text => .operator text

def Lexer.fill (given : Hole → List (Fragment Other)) (l : Lexer Hole) : Lexer Other :=
  ⟨l.tokens.map (Token.fill given), l.word.map (fillWord given), l.mode⟩

section Fill

variable {given : Hole → List (Fragment Other)}

theorem fillWord_append (front back : List (Fragment Hole)) :
    fillWord given (front ++ back) = fillWord given front ++ fillWord given back :=
  List.flatMap_append

theorem Quoted.plainText_none {parts : List (Fragment Other)} (quoted : Quoted parts) (rest : List (Fragment Other)) :
    plainText (parts ++ rest) = none := by
  obtain ⟨part, more, rfl⟩ := List.exists_cons_of_ne_nil quoted.nonempty
  have first := quoted.quoted part List.mem_cons_self
  simp [plainText, first]

theorem plainText_fill (quoted : ∀ name, Quoted (given name)) (parts : List (Fragment Hole)) :
    plainText (fillWord given parts) = plainText parts := by
  induction parts with
  | nil => rfl
  | cons part rest ih =>
    change plainText (part.fill given ++ fillWord given rest) = _
    cases part with
    | hole name =>
      change plainText (given name ++ fillWord given rest) = none
      exact (quoted name).plainText_none _
    | plain c =>
      have step : ∀ {H : Type} (parts : List (Fragment H)),
          plainText (.plain c :: parts) = (plainText parts).map (c :: ·) := by
        intro H parts
        unfold plainText
        rw [List.mapM_cons]
        cases parts.mapM Fragment.plainChar <;> rfl
      change plainText (.plain c :: fillWord given rest) = _
      rw [step, step, ih]
    | _ => rfl

theorem plainFront_fill (quoted : ∀ name, Quoted (given name)) (parts : List (Fragment Hole)) :
    plainFront (fillWord given parts) = plainFront parts := by
  induction parts with
  | nil => rfl
  | cons part rest ih =>
    change plainFront (part.fill given ++ fillWord given rest) = _
    cases part with
    | plain c => exact congrArg (c :: ·) ih
    | hole name =>
      obtain ⟨part, more, same⟩ := List.exists_cons_of_ne_nil (quoted name).nonempty
      have first := (quoted name).quoted part (same ▸ List.mem_cons_self)
      change plainFront (given name ++ fillWord given rest) = []
      rw [same]
      cases part with
      | plain c => cases first
      | _ => rfl
    | _ => rfl

/-- The kind of a token does not depend on what its holes are filled with. -/
theorem kind_fill (quoted : ∀ name, Quoted (given name)) (token : Token Hole) :
    (token.fill given).kind = token.kind := by
  cases token with
  | word parts =>
    unfold Token.fill Token.kind
    simp only [plainText_fill quoted, plainFront_fill quoted]
  | _ => rfl

theorem last_fill (quoted : ∀ name, Quoted (given name)) (parts : List (Fragment Hole)) :
    (fillWord given parts).getLast?.bind Fragment.plainChar = parts.getLast?.bind Fragment.plainChar := by
  rcases List.eq_nil_or_concat parts with rfl | ⟨front, part, rfl⟩
  · rfl
  · rw [List.concat_eq_append, fillWord_append, List.getLast?_append, List.getLast?_append]
    cases part with
    | hole name =>
      have some := List.getLast?_eq_some_getLast (quoted name).nonempty
      have plain := (quoted name).quoted _ (List.getLast_mem (quoted name).nonempty)
      change ((given name ++ []).getLast?.or _).bind _ = none
      rw [List.append_nil, some]
      exact plain
    | _ => rfl

theorem afterDollar_fill (quoted : ∀ name, Quoted (given name)) (l : Lexer Hole) :
    (l.fill given).afterDollar = l.afterDollar := by
  unfold Lexer.afterDollar Lexer.fill
  cases word : l.word with
  | none => rfl
  | some parts =>
    change ((fillWord given parts).getLast?.bind Fragment.plainChar == some '$') = _
    rw [last_fill quoted]
    rfl

theorem wordValue_append (front back : List (Fragment Hole)) :
    wordValue (front ++ back) = (wordValue front).bind fun first => (wordValue back).map (first ++ ·) := by
  unfold wordValue
  rw [List.mapM_append]
  cases front.mapM Fragment.value with
  | none => rfl
  | some first =>
    cases back.mapM Fragment.value with
    | none => rfl
    | some second => exact congrArg some List.flatten_append

theorem wordValue_single (part : Fragment Hole) : wordValue [part] = part.value := by
  unfold wordValue
  rw [List.mapM_cons]
  cases part.value with
  | none => rfl
  | some text => exact congrArg some (List.append_nil text)

/-- Where the holes are filled with words of given values, the values stand in the value of the whole word. -/
theorem fields_fill {strings : Hole → Text} (exact : ∀ name, fields (given name) = some [strings name])
    (parts : List (Fragment Hole)) : fields (fillWord given parts) = fieldsWith strings parts := by
  apply congrArg (Option.map fun value => [value])
  induction parts with
  | nil => rfl
  | cons part rest ih =>
    change wordValue (part.fill given ++ fillWord given rest) = _
    rw [wordValue_append, ih]
    cases part with
    | hole name =>
      obtain ⟨value, found, same⟩ := Option.map_eq_some_iff.mp (exact name)
      change (wordValue (given name)).bind _ = _
      rw [found, List.singleton_inj.mp same]
      rfl
    | _ =>
      unfold Fragment.fill
      rw [wordValue_single]
      rfl

theorem delimit_fill (l : Lexer Hole) : (l.fill given).delimit = l.delimit.fill given := by
  obtain ⟨tokens, word, mode⟩ := l
  cases word with
  | none => rfl
  | some parts =>
    unfold Lexer.fill Lexer.delimit
    simp [Token.fill]

theorem ioDigits_fill (quoted : ∀ name, Quoted (given name)) (c : Char) (parts : List (Fragment Hole)) :
    ioDigits c (fillWord given parts) = ioDigits c parts := by
  unfold ioDigits
  rw [plainText_fill quoted]

theorem delimitAt_fill (quoted : ∀ name, Quoted (given name)) (c : Char) (l : Lexer Hole) :
    (l.fill given).delimitAt c = (l.delimitAt c).fill given := by
  have same : (l.fill given).word.bind (ioDigits c) = l.word.bind (ioDigits c) := by
    unfold Lexer.fill
    cases l.word with
    | none => rfl
    | some parts => exact ioDigits_fill quoted c parts
  unfold Lexer.delimitAt
  rw [same]
  cases l.word.bind (ioDigits c) with
  | none => exact delimit_fill l
  | some digits =>
    unfold Lexer.fill
    simp [Token.fill]

theorem begin_fill (mode : Mode) (l : Lexer Hole) : (l.fill given).begin mode = (l.begin mode).fill given := by
  unfold Lexer.fill Lexer.begin
  cases l.word <;> rfl

/-- Adding a piece that is no hole. -/
theorem add_fill (part : Fragment Hole) {filled : Fragment Other} (same : part.fill given = [filled]) (l : Lexer Hole) :
    (l.fill given).add filled = (l.add part).fill given := by
  unfold Lexer.fill Lexer.add
  cases l.word with
  | none => simp [fillWord, same]
  | some parts =>
    simp only [Option.map_some, Option.getD_some, fillWord_append]
    simp [fillWord, same]

theorem unquoted_fill (quoted : ∀ name, Quoted (given name)) (l : Lexer Hole) (c : Char) :
    (l.fill given).unquoted c = (l.unquoted c).map (Lexer.fill given) := by
  have isNone : (l.fill given).word.isNone = l.word.isNone := by
    unfold Lexer.fill
    exact Option.isNone_map
  unfold Lexer.unquoted
  rw [afterDollar_fill quoted, begin_fill, begin_fill, delimitAt_fill quoted, delimit_fill, isNone,
    add_fill (.plain c) rfl]
  repeat' split
  all_goals rfl

theorem closeOperator_fill (l : Lexer Hole) (text : Text) :
    (l.fill given).closeOperator text = (l.closeOperator text).map (Lexer.fill given) := by
  unfold Lexer.closeOperator
  split
  · rfl
  · unfold Lexer.fill
    simp [Token.fill]

/-- What is in the holes has no part in how the text around them is split. -/
theorem step_fill (quoted : ∀ name, Quoted (given name)) (l : Lexer Hole) (c : Char) :
    (l.fill given).step c = (l.step c).map (Lexer.fill given) := by
  obtain ⟨tokens, word, mode⟩ := l
  cases mode with
  | unquoted => exact unquoted_fill quoted _ c
  | escape =>
    have add := @add_fill _ _ given (.escaped c) _ rfl ⟨tokens, word, .escape⟩
    unfold Lexer.step
    change (if c = '\n' then _ else some { ((⟨tokens, word, .escape⟩ : Lexer Hole).fill given).add (.escaped c) with
      mode := .unquoted }) = _
    rw [add]
    split <;> rfl
  | single text =>
    have add := @add_fill _ _ given (.single text) _ rfl ⟨tokens, word, .single text⟩
    unfold Lexer.step
    change (if c = '\'' then some { ((⟨tokens, word, .single text⟩ : Lexer Hole).fill given).add (.single text) with
      mode := .unquoted } else _) = _
    rw [add]
    split <;> rfl
  | double text =>
    change ((⟨tokens, word, .double text⟩ : Lexer Hole).fill given).double text c =
      ((⟨tokens, word, .double text⟩ : Lexer Hole).double text c).map _
    unfold Lexer.double
    rw [add_fill (.double text) rfl]
    repeat' split
    all_goals rfl
  | doubleEscape text => rfl
  | comment =>
    have resume := unquoted_fill quoted ⟨tokens, word, .unquoted⟩ c
    unfold Lexer.step
    change (if c = '\n' then ((⟨tokens, word, .unquoted⟩ : Lexer Hole).fill given).unquoted c else _) = _
    rw [resume]
    split <;> rfl
  | operator text =>
    change ((⟨tokens, word, .operator text⟩ : Lexer Hole).fill given).operator text c =
      ((⟨tokens, word, .operator text⟩ : Lexer Hole).operator text c).map _
    unfold Lexer.operator
    rw [closeOperator_fill]
    split
    · rfl
    · cases (⟨tokens, word, .operator text⟩ : Lexer Hole).closeOperator text with
      | none => rfl
      | some closed => exact unquoted_fill quoted closed c

theorem run_fill (quoted : ∀ name, Quoted (given name)) (text : Text) (l : Lexer Hole) :
    (l.fill given).run text = (l.run text).map (Lexer.fill given) := by
  induction text generalizing l with
  | nil => rfl
  | cons c rest ih =>
    change ((l.fill given).step c).bind (fun l => l.run rest) = ((l.step c).bind fun l => l.run rest).map _
    rw [step_fill quoted]
    cases l.step c with
    | none => rfl
    | some next => exact ih next

theorem finish_fill (l : Lexer Hole) : (l.fill given).finish = l.finish.map (List.map (Token.fill given)) := by
  obtain ⟨tokens, word, mode⟩ := l
  cases mode with
  | unquoted => exact congrArg some (congrArg Lexer.tokens (delimit_fill ⟨tokens, word, .unquoted⟩))
  | operator text =>
    change (((⟨tokens, word, .operator text⟩ : Lexer Hole).fill given).closeOperator text).map _ =
      (((⟨tokens, word, .operator text⟩ : Lexer Hole).closeOperator text).map _).map _
    rw [closeOperator_fill]
    cases (⟨tokens, word, .operator text⟩ : Lexer Hole).closeOperator text <;> rfl
  | _ => rfl

end Fill

theorem run_append (front back : Text) (l : Lexer Hole) :
    l.run (front ++ back) = (l.run front).bind fun l => l.run back :=
  List.foldlM_append

/-- Several pieces added to the word that is being read. -/
def Lexer.addAll (parts : List (Fragment Hole)) (l : Lexer Hole) : Lexer Hole :=
  { l with word := some (l.word.getD [] ++ parts) }

/-- A text that is read as quoted pieces wherever a word may go on. -/
structure Reads (text : Text) (parts : List (Fragment Other)) : Prop where
  quoted : Quoted parts
  run : ∀ l : Lexer Other, l.mode = .unquoted → l.afterDollar = false → l.run text = some (l.addAll parts)

section Render

variable {given : Hole → List (Fragment Other)} {texts : Hole → Text}

theorem run_piece (reads : ∀ name, Reads (texts name) (given name)) (l : Lexer Hole) (piece : Piece Hole)
    {next : Lexer Hole} (taken : piece.step l = some next) :
    (l.fill given).run (piece.render texts) = some (next.fill given) := by
  have quoted := fun name => (reads name).quoted
  cases piece with
  | text chars =>
    change (l.fill given).run chars = _
    change l.run chars = _ at taken
    rw [run_fill quoted, taken]
    rfl
  | hole name =>
    change (if l.mode = .unquoted && !l.afterDollar then some (l.add (.hole name)) else none) = some next at taken
    split at taken
    next ready =>
      obtain ⟨mode, dollar⟩ := Bool.and_eq_true_iff.mp ready
      cases taken
      have free : (l.fill given).afterDollar = false := (afterDollar_fill quoted l).trans (by simpa using dollar)
      have run := (reads name).run (l.fill given) (of_decide_eq_true mode) free
      change (l.fill given).run (texts name) = _
      rw [run]
      unfold Lexer.addAll Lexer.fill Lexer.add
      cases l.word with
      | none => simp [fillWord, Fragment.fill]
      | some parts =>
        simp only [Option.map_some, Option.getD_some, fillWord_append]
        simp [fillWord, Fragment.fill]
    next => cases taken

theorem run_pieces (reads : ∀ name, Reads (texts name) (given name)) (pieces : List (Piece Hole)) (l : Lexer Hole)
    {last : Lexer Hole} (taken : pieces.foldlM Piece.step l = some last) :
    (l.fill given).run (render texts pieces) = some (last.fill given) := by
  induction pieces generalizing l with
  | nil =>
    cases taken
    rfl
  | cons piece rest ih =>
    obtain ⟨next, first, rest_taken⟩ := Option.bind_eq_some_iff.mp taken
    change (l.fill given).run (piece.render texts ++ render texts rest) = _
    rw [run_append, run_piece reads l piece first]
    exact ih next rest_taken

/-- A text with holes has the same tokens whatever is put into the holes, up to what stands in the place of a hole. -/
theorem lex_render (reads : ∀ name, Reads (texts name) (given name)) {pieces : List (Piece Hole)}
    {tokens : List (Token Hole)} (lexed : lexPieces pieces = some tokens) :
    lex (render texts pieces) = some (tokens.map (Token.fill given)) := by
  obtain ⟨last, taken, finished⟩ := Option.bind_eq_some_iff.mp lexed
  have run : start.run (render texts pieces) = some (last.fill given) := run_pieces reads pieces start taken
  unfold lex
  rw [run]
  change (last.fill given).finish = _
  rw [finish_fill, finished]
  rfl

end Render

end Pbox.Lib.PosixShell
