import Scriptorium.Decimal.Numeral
import Scriptorium.Script.Token
import Scriptorium.Text.Blank

/-!
# Reading tokens

`Cursor.next` skips blanks and comments and reads one token. It always moves on unless the source is
at its end (`Cursor.next_shorter`), so that reading ends: `Cursor.readings` goes on after a fault,
and `TokenStream.ofSource` stops at the first one.
-/
namespace Scriptorium.Script

open Text (isBlank isWordChar)

/-- What makes a text no token. -/
inductive LexCause
  | unterminatedText
  | unterminatedComment
  | unexpected (c : Char)
deriving DecidableEq, Repr

/-- The wording of a cause. -/
def LexCause.message : LexCause → String
  | unterminatedText => "Unterminated string"
  | unterminatedComment => "Unterminated block comment"
  | unexpected c => s!"Unexpected character: {c}"

/-- A fault in the source and its line; for an open text or comment, the line where it starts. -/
structure LexFault where
  line : Nat
  cause : LexCause
deriving DecidableEq, Repr

/-- A place in the source: what is left of it, and the number of the current line. -/
structure Cursor where
  line : Nat
  rest : List Char
deriving DecidableEq, Repr

/-- What one reading gives: a token, the end of the source with its line, or a fault. -/
inductive Reading
  | token (lexeme : Lexeme)
  | finish (line : Nat)
  | fault (fault : LexFault)
deriving Repr, DecidableEq

/-- What is being skipped before a token. In a block comment, `starred` says that its last character
was a star. -/
inductive Trivia
  | blanks
  | lineComment
  | blockComment (start : Nat) (starred : Bool)
deriving DecidableEq, Repr

/-- The fault of a source that ends here. -/
def Trivia.faultAtEnd : Trivia → Option LexFault
  | .blanks | .lineComment => none
  | .blockComment start _ => some ⟨start, .unterminatedComment⟩

/-- Skips blanks and comments. A line comment ends with its line, and a block comment that does not
end is a fault. -/
def skipTrivia (s : List Char) (mode : Trivia) (line : Nat) : Option LexFault × Cursor :=
  match s with
  | [] => (mode.faultAtEnd, ⟨line, []⟩)
  | c :: rest =>
    match mode with
    | .blanks =>
      if c = '\n' then skipTrivia rest .blanks (line + 1)
      else if isBlank c then skipTrivia rest .blanks line
      else if c = '#' then skipTrivia rest .lineComment line
      else if c = '/' then
        match rest with
        | [] => (none, ⟨line, [c]⟩)
        | d :: rest' =>
          if d = '/' then skipTrivia rest' .lineComment line
          else if d = '*' then skipTrivia rest' (.blockComment line false) line
          else (none, ⟨line, c :: d :: rest'⟩)
      else (none, ⟨line, c :: rest⟩)
    | .lineComment =>
      if c = '\n' then skipTrivia rest .blanks (line + 1) else skipTrivia rest .lineComment line
    | .blockComment start starred =>
      if starred && c == '/' then skipTrivia rest .blanks line
      else skipTrivia rest (.blockComment start (c == '*')) (if c = '\n' then line + 1 else line)
termination_by s.length

/-- The character that a backslash and a character stand for. -/
def unescape : Char → Char
  | 'n' => '\n'
  | 't' => '\t'
  | 'r' => '\r'
  | c => c

/-- Reads a text up to its closing quote; `done` holds what was read so far, last first. Only a line
feed that stands for itself begins a new line. -/
def readText (quote : Char) (s : List Char) (done : List Char) (line : Nat) : Option String × Cursor :=
  match s with
  | [] => (none, ⟨line, []⟩)
  | c :: rest =>
    if c = quote then (some (String.ofList done.reverse), ⟨line, rest⟩)
    else if c = '\\' then
      match rest with
      | [] => (none, ⟨line, []⟩)
      | d :: rest' => readText quote rest' (unescape d :: done) line
    else readText quote rest (c :: done) (if c = '\n' then line + 1 else line)
termination_by s.length

/-- Reads the digits of a number: `whole`, or `whole.fraction` when a digit follows the point. -/
def readNumber (s : List Char) : Float × List Char :=
  let whole := s.takeWhile Char.isDigit
  match s.dropWhile Char.isDigit with
  | '.' :: d :: rest =>
    if d.isDigit then
      let fraction := (d :: rest).takeWhile Char.isDigit
      (Decimal.ofParts whole fraction, (d :: rest).dropWhile Char.isDigit)
    else (Decimal.ofParts whole [], '.' :: d :: rest)
  | rest => (Decimal.ofParts whole [], rest)

/-- The token that a word is: a keyword or a name. -/
def wordToken (word : List Char) : Token :=
  let spelling := String.ofList word
  match Keyword.ofSpelling? spelling with
  | some keyword => .keyword keyword
  | none => .name spelling

/-- Reads one token from a source that begins with neither a blank nor a comment. -/
def readToken (line : Nat) : List Char → Reading × Cursor
  | [] => (.finish line, ⟨line, []⟩)
  | c :: rest =>
    if c.isDigit then
      let (value, rest') := readNumber (c :: rest)
      (.token ⟨.number value, line⟩, ⟨line, rest'⟩)
    else if c.isAlpha || c == '_' then
      let word := c :: rest.takeWhile isWordChar
      (.token ⟨wordToken word, line⟩, ⟨line, rest.dropWhile isWordChar⟩)
    else if c = '"' ∨ c = '\'' then
      match readText c rest [] line with
      | (some value, cursor) => (.token ⟨.text value, line⟩, cursor)
      | (none, cursor) => (.fault ⟨line, .unterminatedText⟩, cursor)
    else
      match Symbol.read? (c :: rest) with
      | some (symbol, rest') => (.token ⟨.symbol symbol, line⟩, ⟨line, rest'⟩)
      | none => (.fault ⟨line, .unexpected c⟩, ⟨line, rest⟩)

namespace Cursor

/-- The beginning of a source. -/
def start (source : String) : Cursor := ⟨1, source.toList⟩

/-- Reads the next token. -/
def next (cursor : Cursor) : Reading × Cursor :=
  match skipTrivia cursor.rest .blanks cursor.line with
  | (some fault, after) => (.fault fault, after)
  | (none, after) => readToken after.line after.rest

end Cursor

private theorem length_dropWhile_le (p : Char → Bool) (s : List Char) :
    (s.dropWhile p).length ≤ s.length :=
  (List.dropWhile_sublist p).length_le

/-- Skipping adds nothing to the source, and a comment that does not end leaves nothing of it. -/
theorem skipTrivia_length (s : List Char) (mode : Trivia) (line : Nat) :
    (skipTrivia s mode line).2.rest.length ≤ s.length ∧
      ((skipTrivia s mode line).1.isSome → (skipTrivia s mode line).2.rest = []) := by
  fun_induction skipTrivia s mode line <;> simp_all <;> omega

private theorem readText_length (quote : Char) (s done : List Char) (line : Nat) :
    (readText quote s done line).2.rest.length ≤ s.length := by
  fun_induction readText quote s done line <;> simp_all <;> omega

theorem readNumber_shorter {c : Char} (rest : List Char) (h : c.isDigit = true) :
    (readNumber (c :: rest)).2.length ≤ rest.length := by
  have drop : (c :: rest).dropWhile Char.isDigit = rest.dropWhile Char.isDigit := by simp [h]
  have le := length_dropWhile_le Char.isDigit rest
  unfold readNumber
  simp only [drop]
  split
  · rename_i d rest' heq
    rw [heq] at le
    split
    · exact Nat.le_trans (length_dropWhile_le Char.isDigit _) (by simp at le ⊢; omega)
    · exact le
  · exact le

/-- A reading that finds a character takes at least one. -/
theorem readToken_shorter (line : Nat) (c : Char) (rest : List Char) :
    (readToken line (c :: rest)).2.rest.length ≤ rest.length := by
  unfold readToken
  simp only
  split
  · rename_i h
    exact readNumber_shorter rest h
  split
  · exact length_dropWhile_le isWordChar rest
  split
  · have := readText_length c rest [] line
    split <;> simp_all
  · split
    · rename_i h
      have := Symbol.read?_shorter h
      simp at this ⊢
      omega
    · simp

namespace Cursor

/-- A reading that is not the end of the source takes at least one character, faults included. -/
theorem next_shorter (cursor : Cursor) (h : ∀ line, (cursor.next).1 ≠ .finish line) :
    (cursor.next).2.rest.length < cursor.rest.length := by
  have skipped := skipTrivia_length cursor.rest .blanks cursor.line
  have opened : ∀ s : List Char, s = [] → skipTrivia s .blanks cursor.line = (none, ⟨cursor.line, []⟩) := by
    rintro s rfl
    simp [skipTrivia, Trivia.faultAtEnd]
  revert h
  unfold next
  split
  · rename_i fault after heq
    rw [heq] at skipped
    have empty := skipped.2 rfl
    intro _
    simp only at empty ⊢
    rw [empty]
    rcases hs : cursor.rest with _ | ⟨c, rest⟩
    · rw [opened _ hs] at heq
      simp at heq
    · simp
  · rename_i after heq
    rw [heq] at skipped
    intro h
    rcases hs : after.rest with _ | ⟨c, rest⟩
    · simp [hs, readToken] at h
    · have := readToken_shorter after.line c rest
      have := skipped.1
      simp only [hs, List.length_cons] at *
      omega

/-- All readings of a source up to its end, going on after faults. -/
def readings (cursor : Cursor) : List Reading :=
  go [] cursor
where
  /-- `done` holds the readings so far, last first. -/
  go (done : List Reading) (cursor : Cursor) : List Reading :=
    match h : cursor.next with
    | (.finish line, _) => (.finish line :: done).reverse
    | (.token lexeme, after) =>
      have : after.rest.length < cursor.rest.length := by
        simpa [h] using cursor.next_shorter (by simp [h])
      go (.token lexeme :: done) after
    | (.fault fault, after) =>
      have : after.rest.length < cursor.rest.length := by
        simpa [h] using cursor.next_shorter (by simp [h])
      go (.fault fault :: done) after
  termination_by cursor.rest.length

end Cursor

/-- Why the tokens of a source end: it is at its end, on this line, or it is faulty. -/
inductive StreamEnd
  | finish (line : Nat)
  | fault (fault : LexFault)
deriving DecidableEq, Repr

/-- The tokens of a source up to its end or its first fault. -/
structure TokenStream where
  lexemes : List Lexeme
  stop : StreamEnd
deriving DecidableEq, Repr

namespace TokenStream

/-- The tokens from a place on. -/
def ofCursor (cursor : Cursor) : TokenStream :=
  go [] cursor
where
  /-- `done` holds the tokens so far, last first. -/
  go (done : List Lexeme) (cursor : Cursor) : TokenStream :=
    match h : cursor.next with
    | (.finish line, _) => ⟨done.reverse, .finish line⟩
    | (.fault fault, _) => ⟨done.reverse, .fault fault⟩
    | (.token lexeme, after) =>
      have : after.rest.length < cursor.rest.length := by
        simpa [h] using cursor.next_shorter (by simp [h])
      go (lexeme :: done) after
  termination_by cursor.rest.length

/-- The tokens of a source. -/
def ofSource (source : String) : TokenStream := ofCursor (Cursor.start source)

end TokenStream

end Scriptorium.Script
