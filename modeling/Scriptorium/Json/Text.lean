/-!
# Texts in JSON

Writing and reading the texts of JSON. A text stands between quotes; quotes, backslashes and the
controls below U+0020 are written by escapes, and every other character stands for itself. A reader
also knows the other escapes, of which a pair of surrogates is one character.
-/
namespace Scriptorium.Json

/-- Four hexadecimal digits. -/
def hexQuad (n : Nat) : List Char :=
  [n / 4096 % 16, n / 256 % 16, n / 16 % 16, n % 16].map Nat.digitChar

/-- How a character is written. -/
def escape (c : Char) : List Char :=
  match c with
  | '"' => ['\\', '"']
  | '\\' => ['\\', '\\']
  | '\x08' => ['\\', 'b']
  | '\x0c' => ['\\', 'f']
  | '\n' => ['\\', 'n']
  | '\r' => ['\\', 'r']
  | '\t' => ['\\', 't']
  | c => if c.toNat < 0x20 then '\\' :: 'u' :: hexQuad c.toNat else [c]

/-- A text as it is written between quotes. -/
def escapeAll (s : String) : List Char := s.toList.flatMap escape

/-- A text in quotes. -/
def quote (s : String) : String := String.ofList ('"' :: escapeAll s ++ ['"'])

/-- The characters that stand for others after a backslash. -/
def ofMark? : Char → Option Char
  | '"' => some '"'
  | '\\' => some '\\'
  | '/' => some '/'
  | 'b' => some '\x08'
  | 'f' => some '\x0c'
  | 'n' => some '\n'
  | 'r' => some '\r'
  | 't' => some '\t'
  | _ => none

/-- The value of a hexadecimal digit. -/
def hexValue? (c : Char) : Option Nat :=
  if c.isDigit then some (c.toNat - '0'.toNat)
  else if 'a' ≤ c ∧ c ≤ 'f' then some (c.toNat - 'a'.toNat + 10)
  else if 'A' ≤ c ∧ c ≤ 'F' then some (c.toNat - 'A'.toNat + 10)
  else none

/-- The value of four hexadecimal digits. -/
def ofQuad? (a b c d : Char) : Option Nat := do
  return (((← hexValue? a) * 16 + (← hexValue? b)) * 16 + (← hexValue? c)) * 16 + (← hexValue? d)

/-- Splits a text at the quote that ends it: the text as it is written, and what follows the quote. Fails
where an escape is none, where a control stands for itself, and where no quote follows. `done` holds
the characters before, last first. -/
def raw? (done : List Char) : List Char → Option (List Char × List Char)
  | [] => none
  | '"' :: rest => some (done.reverse, rest)
  | '\\' :: 'u' :: a :: b :: c :: d :: rest =>
    match ofQuad? a b c d with
    | some _ => raw? (d :: c :: b :: a :: 'u' :: '\\' :: done) rest
    | none => none
  | '\\' :: mark :: rest =>
    match ofMark? mark with
    | some _ => raw? (mark :: '\\' :: done) rest
    | none => none
  | c :: rest => if c.toNat < 0x20 then none else raw? (c :: done) rest

/-- Whether a number is the first half of a pair of surrogates. -/
def isFirstHalf (n : Nat) : Bool := 0xD800 ≤ n && n < 0xDC00

/-- Whether a number is the second half of a pair of surrogates. -/
def isSecondHalf (n : Nat) : Bool := 0xDC00 ≤ n && n < 0xE000

/-- The character of a pair of surrogates. -/
def ofHalves (first second : Nat) : Char :=
  Char.ofNat (0x10000 + (first - 0xD800) * 0x400 + (second - 0xDC00))

/-- The text that a written one stands for, unless half of a pair of surrogates stands alone in it.
`done` holds the characters before, last first. -/
def unescape? (done : List Char) : List Char → Option String
  | [] => some (String.ofList done.reverse)
  | '\\' :: 'u' :: a :: b :: c :: d :: rest =>
    match ofQuad? a b c d with
    | none => none
    | some first =>
      if isSecondHalf first then none
      else if isFirstHalf first then
        match rest with
        | '\\' :: 'u' :: a :: b :: c :: d :: rest =>
          match ofQuad? a b c d with
          | some second =>
            if isSecondHalf second then unescape? (ofHalves first second :: done) rest else none
          | none => none
        | _ => none
      else unescape? (Char.ofNat first :: done) rest
  | '\\' :: mark :: rest =>
    match ofMark? mark with
    | some c => unescape? (c :: done) rest
    | none => none
  | c :: rest => unescape? (c :: done) rest

end Scriptorium.Json
