import Scriptorium.Json.Tree

/-!
# Reading JSON

The document that a text is. Spaces, tabs and line ends may stand between the parts of a document and
around it; nothing else may follow it.
-/
namespace Scriptorium.Json

/-- Whether a character may stand between the parts of a document. -/
def isSpace (c : Char) : Bool := c == ' ' || c == '\n' || c == '\t' || c == '\r'

/-- A text without the spaces in front. -/
def skipSpaces (s : List Char) : List Char := s.dropWhile isSpace

/-- Reads the name of a member and the colon after it. -/
def readName (s : List Char) : Option (List Char × List Char) :=
  match skipSpaces s with
  | '"' :: rest =>
    match raw? [] rest with
    | some (name, rest) =>
      match skipSpaces rest with
      | ':' :: rest => some (name, rest)
      | _ => none
    | none => none
  | _ => none

mutual

/-- Reads the document that a text begins with, and gives the rest of the text. -/
def readTree (fuel : Nat) (s : List Char) : Option (Tree × List Char) :=
  match fuel with
  | 0 => none
  | fuel + 1 =>
    match skipSpaces s with
    | 'n' :: 'u' :: 'l' :: 'l' :: rest => some (.null, rest)
    | 't' :: 'r' :: 'u' :: 'e' :: rest => some (.bool true, rest)
    | 'f' :: 'a' :: 'l' :: 's' :: 'e' :: rest => some (.bool false, rest)
    | '"' :: rest => (raw? [] rest).map fun (raw, rest) => (.text raw, rest)
    | '[' :: rest =>
      match skipSpaces rest with
      | ']' :: rest => some (.array [], rest)
      | rest => readItems fuel [] rest
    | '\x7b' :: rest =>
      match skipSpaces rest with
      | '\x7d' :: rest => some (.object [], rest)
      | rest => readMembers fuel [] rest
    | rest => (Decimal.Numeral.read? rest).map fun (n, rest) => (.number n, rest)

/-- Reads the items of an array up to its end; `done` holds those before, last first. -/
def readItems (fuel : Nat) (done : List Tree) (s : List Char) : Option (Tree × List Char) :=
  match fuel with
  | 0 => none
  | fuel + 1 =>
    match readTree fuel s with
    | none => none
    | some (item, rest) =>
      match skipSpaces rest with
      | ',' :: rest => readItems fuel (item :: done) rest
      | ']' :: rest => some (.array (item :: done).reverse, rest)
      | _ => none

/-- Reads the members of an object up to its end; `done` holds those before, last first. -/
def readMembers (fuel : Nat) (done : List (List Char × Tree)) (s : List Char) :
    Option (Tree × List Char) :=
  match fuel with
  | 0 => none
  | fuel + 1 =>
    match readName s with
    | none => none
    | some (name, rest) =>
      match readTree fuel rest with
      | none => none
      | some (value, rest) =>
        match skipSpaces rest with
        | ',' :: rest => readMembers fuel ((name, value) :: done) rest
        | '\x7d' :: rest => some (.object ((name, value) :: done).reverse, rest)
        | _ => none

end

/-- The document that a text is. No part of it takes more than two steps for each character. -/
def read? (s : String) : Option Tree :=
  let chars := s.toList
  match readTree (2 * chars.length + 2) chars with
  | some (t, rest) => if (skipSpaces rest).isEmpty then some t else none
  | none => none

end Scriptorium.Json
