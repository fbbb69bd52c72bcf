import Scriptorium.Decimal.Numeral
import Scriptorium.Json.Text

/-!
# JSON documents

A document as a tree, and how it is written: without any space. Texts and the names of members stay as
they are written between their quotes, so that a reader looks into those alone that it needs.
-/
namespace Scriptorium.Json

open Decimal (Numeral)

/-- A JSON document. -/
inductive Tree
  | null
  | bool (b : Bool)
  | number (n : Numeral)
  | text (raw : List Char)
  | array (items : List Tree)
  | object (members : List (List Char × Tree))
deriving Repr

namespace Tree

/-- The document of a text. -/
def ofText (s : String) : Tree := text (escapeAll s)

/-- The document of a natural number. -/
def ofNat (n : Nat) : Tree := number (Numeral.ofNat n)

/-- The document of members with plain names. -/
def ofMembers (members : List (String × Tree)) : Tree :=
  object (members.map fun (name, tree) => (escapeAll name, tree))

/-- Appends a text in quotes, which is given as it is written between them. -/
def appendRaw (out : String) (raw : List Char) : String :=
  (raw.foldl String.push (out.push '"')).push '"'

mutual

/-- Appends a document to a text. -/
def append (out : String) (t : Tree) : String :=
  match t with
  | null => out ++ "null"
  | bool b => out ++ toString b
  | number n => n.chars.foldl String.push out
  | text raw => appendRaw out raw
  | array items => (appendItems (out.push '[') items).push ']'
  | object members => (appendMembers (out.push '\x7b') members).push '\x7d'
termination_by structural t

/-- Appends documents with commas between them. -/
def appendItems (out : String) (items : List Tree) : String :=
  match items with
  | [] => out
  | [item] => append out item
  | item :: next :: rest => appendItems ((append out item).push ',') (next :: rest)
termination_by structural items

/-- Appends members with commas between them. -/
def appendMembers (out : String) (members : List (List Char × Tree)) : String :=
  match members with
  | [] => out
  | [member] => appendMember out member
  | member :: next :: rest => appendMembers ((appendMember out member).push ',') (next :: rest)
termination_by structural members

/-- Appends a name and its document. -/
def appendMember (out : String) (member : List Char × Tree) : String :=
  match member with
  | (raw, t) => append ((appendRaw out raw).push ':') t
termination_by structural member

end

/-- A document as a text. -/
def write (t : Tree) : String := t.append ""

end Tree

end Scriptorium.Json
