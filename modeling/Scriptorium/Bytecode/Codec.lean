import Scriptorium.Artifact
import Scriptorium.Json.Reader
import Scriptorium.Json.Record

/-!
# Payloads

How what a build makes is kept in artifacts: as JSON documents. A number is kept as its shortest
numeral, and one that is infinite or none as null, which is no number when it is read. Lines are left
out when there are none.
-/
namespace Scriptorium.Bytecode

open Json (Tree)
open Decimal (Binary64 Layout)

/-- The document of a number. -/
def numberTree (x : Float) : Tree :=
  match Binary64.parts? x with
  | some parts => .number (Layout.stored.numeral parts)
  | none => .null

/-- The document of a value: null, or an object with the type of the value as its one name. -/
def valueTree : Value → Tree
  | .number x => .ofMembers [("Number", numberTree x)]
  | .text s => .ofMembers [("String", .ofText s)]
  | .bool b => .ofMembers [("Bool", .bool b)]
  | .null => .ofText "Null"

/-- The document of a chunk. -/
def Chunk.tree (chunk : Chunk) : Tree :=
  let code : Tree := .array (chunk.code.toList.map fun byte => .ofNat byte.toNat)
  let constants : Tree := .array (chunk.constants.toList.map valueTree)
  let lines : List (String × Tree) :=
    if chunk.lines.isEmpty then [] else [("lines", .array (chunk.lines.toList.map Tree.ofNat))]
  .ofMembers ([("code", code), ("constants", constants)] ++ lines)

/-- The document of a function. -/
def Function.tree (function : Function) : Tree :=
  .ofMembers [("name", .ofText function.name), ("arity", .ofNat function.arity),
    ("chunk", function.chunk.tree)]

/-- The document of a unit. -/
def CompiledUnit.tree (compiled : CompiledUnit) : Tree :=
  .ofMembers [("source", .ofText compiled.source), ("body", compiled.body.tree),
    ("functions", .array (compiled.functions.map Function.tree))]

/-- The document of an entry point. -/
def EntryPoint.tree (entry : EntryPoint) : Tree :=
  .ofMembers [("group", .ofText entry.group), ("debug", .bool entry.debug),
    ("units", .array (entry.units.map Tree.ofText))]

/-- The payload of a unit. -/
def CompiledUnit.payload (compiled : CompiledUnit) : String := compiled.tree.write

/-- The payload of an entry point. -/
def EntryPoint.payload (entry : EntryPoint) : String := entry.tree.write

/-- The payload of the initial values of globals. -/
def initialsPayload (initials : List CompiledUnit) : String :=
  (Tree.array (initials.map CompiledUnit.tree)).write

/-- The value of a document. -/
def value? (t : Tree) : Option Value :=
  match t with
  | .object [(raw, content)] => do
    match ← Json.unescape? [] raw with
    | "Number" => return .number (← content.double?)
    | "String" => return .text (← content.text?)
    | "Bool" => return .bool (← content.bool?)
    | "Null" =>
      match content with
      | .null => return .null
      | _ => none
    | _ => none
  | _ => if t.text? = some "Null" then some .null else none

/-- The byte of a document. -/
def byte? (t : Tree) : Option UInt8 := (t.nat? 255).map UInt8.ofNat

/-- The size or line of a document. -/
def size? (t : Tree) : Option Nat := t.nat? Json.maxInteger

/-- The chunk of a document. -/
def chunk? (t : Tree) : Option Chunk := do
  match ← t.record? ["code", "constants", "lines"] with
  | [some code, some constants, lines] =>
    let lines ← match lines with
      | some lines => lines.list? size?
      | none => some []
    return ⟨(← code.list? byte?).toArray, (← constants.list? value?).toArray, lines.toArray⟩
  | _ => none

/-- The function of a document. -/
def function? (t : Tree) : Option Function := do
  match ← t.record? ["name", "arity", "chunk"] with
  | [some name, some arity, some chunk] => return ⟨← name.text?, ← size? arity, ← chunk? chunk⟩
  | _ => none

/-- The unit of a document. -/
def unit? (t : Tree) : Option CompiledUnit := do
  match ← t.record? ["source", "body", "functions"] with
  | [some source, some body, some functions] =>
    return ⟨← source.text?, ← chunk? body, ← functions.list? function?⟩
  | _ => none

/-- The entry point of a document. -/
def entry? (t : Tree) : Option EntryPoint := do
  match ← t.record? ["group", "debug", "units"] with
  | [some group, some debug, some units] =>
    return ⟨← group.text?, ← debug.bool?, ← units.list? Tree.text?⟩
  | _ => none

/-- The unit of a payload. -/
def CompiledUnit.ofPayload? (payload : String) : Option CompiledUnit := (Json.read? payload).bind unit?

/-- The entry point of a payload. -/
def EntryPoint.ofPayload? (payload : String) : Option EntryPoint := (Json.read? payload).bind entry?

/-- The initial values of globals of a payload. -/
def initials? (payload : String) : Option (List CompiledUnit) :=
  (Json.read? payload).bind (·.list? unit?)

end Scriptorium.Bytecode
