import Mathlib
import Scriptorium.Bytecode.Codec
import Scriptorium.Proofs.Rereading

/-!
# What payloads hold

A payload reads back as what was written to it, but for its numbers: each is replaced by the one that it reads again
as, and a payload with a number that is infinite or none does not read at all. `reread?` says so for values, chunks,
functions and units; lines and arities have to fit into 64 bits.
-/
namespace Scriptorium

/-- The value that a value is when it has been written and read. -/
def Value.reread? : Value → Option Value
  | number x => (Decimal.reread? x).map number
  | value => some value

theorem Value.reread?_isSome (value : Value) :
    value.reread?.isSome = true ↔ ∀ x, value = .number x → x.isFinite = true := by
  cases value with
  | number x =>
    rw [Value.reread?, Option.isSome_map, Decimal.reread?_isSome]
    constructor
    · rintro finite y same
      cases same
      exact finite
    · intro finite
      exact finite x rfl
  | text | bool | null => simp [Value.reread?]

namespace Bytecode

open Json (Tree maxInteger)
open Decimal (Binary64 Layout)

def Chunk.reread? (chunk : Chunk) : Option Chunk :=
  (chunk.constants.toList.mapM Value.reread?).map fun constants => { chunk with constants := constants.toArray }

def Function.reread? (function : Function) : Option Function :=
  function.chunk.reread?.map fun chunk => { function with chunk }

def CompiledUnit.reread? (compiled : CompiledUnit) : Option CompiledUnit := do
  let body ← compiled.body.reread?
  let functions ← compiled.functions.mapM Function.reread?
  return { compiled with body, functions }

def Chunk.Fits (chunk : Chunk) : Prop := ∀ line ∈ chunk.lines.toList, line ≤ maxInteger

def Function.Fits (function : Function) : Prop := function.arity ≤ maxInteger ∧ function.chunk.Fits

def CompiledUnit.Fits (compiled : CompiledUnit) : Prop :=
  compiled.body.Fits ∧ ∀ function ∈ compiled.functions, function.Fits

private theorem made_ofNat (n : Nat) : (Tree.ofNat n).Made := .number (Decimal.written_ofNat n)

theorem made_array {α : Type} {items : List α} {tree : α → Tree} (made : ∀ item ∈ items, (tree item).Made) :
    (Tree.array (items.map tree)).Made := by
  refine .array ?_
  intro t present
  obtain ⟨item, there, rfl⟩ := List.mem_map.mp present
  exact made item there

private theorem made_ofMembers {members : List (String × Tree)} (made : ∀ member ∈ members, member.2.Made) :
    (Tree.ofMembers members).Made := by
  refine .object ?_ ?_
  · intro pair present
    obtain ⟨member, there, rfl⟩ := List.mem_map.mp present
    exact made member there
  · intro pair present
    obtain ⟨member, -, rfl⟩ := List.mem_map.mp present
    exact ⟨member.1, rfl⟩

private theorem made_numberTree (x : Float) : (numberTree x).Made := by
  unfold numberTree
  cases parts : Binary64.parts? x with
  | none => exact .null
  | some b =>
    have canonical := Decimal.parts?_canonical parts
    exact .number (Decimal.arrange_written Layout.stored b.negative (Decimal.Shortest.ofBinary64_plain _ canonical))

private theorem made_valueTree (value : Value) : (valueTree value).Made := by
  cases value with
  | number x => exact made_ofMembers (by simpa using made_numberTree x)
  | text s => exact made_ofMembers (by simpa using Tree.Made.text s)
  | bool b => exact made_ofMembers (by simpa using Tree.Made.bool b)
  | null => exact .text "Null"

private theorem made_chunk (chunk : Chunk) : chunk.tree.Made := by
  have code : (Tree.array (chunk.code.toList.map fun byte => .ofNat byte.toNat)).Made :=
    made_array fun byte _ => made_ofNat byte.toNat
  have constants : (Tree.array (chunk.constants.toList.map valueTree)).Made :=
    made_array fun value _ => made_valueTree value
  have lines : (Tree.array (chunk.lines.toList.map Tree.ofNat)).Made := made_array fun line _ => made_ofNat line
  unfold Chunk.tree
  refine made_ofMembers ?_
  intro member present
  rcases List.mem_append.mp present with fixed | extra
  · rcases List.mem_cons.mp fixed with rfl | other
    · exact code
    · obtain rfl := List.mem_singleton.mp other
      exact constants
  · split at extra
    · cases extra
    · obtain rfl := List.mem_singleton.mp extra
      exact lines

private theorem made_function (function : Function) : function.tree.Made := by
  refine made_ofMembers ?_
  simp only [List.mem_cons, List.not_mem_nil, or_false, forall_eq_or_imp, forall_eq]
  exact ⟨.text _, made_ofNat _, made_chunk _⟩

theorem made_unit (compiled : CompiledUnit) : compiled.tree.Made := by
  refine made_ofMembers ?_
  simp only [List.mem_cons, List.not_mem_nil, or_false, forall_eq_or_imp, forall_eq]
  exact ⟨.text _, made_chunk _, made_array fun function _ => made_function function⟩

private theorem made_entry (entry : EntryPoint) : entry.tree.Made := by
  refine made_ofMembers ?_
  simp only [List.mem_cons, List.not_mem_nil, or_false, forall_eq_or_imp, forall_eq]
  exact ⟨.text _, .bool _, made_array fun unit _ => .text unit⟩

private theorem nat?_ofNat {limit n : Nat} (fits : n ≤ limit) : (Tree.ofNat n).nat? limit = some n := by
  show Json.toNat? limit (Decimal.Numeral.ofNat n) = some n
  have value : Decimal.ofDigits (Decimal.Numeral.ofNat n).whole = n := Decimal.ofDigits_toDigits n
  have plain : (Decimal.Numeral.ofNat n).negative = false := rfl
  rw [Json.toNat?, value]
  simp [Decimal.Numeral.ofNat, fits]

private theorem text?_ofText (s : String) : (Tree.ofText s).text? = some s := Json.unescape?_escapeAll s

private theorem mapM_map {α β : Type} {f : β → Option α} {g : α → β} {again? : α → Option α} {items : List α}
    (each : ∀ item ∈ items, f (g item) = again? item) : (items.map g).mapM f = items.mapM again? := by
  induction items with
  | nil => rfl
  | cons item items ih =>
    rw [List.map_cons, List.mapM_cons, List.mapM_cons, each item List.mem_cons_self,
      ih fun other present => each other (List.mem_cons_of_mem item present)]

private theorem mapM_same {α β : Type} {f : β → Option α} {g : α → β} {items : List α}
    (each : ∀ item ∈ items, f (g item) = some item) : (items.map g).mapM f = some items := by
  rw [mapM_map each]
  clear each
  induction items with
  | nil => rfl
  | cons item items ih =>
    rw [List.mapM_cons, ih]
    rfl

private theorem record?_ofMembers (names : List String) (members : List (String × Tree)) :
    (Tree.ofMembers members).record? names = names.mapM (Tree.member? members) := by
  rw [Tree.ofMembers, Tree.record?, mapM_same]
  · rfl
  · rintro ⟨name, tree⟩ -
    simp

private theorem value?_valueTree (value : Value) : value? (valueTree value) = value.reread? := by
  cases value with
  | number x =>
    rw [valueTree, Tree.ofMembers, Value.reread?, Decimal.reread?, numberTree]
    cases Binary64.parts? x with
    | none => simp [value?, Tree.double?]
    | some b =>
      simp only [value?, Json.unescape?_escapeAll, Option.bind_some, Tree.double?, List.map_cons, List.map_nil]
      cases Json.toDouble? (Layout.stored.numeral b) <;> rfl
  | text s => simp [valueTree, Tree.ofMembers, value?, text?_ofText, Value.reread?]
  | bool b => simp [valueTree, Tree.ofMembers, value?, Tree.bool?, Value.reread?]
  | null => simp [valueTree, Tree.ofText, value?, Tree.text?, Value.reread?]

private theorem byte?_ofNat (byte : UInt8) : byte? (Tree.ofNat byte.toNat) = some byte := by
  rw [byte?, nat?_ofNat (by have := byte.toNat_lt; omega)]
  simp

private theorem chunk?_tree {chunk : Chunk} (fits : chunk.Fits) : chunk? chunk.tree = chunk.reread? := by
  have code : (Tree.array (chunk.code.toList.map fun byte => .ofNat byte.toNat)).list? byte? = some chunk.code.toList :=
    mapM_same fun byte _ => byte?_ofNat byte
  have constants : (Tree.array (chunk.constants.toList.map valueTree)).list? value? =
      chunk.constants.toList.mapM Value.reread? := mapM_map fun value _ => value?_valueTree value
  have lines : (Tree.array (chunk.lines.toList.map Tree.ofNat)).list? size? = some chunk.lines.toList :=
    mapM_same fun line present => nat?_ofNat (fits line present)
  have found : ∀ code constants lines : Tree,
      ["code", "constants", "lines"].mapM (Tree.member? [("code", code), ("constants", constants), ("lines", lines)]) =
        some [some code, some constants, some lines] := by
    intro code constants lines
    simp [Tree.member?]
  have missing : ∀ code constants : Tree,
      ["code", "constants", "lines"].mapM (Tree.member? [("code", code), ("constants", constants)]) =
        some [some code, some constants, none] := by
    intro code constants
    simp [Tree.member?]
  unfold chunk? Chunk.tree
  simp only [record?_ofMembers]
  by_cases empty : chunk.lines.isEmpty = true
  · rw [if_pos empty, List.append_nil, missing]
    simp only [Option.bind_eq_bind, Option.bind_some, code, constants, Chunk.reread?]
    have none : chunk.lines = #[] := by simpa using empty
    rw [none]
    cases chunk.constants.toList.mapM Value.reread? <;> rfl
  · rw [if_neg empty, List.cons_append, List.singleton_append, found]
    simp only [Option.bind_eq_bind, Option.bind_some, code, constants, lines, Chunk.reread?]
    cases chunk.constants.toList.mapM Value.reread? <;> rfl

private theorem function?_tree {function : Function} (fits : function.Fits) : function? function.tree = function.reread? := by
  have found : ["name", "arity", "chunk"].mapM (Tree.member? [("name", .ofText function.name),
      ("arity", .ofNat function.arity), ("chunk", function.chunk.tree)]) =
        some [some (.ofText function.name), some (.ofNat function.arity), some function.chunk.tree] := by
    simp [Tree.member?]
  have arity : size? (.ofNat function.arity) = some function.arity := nat?_ofNat fits.1
  unfold function? Function.tree
  simp only [record?_ofMembers, found, Option.bind_eq_bind, Option.bind_some, text?_ofText, arity, chunk?_tree fits.2,
    Function.reread?]
  cases function.chunk.reread? <;> rfl

private theorem unit?_tree {compiled : CompiledUnit} (fits : compiled.Fits) : unit? compiled.tree = compiled.reread? := by
  have found : ["source", "body", "functions"].mapM (Tree.member? [("source", .ofText compiled.source),
      ("body", compiled.body.tree), ("functions", .array (compiled.functions.map Function.tree))]) =
        some [some (.ofText compiled.source), some compiled.body.tree, some (.array (compiled.functions.map Function.tree))] := by
    simp [Tree.member?]
  have functions : (Tree.array (compiled.functions.map Function.tree)).list? function? =
      compiled.functions.mapM Function.reread? := mapM_map fun function present => function?_tree (fits.2 function present)
  unfold unit? CompiledUnit.tree
  simp only [record?_ofMembers, found, Option.bind_eq_bind, Option.bind_some, text?_ofText, functions, chunk?_tree fits.1,
    CompiledUnit.reread?]

private theorem entry?_tree (entry : EntryPoint) : entry? entry.tree = some entry := by
  have found : ["group", "debug", "units"].mapM (Tree.member? [("group", .ofText entry.group), ("debug", .bool entry.debug),
      ("units", .array (entry.units.map Tree.ofText))]) =
        some [some (.ofText entry.group), some (.bool entry.debug), some (.array (entry.units.map Tree.ofText))] := by
    simp [Tree.member?]
  have units : (Tree.array (entry.units.map Tree.ofText)).list? Tree.text? = some entry.units :=
    mapM_same fun unit _ => text?_ofText unit
  unfold entry? EntryPoint.tree
  simp only [record?_ofMembers, found, Option.bind_eq_bind, Option.bind_some, text?_ofText, Tree.bool?, units]
  rfl

/-- The payload of a unit reads back as the unit with its numbers read again. -/
theorem ofPayload?_payload {compiled : CompiledUnit} (fits : compiled.Fits) :
    CompiledUnit.ofPayload? compiled.payload = compiled.reread? := by
  rw [CompiledUnit.ofPayload?, CompiledUnit.payload, Tree.read?_write (made_unit compiled)]
  exact unit?_tree fits

theorem initials?_payload {initials : List CompiledUnit} (fits : ∀ compiled ∈ initials, compiled.Fits) :
    initials? (initialsPayload initials) = initials.mapM CompiledUnit.reread? := by
  rw [initials?, initialsPayload, Tree.read?_write (made_array fun compiled _ => made_unit compiled)]
  exact mapM_map fun compiled present => unit?_tree (fits compiled present)

/-- An entry point reads back from its payload. -/
theorem entryPoint_ofPayload?_payload (entry : EntryPoint) : EntryPoint.ofPayload? entry.payload = some entry := by
  rw [EntryPoint.ofPayload?, EntryPoint.payload, Tree.read?_write (made_entry entry)]
  exact entry?_tree entry

end Bytecode

end Scriptorium
