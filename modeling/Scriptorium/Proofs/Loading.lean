import Scriptorium.Proofs.ChunkContents

/-!
# Loading what was compiled

A group that compiles leaves an artifact under every name that its entry point lists, so that loading never misses one.
What it loads is what the group compiled to, with the numbers read again (`load_decodes`): it fails when a number is
infinite or none, and it changes a program when a number does not read again as itself.
-/
namespace Scriptorium

open Bytecode (Chunk CompiledUnit EntryPoint initArtifact mainArtifact)
open Machine (LoadError Program linkFunctions)
open Script (BracketHandler Environment Input ParsedUnit)

private theorem mapM_isSome {α β : Type} {f : α → Option β} {list : List α} :
    (list.mapM f).isSome = true ↔ ∀ a ∈ list, (f a).isSome = true := by
  induction list with
  | nil => simp
  | cons a list ih =>
    rw [List.mapM_cons, List.forall_mem_cons, ← ih]
    cases f a with
    | none => simp
    | some b => cases list.mapM f <;> simp

theorem mapM_eq_self {α : Type} {f : α → Option α} {list : List α} :
    list.mapM f = some list ↔ ∀ a ∈ list, f a = some a := by
  induction list with
  | nil => simp
  | cons a list ih =>
    rw [List.mapM_cons, List.forall_mem_cons, ← ih]
    cases f a with
    | none => simp
    | some b => cases list.mapM f <;> simp

theorem mapM_map_eq {α β γ : Type} {f : α → Option β} {g : α → γ} {h : β → γ} (each : ∀ a b, f a = some b → h b = g a)
    {list : List α} {made : List β} (mapped : list.mapM f = some made) : made.map h = list.map g := by
  induction list generalizing made with
  | nil =>
    cases mapped
    rfl
  | cons a list ih =>
    rw [List.mapM_cons] at mapped
    obtain ⟨b, here, rest⟩ := Option.bind_eq_some_iff.mp mapped
    obtain ⟨others, remaining, same⟩ := Option.bind_eq_some_iff.mp rest
    cases same
    rw [List.map_cons, List.map_cons, each a b here, ih remaining]

theorem Value.reread?_eq_self {value : Value} : value.reread? = some value ↔ ∀ x ∈ value.numbers, Decimal.reread? x = some x := by
  cases value with
  | number x => simp [Value.reread?, Value.numbers]
  | text | bool | null => simp [Value.reread?, Value.numbers]

namespace Bytecode

theorem Chunk.reread?_isSome {chunk : Chunk} :
    chunk.reread?.isSome = true ↔ ∀ x ∈ chunk.numbers, x.isFinite = true := by
  rw [Chunk.reread?, Option.isSome_map, mapM_isSome]
  constructor
  · intro all x present
    have here := Array.mem_toList_iff.mpr (Chunk.mem_numbers.mp present)
    exact (Value.reread?_isSome _).mp (all _ here) x rfl
  · intro all value present
    refine (Value.reread?_isSome value).mpr ?_
    rintro x rfl
    exact all x (Chunk.mem_numbers.mpr (Array.mem_toList_iff.mp present))

theorem Chunk.reread?_eq_self {chunk : Chunk} :
    chunk.reread? = some chunk ↔ ∀ x ∈ chunk.numbers, Decimal.reread? x = some x := by
  have same : chunk.reread? = some chunk ↔ chunk.constants.toList.mapM Value.reread? = some chunk.constants.toList := by
    rw [Chunk.reread?]
    cases chunk.constants.toList.mapM Value.reread? with
    | none => simp
    | some constants =>
      obtain ⟨code, ⟨list⟩, lines⟩ := chunk
      simp
  rw [same, mapM_eq_self, Chunk.numbers]
  simp only [Value.reread?_eq_self, List.mem_flatMap]
  constructor
  · rintro all x ⟨value, present, inside⟩
    exact all value present x inside
  · intro all value present x inside
    exact all x ⟨value, present, inside⟩

theorem Function.reread?_isSome {function : Function} :
    function.reread?.isSome = true ↔ ∀ x ∈ function.chunk.numbers, x.isFinite = true := by
  rw [Function.reread?, Option.isSome_map, Chunk.reread?_isSome]

theorem Function.reread?_eq_self {function : Function} :
    function.reread? = some function ↔ ∀ x ∈ function.chunk.numbers, Decimal.reread? x = some x := by
  rw [← Chunk.reread?_eq_self, Function.reread?]
  obtain ⟨name, arity, chunk⟩ := function
  simp

theorem CompiledUnit.reread?_isSome {compiled : CompiledUnit} :
    compiled.reread?.isSome = true ↔ ∀ x ∈ compiled.numbers, x.isFinite = true := by
  have both : compiled.reread?.isSome = true ↔
      compiled.body.reread?.isSome = true ∧ (compiled.functions.mapM Function.reread?).isSome = true := by
    rw [CompiledUnit.reread?]
    cases compiled.body.reread? <;> cases compiled.functions.mapM Function.reread? <;> simp
  rw [both, mapM_isSome, Chunk.reread?_isSome, CompiledUnit.numbers]
  simp only [Function.reread?_isSome, List.mem_append, List.mem_flatMap]
  constructor
  · rintro ⟨first, rest⟩ x (body | ⟨function, present, inside⟩)
    · exact first x body
    · exact rest function present x inside
  · intro all
    exact ⟨fun x body => all x (.inl body), fun function present x inside => all x (.inr ⟨function, present, inside⟩)⟩

theorem CompiledUnit.reread?_eq_self {compiled : CompiledUnit} :
    compiled.reread? = some compiled ↔ ∀ x ∈ compiled.numbers, Decimal.reread? x = some x := by
  have both : compiled.reread? = some compiled ↔ compiled.body.reread? = some compiled.body ∧
      compiled.functions.mapM Function.reread? = some compiled.functions := by
    obtain ⟨source, body, functions⟩ := compiled
    rw [CompiledUnit.reread?]
    cases body.reread? <;> cases functions.mapM Function.reread? <;> simp
  rw [both, mapM_eq_self, Chunk.reread?_eq_self, CompiledUnit.numbers]
  simp only [Function.reread?_eq_self, List.mem_append, List.mem_flatMap]
  constructor
  · rintro ⟨first, rest⟩ x (body | ⟨function, present, inside⟩)
    · exact first x body
    · exact rest function present x inside
  · intro all
    exact ⟨fun x body => all x (.inl body), fun function present x inside => all x (.inr ⟨function, present, inside⟩)⟩

/-- Units, lists of units and entry points read back from their payloads as they were. Texts may hold any characters, and
there may be no lines; a number reads back where its own digits do, and a unit reads back as it was only if all its numbers
do. Lines and arities are numbers of 64 bits. -/
theorem payloads_decode :
    (∀ compiled : CompiledUnit, compiled.Fits →
      (CompiledUnit.ofPayload? compiled.payload = some compiled ↔ ∀ x ∈ compiled.numbers, Decimal.reread? x = some x)) ∧
    (∀ initials : List CompiledUnit, (∀ compiled ∈ initials, compiled.Fits) →
      (initials? (initialsPayload initials) = some initials ↔
        ∀ compiled ∈ initials, ∀ x ∈ compiled.numbers, Decimal.reread? x = some x)) ∧
    ∀ entry : EntryPoint, EntryPoint.ofPayload? entry.payload = some entry := by
  refine ⟨?_, ?_, entryPoint_ofPayload?_payload⟩
  · intro compiled fits
    rw [ofPayload?_payload fits, CompiledUnit.reread?_eq_self]
  · intro initials fits
    rw [initials?_payload fits, mapM_eq_self]
    simp only [CompiledUnit.reread?_eq_self]

/-- A unit with a text of a quote, a backslash, a control, and a character that two surrogates stand for; with numbers of each
layout, and with lines in one chunk and none in the other. -/
def motleyUnit : CompiledUnit where
  source := "a\"b\\c\n\x01😀.zs"
  body := ⟨#[0, 255, 29], #[.number 0.1, .text "\x1f\t/é", .bool true, .null, .number 1e21, .number 0], #[1, 1, 18446744073709551615]⟩
  functions := [⟨"f", 255, ⟨#[], #[.number 5e-324], #[]⟩⟩, ⟨"", 0, ⟨#[28], #[.text ""], #[]⟩⟩]

theorem motleyUnit_decodes :
    CompiledUnit.ofPayload? motleyUnit.payload = some motleyUnit ∧
      initials? (initialsPayload [motleyUnit, motleyUnit]) = some [motleyUnit, motleyUnit] ∧
      EntryPoint.ofPayload? (EntryPoint.payload ⟨"\\\"", true, ["😀", ""]⟩) = some ⟨"\\\"", true, ["😀", ""]⟩ := by
  have fits : motleyUnit.Fits := by
    simp [CompiledUnit.Fits, Function.Fits, Chunk.Fits, motleyUnit, Json.maxInteger]
  have numbers : ∀ x ∈ motleyUnit.numbers, Decimal.reread? x = some x := by decide +kernel
  refine ⟨(payloads_decode.1 motleyUnit fits).mpr numbers, ?_, payloads_decode.2.2 _⟩
  exact (payloads_decode.2.1 [motleyUnit, motleyUnit] (by simp [fits])).mpr (by simpa using numbers)

end Bytecode

namespace Machine

/-- The program that a program is when it has been stored and loaded. -/
def Program.reread? (made : Program) : Option Program := do
  let initials ← made.initials.mapM CompiledUnit.reread?
  let units ← made.units.mapM CompiledUnit.reread?
  return ⟨made.entry, initials, units, linkFunctions units⟩

theorem Program.reread?_isSome {made : Program} :
    made.reread?.isSome = true ↔ ∀ x ∈ made.numbers, x.isFinite = true := by
  have both : made.reread?.isSome = true ↔ (made.initials.mapM CompiledUnit.reread?).isSome = true ∧
      (made.units.mapM CompiledUnit.reread?).isSome = true := by
    rw [Program.reread?]
    cases made.initials.mapM CompiledUnit.reread? <;> cases made.units.mapM CompiledUnit.reread? <;> simp
  rw [both, mapM_isSome, mapM_isSome, ← List.forall_mem_append, Program.numbers, Program.bodies]
  simp only [CompiledUnit.reread?_isSome, List.mem_flatMap]
  constructor
  · rintro all x ⟨compiled, present, inside⟩
    exact all compiled present x inside
  · intro all compiled present x inside
    exact all x ⟨compiled, present, inside⟩

theorem Program.reread?_eq_self {made : Program} (linked : made.functions = linkFunctions made.units) :
    made.reread? = some made ↔ ∀ x ∈ made.numbers, Decimal.reread? x = some x := by
  have both : made.reread? = some made ↔ made.initials.mapM CompiledUnit.reread? = some made.initials ∧
      made.units.mapM CompiledUnit.reread? = some made.units := by
    obtain ⟨entry, initials, units, functions⟩ := made
    obtain rfl : functions = linkFunctions units := linked
    rw [Program.reread?]
    cases initials.mapM CompiledUnit.reread? <;> cases units.mapM CompiledUnit.reread? <;> simp
    rintro - rfl
    rfl
  rw [both, mapM_eq_self, mapM_eq_self, ← List.forall_mem_append, Program.numbers, Program.bodies]
  simp only [CompiledUnit.reread?_eq_self, List.mem_flatMap]
  constructor
  · rintro all x ⟨compiled, present, inside⟩
    exact all compiled present x inside
  · intro all compiled present x inside
    exact all x ⟨compiled, present, inside⟩

end Machine

namespace Compile

section
variable {artifacts : ArtifactSet} {pairs : List (ParsedUnit × CompiledUnit)} {units : List ParsedUnit}

theorem get?_insert (artifacts : ArtifactSet) (name payload other : String) :
    (artifacts.insert name payload).get? other = if name = other then some payload else artifacts.get? other := by
  rw [Std.TreeMap.get?_eq_getElem?, Std.TreeMap.getElem?_insert]
  simp only [Std.compare_eq_iff_eq, Std.TreeMap.get?_eq_getElem?]

private theorem store_get?_other {name : String} (absent : ∀ pair ∈ pairs, pair.1.artifact ≠ name) :
    (store artifacts pairs).get? name = artifacts.get? name := by
  induction pairs generalizing artifacts with
  | nil => rfl
  | cons pair pairs ih =>
    obtain ⟨first, rest⟩ := List.forall_mem_cons.mp absent
    rw [store, ih rest, get?_insert, if_neg first]

private theorem store_get? (distinct : (pairs.map fun pair => pair.1.artifact).Nodup) {parsed : ParsedUnit} {compiled : CompiledUnit}
    (present : (parsed, compiled) ∈ pairs) : (store artifacts pairs).get? parsed.artifact = some compiled.payload := by
  induction pairs generalizing artifacts with
  | nil => cases present
  | cons pair pairs ih =>
    obtain ⟨fresh, others⟩ := List.nodup_cons.mp distinct
    rcases List.mem_cons.mp present with rfl | later
    · rw [store, store_get?_other, get?_insert, if_pos rfl]
      intro pair there same
      exact fresh (List.mem_map.mpr ⟨pair, there, same⟩)
    · exact ih others later

/-- The names of artifacts that a group compiles to are distinct, and none of them is reserved. -/
theorem checkNames_ok {used : List (String × String)} (checked : checkNames used units = .ok ()) :
    (∀ parsed ∈ units, parsed.artifact ≠ mainArtifact ∧ parsed.artifact ≠ initArtifact) ∧
      (units.map ParsedUnit.artifact).Nodup ∧ ∀ parsed ∈ units, used.lookup parsed.artifact = none := by
  induction units generalizing used with
  | nil => exact ⟨nofun, .nil, nofun⟩
  | cons parsed units ih =>
    unfold checkNames at checked
    split at checked
    · cases checked
    · rename_i free
      split at checked
      · cases checked
      · rename_i new
        obtain ⟨unreserved, distinct, unused⟩ := ih checked
        have apart : ∀ other ∈ units, (other.artifact == parsed.artifact) = false ∧ used.lookup other.artifact = none := by
          intro other present
          have looked := unused other present
          rw [List.lookup] at looked
          split at looked
          · cases looked
          · rename_i differ
            exact ⟨differ, looked⟩
        refine ⟨List.forall_mem_cons.mpr ⟨not_or.mp free, unreserved⟩, List.nodup_cons.mpr ⟨?_, distinct⟩,
          List.forall_mem_cons.mpr ⟨new, fun other present => (apart other present).2⟩⟩
        intro repeated
        obtain ⟨other, present, same⟩ := List.mem_map.mp repeated
        have differ := (apart other present).1
        rw [same, beq_self_eq_true] at differ
        cases differ

end

/-! ## Loading -/

/-- What is loaded is what a reading of it gives; where that gives nothing, an artifact of these names is undecodable. -/
def Decodes {α : Type} (names : List String) (loaded : Except LoadError α) (read : Option α) : Prop :=
  read.elim (∃ name ∈ names, loaded = .error (.undecodable name)) (loaded = .ok ·)

theorem Decodes.bind {α β : Type} {names : List String} {loaded : Except LoadError α} {read : Option α}
    {more : α → Except LoadError β} {again : α → Option β} (first : Decodes names loaded read)
    (rest : ∀ a, Decodes names (more a) (again a)) : Decodes names (loaded >>= more) (read >>= again) := by
  cases read with
  | none =>
    obtain ⟨name, present, rfl⟩ := first
    exact ⟨name, present, rfl⟩
  | some a =>
    obtain rfl : loaded = .ok a := first
    exact rest a

private theorem artifact_decodes {α : Type} {names : List String} {artifacts : ArtifactSet} {name payload : String}
    {ofPayload? : String → Option α} (present : name ∈ names) (found : artifacts.get? name = some payload) :
    Decodes names (Program.artifact artifacts name ofPayload?) (ofPayload? payload) := by
  simp only [Program.artifact, found]
  cases ofPayload? payload with
  | none => exact ⟨name, present, rfl⟩
  | some a => rfl

private theorem units_decode {names : List String} {artifacts : ArtifactSet} {units : List ParsedUnit} {compiled : List CompiledUnit}
    (each : List.Forall₂ (fun parsed compiled => parsed.artifact ∈ names ∧
      artifacts.get? parsed.artifact = some compiled.payload ∧ compiled.Fits) units compiled) :
    Decodes names ((units.map ParsedUnit.artifact).mapM fun name => Program.artifact artifacts name CompiledUnit.ofPayload?)
      (compiled.mapM CompiledUnit.reread?) := by
  induction each with
  | nil => exact rfl
  | cons first _ ih =>
    obtain ⟨present, found, fits⟩ := first
    rw [List.map_cons, List.mapM_cons, List.mapM_cons, ← Bytecode.ofPayload?_payload fits]
    refine (artifact_decodes present found).bind fun a => ih.bind fun rest => ?_
    exact rfl

section
variable {env : Environment} {debug : Bool} {units : List ParsedUnit} {artifacts : ArtifactSet} {made : Program}

/-- A group that compiles has artifact names that can be used, a compiled unit for each of its units, and an entry point. -/
theorem program_parts (compiled : program env debug units = .ok made) :
    checkNames [] units = .ok () ∧ units.length = made.units.length ∧ made.entry = entryPoint env debug units := by
  obtain ⟨initials, first, rest⟩ := except_bind_eq_ok.mp compiled
  obtain ⟨stored, second, same⟩ := except_bind_eq_ok.mp rest
  obtain ⟨_, checked, -⟩ := except_bind_eq_ok.mp first
  cases same
  exact ⟨checked, (mapM_eq_ok second).length_eq, rfl⟩

/-- Every artifact of a program is found under its name. -/
theorem emitted_get? (artifacts : ArtifactSet) (checked : checkNames [] units = .ok ()) (lengths : units.length = made.units.length) :
    (emitted artifacts units made).get? mainArtifact = some made.entry.payload ∧
      (emitted artifacts units made).get? initArtifact = some (Bytecode.initialsPayload made.initials) ∧
        ∀ parsed compiled, (parsed, compiled) ∈ units.zip made.units →
          (emitted artifacts units made).get? parsed.artifact = some compiled.payload := by
  obtain ⟨unreserved, distinct, -⟩ := checkNames_ok checked
  have firsts : (units.zip made.units).map Prod.fst = units := List.map_fst_zip lengths.le
  have inside : ∀ pair ∈ units.zip made.units, pair.1 ∈ units := by
    intro pair present
    rw [← firsts]
    exact List.mem_map_of_mem present
  refine ⟨?_, ?_, ?_⟩
  · rw [emitted, get?_insert, if_pos rfl]
  · rw [emitted, get?_insert, if_neg (by decide), store_get?_other, get?_insert, if_pos rfl]
    intro pair present
    exact (unreserved pair.1 (inside pair present)).2
  · intro parsed compiled present
    rw [emitted, get?_insert, if_neg fun same => (unreserved parsed (inside _ present)).1 same.symm]
    refine store_get? ?_ present
    rw [← firsts, List.map_map] at distinct
    exact distinct

/-- What a group compiles to loads as the program with its numbers read again. -/
theorem load_decodes (artifacts : ArtifactSet) (within : ∀ parsed ∈ units, parsed.Within Json.maxInteger)
    (compiled : program env debug units = .ok made) :
    Decodes (initArtifact :: units.map ParsedUnit.artifact) (Program.load (emitted artifacts units made)) made.reread? := by
  have fits := program_fits within compiled
  obtain ⟨checked, lengths, same⟩ := program_parts compiled
  have names : made.entry.units = units.map ParsedUnit.artifact := by
    rw [same]
    rfl
  obtain ⟨main, init, each⟩ := emitted_get? artifacts checked lengths
  have entry : Program.artifact (emitted artifacts units made) mainArtifact EntryPoint.ofPayload? = .ok made.entry := by
    simp only [Program.artifact, main, Bytecode.entryPoint_ofPayload?_payload]
  have initials := Bytecode.initials?_payload fun compiled present => fits compiled (List.mem_append_left _ present)
  have bodies := units_decode (List.forall₂_iff_zip.mpr ⟨lengths, fun {parsed compiled} present =>
    ⟨List.mem_cons_of_mem initArtifact (List.mem_map_of_mem (List.of_mem_zip present).1), each parsed compiled present,
      fits compiled (List.mem_append_right _ (List.of_mem_zip present).2)⟩⟩)
  rw [← names] at bodies ⊢
  rw [Program.load, entry, Program.reread?, ← initials]
  refine Decodes.bind (?_ : Decodes _ (Program.artifact _ _ _) _) ?_
  · exact artifact_decodes List.mem_cons_self init
  · intro initials
    exact bodies.bind fun units => rfl

private theorem reread?_units {loaded : Program} (read : made.reread? = some loaded) :
    loaded.entry = made.entry ∧ loaded.units.map CompiledUnit.source = made.units.map CompiledUnit.source := by
  obtain ⟨initials, -, rest⟩ := Option.bind_eq_some_iff.mp read
  obtain ⟨units, mapped, same⟩ := Option.bind_eq_some_iff.mp rest
  cases same
  refine ⟨rfl, mapM_map_eq ?_ mapped⟩
  intro compiled again here
  obtain ⟨body, -, rest⟩ := Option.bind_eq_some_iff.mp here
  obtain ⟨functions, -, same⟩ := Option.bind_eq_some_iff.mp rest
  cases same
  rfl

/-- What a group compiles to, and the artifacts that it leaves. -/
theorem program_of_result (compiled : (compileGroup env debug units artifacts).result = .ok ()) :
    ∃ made, program env debug units = .ok made ∧ made.entry = entryPoint env debug units ∧
      made.functions = linkFunctions made.units ∧ made.units.map CompiledUnit.source = units.map ParsedUnit.name ∧
      (compileGroup env debug units artifacts).artifacts = emitted artifacts units made := by
  obtain ⟨made, succeeded⟩ := compileGroup_result.mp compiled
  refine ⟨made, succeeded, ?_⟩
  rw [compileGroup_ok succeeded]
  obtain ⟨initials, -, rest⟩ := except_bind_eq_ok.mp succeeded
  obtain ⟨stored, second, same⟩ := except_bind_eq_ok.mp rest
  cases same
  refine ⟨rfl, rfl, ?_, rfl⟩
  have sources : ∀ parsed made, compileUnit env debug parsed = .ok made → made.source = parsed.name := by
    intro parsed made compiled
    obtain ⟨functions, -, rest⟩ := except_bind_eq_ok.mp compiled
    obtain ⟨main, -, same⟩ := except_bind_eq_ok.mp rest
    cases same
    rfl
  have all := mapM_eq_ok second
  clear second rest compiled succeeded
  induction all with
  | nil => rfl
  | cons first _ ih => rw [List.map_cons, List.map_cons, ih, sources _ _ first]

end

end Compile

namespace Script

theorem Environment.parseAll_within {env last : Environment} {inputs : List Input} {units : List ParsedUnit} {limit : Nat}
    (lines : ∀ input ∈ inputs, input.source.toList.count '\n' < limit) (parsed : env.parseAll inputs = (units, last)) :
    ∀ unit ∈ units, unit.Within limit := by
  intro unit inside
  rw [← show (env.parseAll inputs).1 = units from congrArg Prod.fst parsed] at inside
  obtain ⟨input, present, before, accepted⟩ := mem_parseAll inside
  exact parse_within (lines input present) accepted

end Script

namespace Compile

section
variable {group : String} {natives : List (String × Option Nat)} {brackets : List BracketHandler} {inputs : List Input}
variable {units : List ParsedUnit} {env : Environment} {debug : Bool}

/-- A script with numbers that read again as themselves. -/
def ratesSource : String := "global rate = 0.25;\nvar total = 3 * rate;"

/-- The syntax tree of the script. -/
def ratesUnit : ParsedUnit where
  name := "rates.zs"
  artifact := "rates"
  globals := [⟨"rate", .number 0.25, 1⟩]
  functions := []
  statements := [.declare "total" true (some (.binary .multiply (.number 3) (.name "rate" 2) 2)) 2]

private theorem ratesSource_tokens : Script.TokenStream.ofSource ratesSource =
    ⟨[⟨.keyword .globalWord, 1⟩, ⟨.name "rate", 1⟩, ⟨.symbol .assign, 1⟩, ⟨.number 0.25, 1⟩, ⟨.symbol .semicolon, 1⟩,
      ⟨.keyword .varWord, 2⟩, ⟨.name "total", 2⟩, ⟨.symbol .assign, 2⟩, ⟨.number 3, 2⟩, ⟨.symbol .star, 2⟩, ⟨.name "rate", 2⟩,
      ⟨.symbol .semicolon, 2⟩], .finish 2⟩ := by
  decide +kernel

theorem ratesSource_parses : (Environment.initial "group" [] []).parseAll [⟨ratesSource, "rates.zs", "rates", false⟩] =
    ([ratesUnit], (Environment.initial "group" [] []).declareUnit ratesUnit) := by
  simp only [Environment.parseAll, Environment.parse, ratesSource_tokens, ratesUnit]
  generalize (0.25 : Float) = quarter
  generalize (3 : Float) = three
  cbv

theorem ratesSource_lines : ∀ input ∈ [(⟨ratesSource, "rates.zs", "rates", false⟩ : Input)],
    input.source.toList.count '\n' < Json.maxInteger := by
  rw [List.forall_mem_singleton]
  cbv

theorem ratesUnit_compiles :
    (compileGroup ((Environment.initial "group" [] []).declareUnit ratesUnit) true [ratesUnit] ∅).result = .ok () := by
  decide +kernel

/-- A group that compiles loads when the numbers that it holds are all finite, and only then. What is loaded has the name
of the group, the debug flag and a unit for each file; what does not load has an artifact that does not decode, and none
that is missing. A source has fewer lines than 64 bits count. -/
theorem loads_iff_finite (parsed : (Environment.initial group natives brackets).parseAll inputs = (units, env))
    (lines : ∀ input ∈ inputs, input.source.toList.count '\n' < Json.maxInteger)
    (compiled : (compileGroup env debug units ∅).result = .ok ()) :
    ((∃ loaded, Program.load (compileGroup env debug units ∅).artifacts = .ok loaded) ↔
      ∀ unit ∈ units, ∀ x ∈ unit.numbers, x.isFinite = true) ∧
    (∀ loaded, Program.load (compileGroup env debug units ∅).artifacts = .ok loaded →
      loaded.entry = ⟨group, debug, units.map ParsedUnit.artifact⟩ ∧
      loaded.units.map CompiledUnit.source = units.map ParsedUnit.name) ∧
    ∀ error, Program.load (compileGroup env debug units ∅).artifacts = .error error →
      ∃ name ∈ initArtifact :: units.map ParsedUnit.artifact, error = .undecodable name := by
  have within := Environment.parseAll_within lines parsed
  have name : env.group = group := by
    rw [Environment.parseAll_env parsed, Environment.declareUnits]
    rfl
  obtain ⟨made, succeeded, entry, -, sources, stored⟩ := program_of_result compiled
  have decodes := load_decodes ∅ within succeeded
  have numbers : (∀ x ∈ made.numbers, x.isFinite = true) ↔ ∀ unit ∈ units, ∀ x ∈ unit.numbers, x.isFinite = true := by
    simp only [program_numbers within succeeded]
    exact ⟨fun all unit present x inside => all x ⟨unit, present, inside⟩,
      fun all x ⟨unit, present, inside⟩ => all unit present x inside⟩
  rw [stored, ← numbers, ← Program.reread?_isSome]
  cases read : made.reread? with
  | some loaded =>
    rw [read] at decodes
    have loads : Program.load (emitted ∅ units made) = .ok loaded := decodes
    rw [loads]
    obtain ⟨same, names⟩ := reread?_units read
    refine ⟨by simp, ?_, nofun⟩
    rintro _ ⟨⟩
    refine ⟨?_, names.trans sources⟩
    rw [same, entry, entryPoint, name]
  | none =>
    rw [read] at decodes
    obtain ⟨artifact, present, failed⟩ := decodes
    rw [failed]
    refine ⟨by simp, nofun, ?_⟩
    rintro _ ⟨⟩
    exact ⟨artifact, present, rfl⟩

theorem ratesSource_loads :
    let env := (Environment.initial "group" [] []).declareUnit ratesUnit
    let artifacts := (compileGroup env true [ratesUnit] ∅).artifacts
    ((∃ loaded, Program.load artifacts = .ok loaded) ↔ ∀ unit ∈ [ratesUnit], ∀ x ∈ unit.numbers, x.isFinite = true) ∧
    (∀ loaded, Program.load artifacts = .ok loaded →
      loaded.entry = ⟨"group", true, ["rates"]⟩ ∧ loaded.units.map CompiledUnit.source = ["rates.zs"]) ∧
    ∀ error, Program.load artifacts = .error error → ∃ name ∈ [initArtifact, "rates"], error = .undecodable name :=
  loads_iff_finite ratesSource_parses ratesSource_lines ratesUnit_compiles

/-- A script that is one number. -/
theorem number_parses {source : String} {x : Float}
    (tokens : Script.TokenStream.ofSource source = ⟨[⟨.number x, 1⟩, ⟨.symbol .semicolon, 1⟩], .finish 1⟩)
    (name artifact : String) :
    (Environment.initial "group" [] []).parseAll [⟨source, name, artifact, false⟩] =
      ([⟨name, artifact, [], [], [.expr (.number x)]⟩],
        (Environment.initial "group" [] []).declareUnit ⟨name, artifact, [], [], [.expr (.number x)]⟩) := by
  simp only [Environment.parseAll, Environment.parse, tokens]
  cbv

/-- A number of more than three hundred digits: it is infinite. -/
def overlongNumber : List Char := '1' :: List.replicate 309 '0' ++ [';']

/-- The script of the number. -/
def overlongSource : String := String.ofList overlongNumber

/-- The syntax tree of the number. -/
def overlongUnit : ParsedUnit := ⟨"long.zs", "long", [], [], [.expr (.number (1 / 0))]⟩

private theorem overlongSource_toList : overlongSource.toList = overlongNumber := by
  rw [overlongSource, String.toList_ofList]

private theorem overlongSource_tokens : Script.TokenStream.ofSource overlongSource =
    ⟨[⟨.number (1 / 0), 1⟩, ⟨.symbol .semicolon, 1⟩], .finish 1⟩ := by
  have number : Script.Cursor.next ⟨1, overlongNumber⟩ = (.token ⟨.number (1 / 0), 1⟩, ⟨1, [';']⟩) := by decide +kernel
  rw [Script.TokenStream.ofSource, Script.Cursor.start, overlongSource_toList, Script.TokenStream.ofCursor,
    Script.TokenStream.go_token number]
  decide +kernel

private theorem overlongSource_parses :
    (Environment.initial "group" [] []).parseAll [⟨overlongSource, "long.zs", "long", false⟩] =
      ([overlongUnit], (Environment.initial "group" [] []).declareUnit overlongUnit) :=
  number_parses overlongSource_tokens "long.zs" "long"

private theorem overlongSource_lines : ∀ input ∈ [(⟨overlongSource, "long.zs", "long", false⟩ : Input)],
    input.source.toList.count '\n' < Json.maxInteger := by
  rw [List.forall_mem_singleton, overlongSource_toList, overlongNumber, List.count_append, List.count_cons_of_ne (by decide),
    List.count_replicate, if_neg (by decide)]
  decide

private theorem overlongUnit_compiles :
    (compileGroup ((Environment.initial "group" [] []).declareUnit overlongUnit) false [overlongUnit] ∅).result = .ok () :=
  compileGroup_result.mpr ⟨_, rfl⟩

/-- A group with an infinite number compiles and does not load. -/
theorem overlong_compiles_and_fails :
    ∃ units env, (Environment.initial "group" [] []).parseAll [⟨overlongSource, "long.zs", "long", false⟩] = (units, env) ∧
      (compileGroup env false units ∅).result = .ok () ∧
      ∃ name, Program.load (compileGroup env false units ∅).artifacts = .error (.undecodable name) := by
  refine ⟨_, _, overlongSource_parses, overlongUnit_compiles, ?_⟩
  obtain ⟨made, succeeded, -, -, -, stored⟩ := program_of_result overlongUnit_compiles
  have within := Environment.parseAll_within overlongSource_lines overlongSource_parses
  have decodes := load_decodes ∅ within succeeded
  have unread : made.reread? = none := by
    rw [← Option.not_isSome_iff_eq_none, Program.reread?_isSome]
    intro finite
    have inside : (1 / 0 : Float) ∈ made.numbers :=
      (program_numbers within succeeded _).mpr ⟨overlongUnit, List.mem_singleton_self _, List.mem_singleton_self _⟩
    exact absurd (finite _ inside) (by decide)
  rw [unread] at decodes
  obtain ⟨name, -, failed⟩ := decodes
  exact ⟨name, stored ▸ failed⟩

/-- A group whose numbers are finite is loaded as the program that it compiled to, with each number read again from the
digits that it was stored with. The program is unchanged when every number that the group holds reads again as itself, and
only then; all numbers that are stored with few digits and places do. A source has fewer lines than 64 bits count. -/
theorem loads_unchanged_iff (parsed : (Environment.initial group natives brackets).parseAll inputs = (units, env))
    (lines : ∀ input ∈ inputs, input.source.toList.count '\n' < Json.maxInteger)
    (compiled : (compileGroup env debug units ∅).result = .ok ())
    (finite : ∀ unit ∈ units, ∀ x ∈ unit.numbers, x.isFinite = true) :
    ∃ made loaded, program env debug units = .ok made ∧ Program.load (compileGroup env debug units ∅).artifacts = .ok loaded ∧
      made.reread? = some loaded ∧ (∀ x, x ∈ made.numbers ↔ ∃ unit ∈ units, x ∈ unit.numbers) ∧
      (loaded = made ↔ ∀ unit ∈ units, ∀ x ∈ unit.numbers, Decimal.reread? x = some x) ∧
      ((∀ unit ∈ units, ∀ x ∈ unit.numbers, Decimal.ShortlyStored x) → loaded = made) := by
  have within := Environment.parseAll_within lines parsed
  obtain ⟨made, succeeded, -, linked, -, stored⟩ := program_of_result compiled
  have numbers := program_numbers within succeeded
  have decodes := load_decodes ∅ within succeeded
  have reads : made.reread?.isSome = true := by
    refine Program.reread?_isSome.mpr ?_
    intro x present
    obtain ⟨unit, there, inside⟩ := (numbers x).mp present
    exact finite unit there x inside
  obtain ⟨loaded, read⟩ := Option.isSome_iff_exists.mp reads
  rw [read] at decodes
  have unchanged : loaded = made ↔ ∀ unit ∈ units, ∀ x ∈ unit.numbers, Decimal.reread? x = some x := by
    have self : loaded = made ↔ made.reread? = some made := by
      rw [read, Option.some_inj]
    rw [self, Program.reread?_eq_self linked]
    simp only [numbers]
    exact ⟨fun all unit present x inside => all x ⟨unit, present, inside⟩,
      fun all x ⟨unit, present, inside⟩ => all unit present x inside⟩
  refine ⟨made, loaded, succeeded, stored ▸ decodes, read, numbers, unchanged, ?_⟩
  intro short
  exact unchanged.mpr fun unit present x inside => Decimal.reread?_same (short unit present x inside)

theorem ratesSource_loads_unchanged :
    let env := (Environment.initial "group" [] []).declareUnit ratesUnit
    ∃ made loaded, program env true [ratesUnit] = .ok made ∧
      Program.load (compileGroup env true [ratesUnit] ∅).artifacts = .ok loaded ∧ made.reread? = some loaded ∧
      (∀ x, x ∈ made.numbers ↔ ∃ unit ∈ [ratesUnit], x ∈ unit.numbers) ∧
      (loaded = made ↔ ∀ unit ∈ [ratesUnit], ∀ x ∈ unit.numbers, Decimal.reread? x = some x) ∧
      ((∀ unit ∈ [ratesUnit], ∀ x ∈ unit.numbers, Decimal.ShortlyStored x) → loaded = made) :=
  loads_unchanged_iff ratesSource_parses ratesSource_lines ratesUnit_compiles (by decide)

/-- The script of the greatest integer below `2 ^ 53`. -/
def integerSource : String := "9007199254740991;"

/-- The syntax tree of the integer. -/
def integerUnit : ParsedUnit := ⟨"big.zs", "big", [], [], [.expr (.number 9007199254740991)]⟩

private theorem integerSource_tokens : Script.TokenStream.ofSource integerSource =
    ⟨[⟨.number 9007199254740991, 1⟩, ⟨.symbol .semicolon, 1⟩], .finish 1⟩ := by
  decide +kernel

private theorem integerSource_parses :
    (Environment.initial "group" [] []).parseAll [⟨integerSource, "big.zs", "big", false⟩] =
      ([integerUnit], (Environment.initial "group" [] []).declareUnit integerUnit) :=
  number_parses integerSource_tokens "big.zs" "big"

private theorem integerSource_lines : ∀ input ∈ [(⟨integerSource, "big.zs", "big", false⟩ : Input)],
    input.source.toList.count '\n' < Json.maxInteger := by
  rw [List.forall_mem_singleton]
  cbv

private theorem integerUnit_compiles :
    (compileGroup ((Environment.initial "group" [] []).declareUnit integerUnit) false [integerUnit] ∅).result = .ok () :=
  compileGroup_result.mpr ⟨_, rfl⟩

/-- The greatest integer below `2 ^ 53` is another one when it has been stored and loaded. -/
theorem integer_loads_as_another :
    ∃ units env made loaded,
      (Environment.initial "group" [] []).parseAll [⟨integerSource, "big.zs", "big", false⟩] = (units, env) ∧
      (∃ unit ∈ units, unit.numbers = [9007199254740991]) ∧
      program env false units = .ok made ∧ made.numbers = [9007199254740991] ∧
      Program.load (compileGroup env false units ∅).artifacts = .ok loaded ∧ loaded.numbers = [9007199254740990] := by
  have before : (program ((Environment.initial "group" [] []).declareUnit integerUnit) false [integerUnit]).toOption.map
      Program.numbers = some [9007199254740991] := by
    decide +kernel
  have after : ((program ((Environment.initial "group" [] []).declareUnit integerUnit) false [integerUnit]).toOption.bind
      Program.reread?).map Program.numbers = some [9007199254740990] := by
    decide +kernel
  obtain ⟨made, succeeded, -, -, -, stored⟩ := program_of_result integerUnit_compiles
  have within := Environment.parseAll_within integerSource_lines integerSource_parses
  have decodes := load_decodes ∅ within succeeded
  rw [succeeded] at before after
  obtain ⟨loaded, read, numbers⟩ := Option.map_eq_some_iff.mp after
  have same : made.reread? = some loaded := read
  rw [same] at decodes
  exact ⟨_, _, made, loaded, integerSource_parses, ⟨integerUnit, List.mem_singleton_self _, rfl⟩, succeeded,
    Option.some.inj before, stored ▸ decodes, numbers⟩

end

end Compile

end Scriptorium
