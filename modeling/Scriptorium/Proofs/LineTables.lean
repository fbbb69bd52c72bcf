import Scriptorium.Proofs.Loading
import Scriptorium.Proofs.NativeCalls

/-!
# Line tables

A build with debugging keeps a source line for each byte of its code, and one without it keeps none. Nothing else tells the two
apart (`debug_keeps_lines`): taking the lines out of what one of them compiles to gives what the other compiles to, and a program
without its lines runs as it does with them, but for the lines in the places of errors.

Taking lines out commutes with whatever is done to a chunk: with compiling (`compileUnit_plain`), with writing to payloads and
reading them back (`load_plain`), and with each step of the machine (`step_withoutLines`).
-/
namespace Scriptorium

namespace Bytecode

/-- The chunk without its lines. -/
def Chunk.withoutLines (chunk : Chunk) : Chunk := { chunk with lines := #[] }

/-- The function without its lines. -/
def Function.withoutLines (function : Function) : Function := { function with chunk := function.chunk.withoutLines }

/-- The unit without its lines. -/
def CompiledUnit.withoutLines (compiled : CompiledUnit) : CompiledUnit :=
  { compiled with body := compiled.body.withoutLines, functions := compiled.functions.map Function.withoutLines }

/-- The chunks of a unit: its body and those of its functions. -/
def CompiledUnit.chunks (compiled : CompiledUnit) : List Chunk := compiled.body :: compiled.functions.map Function.chunk

/-- One line for each byte of the code. -/
def Chunk.Lined (chunk : Chunk) : Prop := chunk.lines.size = chunk.code.size

theorem Segment.toChunk_lined (segment : Segment) (constants : Array Value) : (segment.toChunk constants true).Lined := by
  simp [Chunk.Lined, toChunk, length_lines, length_bytes]

end Bytecode

namespace Machine

open Bytecode (CompiledUnit Chunk)

/-- The program without lines, as it is built without debugging. -/
def Program.withoutLines (program : Program) : Program where
  entry := { program.entry with debug := false }
  initials := program.initials.map CompiledUnit.withoutLines
  units := program.units.map CompiledUnit.withoutLines
  functions := linkFunctions (program.units.map CompiledUnit.withoutLines)

/-- The chunks of a program. -/
def Program.chunks (program : Program) : List Chunk := program.bodies.flatMap CompiledUnit.chunks

end Machine

private theorem except_bind_map {ε α β γ : Type} {first : Except ε α} {rest : α → Except ε γ} {rest' : α → Except ε β} {f : β → γ}
    (each : ∀ a, rest a = (rest' a).map f) : (first >>= rest) = (first >>= rest').map f := by
  cases first with
  | error error => rfl
  | ok a => exact each a

/-- What maps to the images of what others map to maps a list to the image of what these map it to. -/
theorem mapM_image {α β γ : Type} {m : Type → Type} [Monad m] [LawfulMonad m] {f : α → m γ} {g : α → m β} {h : β → γ}
    {list : List α} (each : ∀ a ∈ list, f a = h <$> g a) : list.mapM f = List.map h <$> list.mapM g := by
  induction list with
  | nil => simp
  | cons a list ih =>
    obtain ⟨first, rest⟩ := List.forall_mem_cons.mp each
    simp only [List.mapM_cons, first, ih rest, map_bind, map_pure, bind_map_left, List.map_cons]

namespace Compile

open Bytecode (Chunk CompiledUnit Segment initArtifact mainArtifact)
open Machine (Program linkFunctions)
open Script (Environment FunctionDecl GlobalDecl ParsedUnit)

variable {env : Environment} {units : List ParsedUnit} {artifacts artifacts' : ArtifactSet}

private theorem chunk_plain (code : Coding Segment) (line : Nat) :
    chunk code line false = (chunk code line true).map Chunk.withoutLines := by
  unfold chunk
  exact except_bind_map fun _ => rfl

private theorem chunk_lined {code : Coding Segment} {line : Nat} {made : Chunk} (compiled : chunk code line true = .ok made) :
    made.Lined := by
  obtain ⟨⟨segment, progress⟩, -, same⟩ := except_bind_eq_ok.mp compiled
  cases same
  exact segment.toChunk_lined _

private theorem function_plain (ctx : Context) (decl : FunctionDecl) :
    function ctx false decl = (function ctx true decl).map Bytecode.Function.withoutLines := by
  simp only [function, chunk_plain]
  cases chunk (do body ctx (← parameters ctx decl.params) decl.body) decl.line true <;> rfl

private theorem initialValues_plain (env : Environment) (parsed : ParsedUnit) :
    initialValues env false parsed = (initialValues env true parsed).map CompiledUnit.withoutLines := by
  simp only [initialValues, chunk_plain]
  cases chunk (globalsCode ⟨parsed.name, env⟩ parsed.globals) firstLine true <;> rfl

/-- Without debugging a unit compiles to what it compiles to with it, without the lines. -/
theorem compileUnit_plain (env : Environment) (parsed : ParsedUnit) :
    compileUnit env false parsed = (compileUnit env true parsed).map CompiledUnit.withoutLines := by
  simp only [compileUnit, chunk_plain, mapM_image fun decl _ => function_plain ⟨parsed.name, env⟩ decl]
  cases parsed.functions.mapM (function ⟨parsed.name, env⟩ true) with
  | error error => rfl
  | ok functions => cases chunk (body ⟨parsed.name, env⟩ Scope.empty parsed.statements) firstLine true <;> rfl

private theorem compileInitials_plain (env : Environment) (units : List ParsedUnit) :
    compileInitials env false units = (compileInitials env true units).map (List.map CompiledUnit.withoutLines) := by
  simp only [compileInitials, mapM_image fun parsed _ => initialValues_plain env parsed]
  cases checkNames [] units with
  | error error => rfl
  | ok checked => rfl

private theorem program_plain (env : Environment) (units : List ParsedUnit) :
    program env false units = (program env true units).map Program.withoutLines := by
  simp only [program, compileInitials_plain, mapM_image fun parsed _ => compileUnit_plain env parsed]
  cases compileInitials env true units with
  | error error => rfl
  | ok initials => cases units.mapM (compileUnit env true) <;> rfl

private theorem initialValues_lined {parsed : ParsedUnit} {compiled : CompiledUnit}
    (made : initialValues env true parsed = .ok compiled) : ∀ chunk ∈ compiled.chunks, chunk.Lined := by
  obtain ⟨body, lined, same⟩ := except_bind_eq_ok.mp made
  cases same
  exact List.forall_mem_singleton.mpr (chunk_lined lined)

private theorem compileUnit_lined {parsed : ParsedUnit} {compiled : CompiledUnit}
    (made : compileUnit env true parsed = .ok compiled) : ∀ chunk ∈ compiled.chunks, chunk.Lined := by
  obtain ⟨functions, declared, rest⟩ := except_bind_eq_ok.mp made
  obtain ⟨body, lined, same⟩ := except_bind_eq_ok.mp rest
  cases same
  refine List.forall_mem_cons.mpr ⟨chunk_lined lined, ?_⟩
  intro chunk present
  obtain ⟨linked, held, rfl⟩ := List.mem_map.mp present
  obtain ⟨decl, -, made⟩ := mapM_mem declared held
  obtain ⟨body, lined, same⟩ := except_bind_eq_ok.mp made
  cases same
  exact chunk_lined lined

/-- A chunk of a program is of the initial values of one of its units, or of what that unit compiles to. -/
theorem program_chunks {made : Program} {debug : Bool} {chunk : Chunk} (compiled : program env debug units = .ok made)
    (present : chunk ∈ made.chunks) : ∃ parsed ∈ units, ∃ compiled : CompiledUnit, chunk ∈ compiled.chunks ∧
      (initialValues env debug parsed = .ok compiled ∨ compileUnit env debug parsed = .ok compiled) := by
  obtain ⟨initials, first, rest⟩ := except_bind_eq_ok.mp compiled
  obtain ⟨stored, second, same⟩ := except_bind_eq_ok.mp rest
  cases same
  obtain ⟨_, -, mapped⟩ := except_bind_eq_ok.mp first
  obtain ⟨compiled, inside, there⟩ := List.mem_flatMap.mp present
  rcases List.mem_append.mp inside with initial | unit
  · obtain ⟨parsed, kept, made⟩ := mapM_mem mapped initial
    exact ⟨parsed, List.mem_of_mem_filter kept, compiled, there, .inl made⟩
  · obtain ⟨parsed, held, made⟩ := mapM_mem second unit
    exact ⟨parsed, held, compiled, there, .inr made⟩

/-- With debugging every chunk of a program has its lines. -/
theorem program_lined {made : Program} (compiled : program env true units = .ok made) : ∀ chunk ∈ made.chunks, chunk.Lined := by
  intro chunk present
  obtain ⟨parsed, -, unit, there, initial | stored⟩ := program_chunks compiled present
  · exact initialValues_lined initial chunk there
  · exact compileUnit_lined stored chunk there

/-- Artifacts of the same names. -/
def SameNames (artifacts artifacts' : ArtifactSet) : Prop := ∀ name, name ∈ artifacts ↔ name ∈ artifacts'

theorem SameNames.insert (same : SameNames artifacts artifacts') (name payload payload' : String) :
    SameNames (artifacts.insert name payload) (artifacts'.insert name payload') := by
  intro other
  rw [Std.TreeMap.mem_insert, Std.TreeMap.mem_insert, same other]

private theorem storeUnits_plain (env : Environment) (same : SameNames artifacts' artifacts) (units : List ParsedUnit) :
    (storeUnits env false artifacts' units).result = (storeUnits env true artifacts units).result ∧
      SameNames (storeUnits env false artifacts' units).artifacts (storeUnits env true artifacts units).artifacts := by
  induction units generalizing artifacts artifacts' with
  | nil => exact ⟨rfl, same⟩
  | cons parsed units ih =>
    rw [storeUnits, storeUnits, compileUnit_plain]
    cases compileUnit env true parsed with
    | error error => exact ⟨rfl, same⟩
    | ok compiled => exact ih (same.insert _ _ _)

/-- With and without debugging a group compiles, or fails in the same way, and leaves artifacts of the same names. -/
theorem compileGroup_plain (artifacts : ArtifactSet) (env : Environment) (units : List ParsedUnit) :
    (compileGroup env false units artifacts).result = (compileGroup env true units artifacts).result ∧
      SameNames (compileGroup env false units artifacts).artifacts (compileGroup env true units artifacts).artifacts := by
  rw [compileGroup, compileGroup, compileInitials_plain]
  cases compileInitials env true units with
  | error error => exact ⟨rfl, fun _ => Iff.rfl⟩
  | ok initials =>
    have begun : SameNames artifacts artifacts := fun _ => Iff.rfl
    obtain ⟨result, names⟩ := storeUnits_plain env (begun.insert initArtifact
      (Bytecode.initialsPayload (initials.map CompiledUnit.withoutLines)) (Bytecode.initialsPayload initials)) units
    simp only [Except.map, result]
    cases (storeUnits env true (artifacts.insert initArtifact (Bytecode.initialsPayload initials)) units).result with
    | error error => exact ⟨result, names⟩
    | ok done => exact ⟨rfl, names.insert _ _ _⟩

end Compile

/-! ## Loading -/

namespace Bytecode

theorem Chunk.reread?_withoutLines (chunk : Chunk) : chunk.withoutLines.reread? = chunk.reread?.map withoutLines := by
  simp only [reread?, Option.map_map]
  rfl

theorem Function.reread?_withoutLines (function : Function) :
    function.withoutLines.reread? = function.reread?.map withoutLines := by
  simp only [reread?, withoutLines, Chunk.reread?_withoutLines, Option.map_map]
  rfl

theorem CompiledUnit.reread?_withoutLines (compiled : CompiledUnit) :
    compiled.withoutLines.reread? = compiled.reread?.map withoutLines := by
  have functions : (compiled.functions.map Function.withoutLines).mapM Function.reread? =
      List.map Function.withoutLines <$> compiled.functions.mapM Function.reread? := by
    rw [List.mapM_map]
    exact mapM_image fun function _ => Function.reread?_withoutLines function
  simp only [reread?, withoutLines, Chunk.reread?_withoutLines, functions]
  cases compiled.body.reread? with
  | none => rfl
  | some body => cases compiled.functions.mapM Function.reread? <;> rfl

end Bytecode

namespace Compile

open Bytecode (CompiledUnit EntryPoint initArtifact mainArtifact)
open Machine (Program linkFunctions)
open Script (Environment ParsedUnit)

/-- An artifact that reads as another one does, but for a change, is what the other one is with this change. -/
theorem artifact_map {α β : Type} {f : α → β} {artifacts artifacts' : ArtifactSet} {name payload payload' : String}
    {ofPayload? : String → Option α} {ofPayload?' : String → Option β} (found : artifacts.get? name = some payload)
    (found' : artifacts'.get? name = some payload') (reads : ofPayload?' payload' = (ofPayload? payload).map f) :
    Program.artifact artifacts' name ofPayload?' = (Program.artifact artifacts name ofPayload?).map f := by
  simp only [Program.artifact, found, found', reads]
  cases ofPayload? payload <;> rfl

/-- Artifacts that read as others do, but for the lines, are the same program without lines, or none for the same reason. -/
theorem load_map {artifacts artifacts' : ArtifactSet} {entry : EntryPoint}
    (main : Program.artifact artifacts mainArtifact EntryPoint.ofPayload? = .ok entry)
    (main' : Program.artifact artifacts' mainArtifact EntryPoint.ofPayload? = .ok { entry with debug := false })
    (initials : Program.artifact artifacts' initArtifact Bytecode.initials? =
      (Program.artifact artifacts initArtifact Bytecode.initials?).map (List.map CompiledUnit.withoutLines))
    (units : ∀ name ∈ entry.units, Program.artifact artifacts' name CompiledUnit.ofPayload? =
      (Program.artifact artifacts name CompiledUnit.ofPayload?).map CompiledUnit.withoutLines) :
    Program.load artifacts' = (Program.load artifacts).map Program.withoutLines := by
  rw [Program.load, Program.load, main, main', initials]
  cases Program.artifact artifacts initArtifact Bytecode.initials? with
  | error error => rfl
  | ok initials =>
    show entry.units.mapM (fun name => Program.artifact artifacts' name CompiledUnit.ofPayload?) >>= _ =
      Except.map _ (entry.units.mapM (fun name => Program.artifact artifacts name CompiledUnit.ofPayload?) >>= _)
    rw [mapM_image units]
    cases entry.units.mapM fun name => Program.artifact artifacts name CompiledUnit.ofPayload? <;> rfl

section
variable {env : Environment} {units : List ParsedUnit} {made : Program}

private theorem program_withoutLines (compiled : program env true units = .ok made) :
    program env false units = .ok made.withoutLines := by
  rw [program_plain, compiled]
  rfl

/-- What a group compiles to without debugging loads as what it compiles to with it, without the lines. Where the one does not
load, the other does not for the same reason. -/
theorem load_plain (artifacts : ArtifactSet) (within : ∀ parsed ∈ units, parsed.Within Json.maxInteger)
    (compiled : program env true units = .ok made) :
    Program.load (emitted artifacts units made.withoutLines) =
      (Program.load (emitted artifacts units made)).map Program.withoutLines := by
  have plain := program_withoutLines compiled
  obtain ⟨checked, lengths, entry⟩ := program_parts compiled
  obtain ⟨-, lengths', -⟩ := program_parts plain
  obtain ⟨main, init, each⟩ := emitted_get? artifacts checked lengths
  obtain ⟨main', init', each'⟩ := emitted_get? artifacts checked lengths'
  have fits := program_fits within compiled
  have fits' := program_fits within plain
  refine load_map (?_ : Program.artifact _ _ _ = .ok made.entry) ?_ ?_ ?_
  · simp only [Program.artifact, main, Bytecode.entryPoint_ofPayload?_payload]
  · simp only [Program.artifact, main', Bytecode.entryPoint_ofPayload?_payload]
    rfl
  · refine artifact_map init init' ?_
    rw [Bytecode.initials?_payload fun compiled present => fits compiled (List.mem_append_left _ present),
      Bytecode.initials?_payload fun compiled present => fits' compiled (List.mem_append_left _ present)]
    rw [Program.withoutLines, List.mapM_map]
    exact mapM_image fun compiled _ => CompiledUnit.reread?_withoutLines compiled
  · intro name listed
    rw [entry] at listed
    obtain ⟨parsed, inside, rfl⟩ := List.mem_map.mp listed
    rw [← List.map_fst_zip lengths.le] at inside
    obtain ⟨⟨kept, unit⟩, both, rfl⟩ := List.mem_map.mp inside
    have both' : (kept, unit.withoutLines) ∈ units.zip made.withoutLines.units := by
      rw [Program.withoutLines, List.zip_map_right]
      exact List.mem_map.mpr ⟨_, both, rfl⟩
    refine artifact_map (each _ _ both) (each' _ _ both') ?_
    rw [Bytecode.ofPayload?_payload (fits _ (List.mem_append_right _ (List.of_mem_zip both).2)),
      Bytecode.ofPayload?_payload (fits' _ (List.mem_append_right _ (List.of_mem_zip both').2)), unit.reread?_withoutLines]

end

end Compile

/-! ## Running -/

namespace Machine

open Bytecode (Chunk CompiledUnit)
open Compile (except_bind_eq_ok getElem?_insertAll linkFunctions_eq linkedOf)

/-- The function without its lines. -/
def LinkedFunction.withoutLines (linked : LinkedFunction) : LinkedFunction :=
  { linked with function := linked.function.withoutLines }

/-- The call in code without lines. -/
def Frame.withoutLines (frame : Frame) : Frame := { frame with chunk := frame.chunk.withoutLines }

/-- The machine at work on code without lines. -/
def State.withoutLines (state : State) : State :=
  { state with frame := state.frame.withoutLines, callers := state.callers.map Frame.withoutLines }

/-- The place without the line. -/
def Site.withoutLine (site : Site) : Site := { site with line := none }

/-- The error at the place without the line. -/
def RunError.withoutLine (error : RunError) : RunError := { error with site := error.site.map Site.withoutLine }

/-- What the line adds to the wording of a place. -/
def Site.lineSuffix (site : Site) : String := site.line.elim "" fun line => s!":{line}"

theorem Site.text_eq (site : Site) : site.text = site.withoutLine.text ++ site.lineSuffix := by
  obtain ⟨unit, _ | line⟩ := site
  · exact (String.append_empty).symm
  · simp [text, withoutLine, lineSuffix, toString, String.append_assoc]

/-- The wordings of an error with and without the line differ in what the line adds to the place. -/
theorem RunError.message_at {error : RunError} {site : Site} (placed : error.site = some site) :
    error.message = s!"{error.fault.message} (at {site.withoutLine.text ++ site.lineSuffix})" ∧
      error.withoutLine.message = s!"{error.fault.message} (at {site.withoutLine.text})" := by
  rw [← Site.text_eq]
  simp only [message, withoutLine, placed, Option.map_some, and_self]

private theorem fetch_withoutLines (chunk : Chunk) (offset : Nat) : fetch chunk.withoutLines offset = fetch chunk offset := rfl

namespace Effect

/-- The same result, left by a machine that works on code without lines. -/
def withoutLines {α : Type} : EStateM.Result Fault State α → EStateM.Result Fault State α
  | .ok a state => .ok a state.withoutLines
  | .error fault state => .error fault state.withoutLines

/-- An effect that does not look at lines. -/
def Lineless {α : Type} (effect : Effect α) : Prop := ∀ state, effect state.withoutLines = withoutLines (effect state)

theorem Lineless.bind {α β : Type} {first : Effect α} {rest : α → Effect β} (firstLineless : Lineless first)
    (restLineless : ∀ a, Lineless (rest a)) : Lineless (first >>= rest) := by
  intro state
  show EStateM.bind first rest state.withoutLines = withoutLines (EStateM.bind first rest state)
  unfold EStateM.bind
  rw [firstLineless state]
  cases first state with
  | ok a next => exact restLineless a next
  | error fault next => rfl

theorem Lineless.ite {α : Type} {first second : Effect α} (test : State → Prop) [DecidablePred test]
    (same : ∀ state, test state.withoutLines ↔ test state) (firstLineless : Lineless first) (secondLineless : Lineless second) :
    Lineless fun state => if test state then first state else second state := by
  intro state
  by_cases holds : test state
  · simp only [if_pos ((same state).mpr holds), if_pos holds, firstLineless state]
  · simp only [if_neg (mt (same state).mp holds), if_neg holds, secondLineless state]

private theorem pure_lineless {α : Type} (a : α) : Lineless (pure a) := fun _ => rfl

private theorem push_lineless (value : Value) : Lineless (push value) := fun _ => rfl

private theorem skip_lineless (distance : UInt16) : Lineless (skip distance) := fun _ => rfl

private theorem defineGlobal_lineless (name : String) (value : Value) : Lineless (defineGlobal name value) := fun _ => rfl

private theorem pop_lineless : Lineless pop := by
  intro state
  simp only [pop, State.withoutLines]
  cases state.stack.back? <;> rfl

private theorem top_lineless : Lineless top := by
  intro state
  simp only [top, State.withoutLines]
  cases state.stack.back? <;> rfl

private theorem constant_lineless (index : UInt16) : Lineless (constant index) := by
  intro state
  simp only [constant, constantAt, State.withoutLines, Frame.withoutLines, Chunk.withoutLines]
  cases state.frame.chunk.constants[index.toNat]? <;> rfl

private theorem name_lineless (index : UInt16) : Lineless (name index) := by
  intro state
  have same : nameAt state.withoutLines.frame.chunk index = nameAt state.frame.chunk index := rfl
  simp only [name, same]
  cases nameAt state.frame.chunk index <;> rfl

private theorem getLocal_lineless (index : UInt8) : Lineless (getLocal index) := by
  intro state
  simp only [getLocal, State.withoutLines, Frame.withoutLines]
  cases state.stack[state.frame.base + index.toNat]? <;> rfl

private theorem setLocal_lineless (index : UInt8) (value : Value) : Lineless (setLocal index value) :=
  Lineless.ite (fun state => state.frame.base + index.toNat < state.stack.size) (fun _ => Iff.rfl) (fun _ => rfl) fun _ => rfl

private theorem getGlobal_lineless (name : String) : Lineless (getGlobal name) := by
  intro state
  simp only [getGlobal, State.withoutLines]
  cases state.globals[name]? <;> rfl

private theorem setGlobal_lineless (name : String) (value : Value) : Lineless (setGlobal name value) :=
  Lineless.ite (fun state => state.globals.contains name) (fun _ => Iff.rfl) (defineGlobal_lineless name value) fun _ => rfl

private theorem operate_lineless (applied : Except OperatorFault Value) : Lineless (operate applied) := by
  cases applied with
  | ok value => exact push_lineless value
  | error fault => exact fun _ => rfl

private theorem goBack_lineless (distance : UInt16) : Lineless (goBack distance) :=
  Lineless.ite (fun state => distance.toNat ≤ state.frame.offset) (fun _ => Iff.rfl) (fun _ => rfl) fun _ => rfl

end Effect

open Effect in
/-- Instructions do not look at lines. -/
theorem execute_lineless (instruction : Bytecode.Instruction) : Lineless (execute instruction) := by
  cases instruction with
  | constant index => exact (constant_lineless index).bind push_lineless
  | pushNull => exact push_lineless _
  | pushTrue => exact push_lineless _
  | pushFalse => exact push_lineless _
  | pop => exact pop_lineless.bind fun _ => pure_lineless _
  | getLocal index => exact (getLocal_lineless index).bind push_lineless
  | setLocal index => exact top_lineless.bind (setLocal_lineless index)
  | getGlobal index => exact (name_lineless index).bind fun name => (getGlobal_lineless name).bind push_lineless
  | setGlobal index => exact (name_lineless index).bind fun name => top_lineless.bind (setGlobal_lineless name)
  | defineGlobal index => exact (name_lineless index).bind fun name => pop_lineless.bind (defineGlobal_lineless name)
  | binary op => exact pop_lineless.bind fun _ => pop_lineless.bind fun _ => operate_lineless _
  | unary op => exact pop_lineless.bind fun _ => operate_lineless _
  | jump distance => exact skip_lineless distance
  | jumpIfFalse distance | jumpIfTrue distance =>
    refine top_lineless.bind fun value => ?_
    split
    · exact skip_lineless distance
    · exact pure_lineless _
  | loop distance => exact goBack_lineless distance
  | call name count => exact pure_lineless _
  | giveBack => exact pure_lineless _

section
variable {σ : Type}

/-- The same step of a machine that works on code without lines. -/
def Step.withoutLines : Step σ → Step σ
  | running state host => running state.withoutLines host
  | returned state host => returned state.withoutLines host
  | failed error state host => failed error.withoutLine state.withoutLines host
  | panicked panic state host => panicked panic state.withoutLines host

private theorem linkedOf_withoutLines (units : List CompiledUnit) :
    linkedOf (units.map CompiledUnit.withoutLines) = (linkedOf units).map LinkedFunction.withoutLines := by
  simp only [linkedOf, List.flatMap_map, List.map_flatMap, CompiledUnit.withoutLines, List.map_map]
  rfl

variable {program : Program} (linked : program.functions = linkFunctions program.units)

include linked

/-- Calls find the same functions, without lines. -/
theorem functions_withoutLines (name : String) :
    program.withoutLines.functions[name]? = program.functions[name]?.map LinkedFunction.withoutLines := by
  have lookup : ∀ units : List CompiledUnit,
      (linkFunctions units)[name]? = (linkedOf units).reverse.find? fun found => found.function.name == name := by
    intro units
    rw [linkFunctions_eq, getElem?_insertAll]
    simp
  rw [linked, Program.withoutLines, lookup, lookup, linkedOf_withoutLines, ← List.map_reverse, List.find?_map]
  rfl

variable (natives : Natives σ)

omit linked in
private theorem executeReturn_withoutLines (site : Site) (state : State) (host : σ) :
    executeReturn site.withoutLine state.withoutLines host = (executeReturn site state host).withoutLines := by
  unfold executeReturn
  rw [Effect.pop_lineless]
  cases Effect.pop state with
  | error fault next => rfl
  | ok value next =>
    have callers : next.withoutLines.callers = next.callers.map Frame.withoutLines := rfl
    simp only [Effect.withoutLines, callers]
    cases next.callers with
    | nil => rfl
    | cons caller callers => rfl

private theorem executeCall_withoutLines (site : Site) (name : String) (count : Nat) (state : State) (host : σ) :
    executeCall program.withoutLines natives site.withoutLine name count state.withoutLines host =
      (executeCall program natives site name count state host).withoutLines := by
  have stack : state.withoutLines.stack = state.stack := rfl
  have depth : state.withoutLines.depth = state.depth := rfl
  unfold executeCall
  rw [functions_withoutLines linked]
  simp only [stack, depth]
  by_cases short : state.stack.size < count
  · simp only [if_pos short]
    rfl
  · simp only [if_neg short]
    cases program.functions[name]? with
    | some found =>
      have arity : found.withoutLines.function.arity = found.function.arity := rfl
      simp only [Option.map_some, arity]
      by_cases wrong : found.function.arity ≠ count
      · simp only [if_pos wrong]
        rfl
      · by_cases full : maxDepth ≤ state.depth
        · simp only [if_neg wrong, if_pos full]
          rfl
        · simp only [if_neg wrong, if_neg full]
          rfl
    | none =>
      simp only [Option.map_none]
      cases natives.get? name with
      | none => rfl
      | some native =>
        by_cases refused : !native.accepts count
        · simp only [if_pos refused]
          rfl
        · simp only [if_neg refused]
          rcases native.call (state.stack.extract (state.stack.size - count)).toList host with ⟨_ | _ | _, after⟩ <;> rfl

omit linked in
private theorem executed_withoutLines (instruction : Bytecode.Instruction) (site : Site) (state : State) (host : σ) :
    (match execute instruction state.withoutLines with
      | .ok () next => Step.running next host
      | .error fault next => .failed ⟨fault, site.withoutLine⟩ next host) =
    (match execute instruction state with
      | .ok () next => Step.running next host
      | .error fault next => .failed ⟨fault, site⟩ next host).withoutLines := by
  rw [execute_lineless]
  cases execute instruction state <;> rfl

private theorem called_withoutLines (index : UInt16) (count : Nat) (site : Site) (state : State) (host : σ) :
    (match Effect.name index state.withoutLines with
      | .error fault next => Step.failed ⟨fault, site.withoutLine⟩ next host
      | .ok name next => executeCall program.withoutLines natives site.withoutLine name count next host) =
    (match Effect.name index state with
      | .error fault next => Step.failed ⟨fault, site⟩ next host
      | .ok name next => executeCall program natives site name count next host).withoutLines := by
  rw [Effect.name_lineless]
  cases Effect.name index state with
  | error fault next => rfl
  | ok name next => exact executeCall_withoutLines linked natives site name count next host

/-- A step of a program without lines is the step of the program, but for the lines. -/
theorem step_withoutLines (state : State) (host : σ) :
    step program.withoutLines natives state.withoutLines host = (step program natives state host).withoutLines := by
  have fetched : fetch state.withoutLines.frame.chunk state.withoutLines.frame.offset =
      fetch state.frame.chunk state.frame.offset := fetch_withoutLines _ _
  unfold step
  rw [fetched]
  cases fetch state.frame.chunk state.frame.offset with
  | error fault => rfl
  | ok instruction =>
    let next : State := { state with frame := { state.frame with offset := state.frame.offset + instruction.size } }
    let site : Site := state.frame.site
    have executed := executed_withoutLines instruction site next host
    cases instruction with
    | giveBack => exact executeReturn_withoutLines site next host
    | call index count => exact called_withoutLines linked natives index count.toNat site next host
    | constant | pushNull | pushTrue | pushFalse | pop | getLocal | setLocal | getGlobal | setGlobal | defineGlobal
      | binary | unary | jump | jumpIfFalse | jumpIfTrue | loop => exact executed

end

/-- The result, with the error at the place without the line. -/
def RunResult.withoutLine : RunResult → RunResult
  | finished => finished
  | failed error => failed error.withoutLine
  | panicked panic => panicked panic

/-- The same end of a run, with the error at the place without the line. -/
def Ended.withoutLine {σ : Type} (ended : Ended σ) : Ended σ := { ended with result := ended.result.withoutLine }

section
variable {σ : Type} {program : Program} (linked : program.functions = linkFunctions program.units) (natives : Natives σ)

include linked

private theorem runSteps_withoutLines (depth steps : Nat) (state : State) (host : σ) :
    runSteps program.withoutLines natives depth steps state.withoutLines host =
      (runSteps program natives depth steps state host).map Ended.withoutLine := by
  induction steps generalizing state host with
  | zero => rfl
  | succ steps ih =>
    rw [runSteps, runSteps, step_withoutLines linked]
    cases step program natives state host with
    | running next after => exact ih next after
    | returned | failed | panicked => rfl

private theorem runBody_withoutLines (steps : Nat) (compiled : CompiledUnit) (memory : Memory) (host : σ) :
    runBody program.withoutLines natives steps compiled.withoutLines memory host =
      (runBody program natives steps compiled memory host).map Ended.withoutLine := by
  unfold runBody
  by_cases full : maxDepth ≤ memory.depth
  · rw [if_pos full, if_pos full]
    rfl
  · rw [if_neg full, if_neg full]
    exact runSteps_withoutLines linked natives memory.depth steps
      ⟨⟨compiled.body, compiled.source, 0, 0⟩, [], memory.depth + 1, #[], memory.globals⟩ host

private theorem runBodies_withoutLines (steps : Nat) (bodies : List CompiledUnit) (memory : Memory) (host : σ) :
    runBodies program.withoutLines natives steps memory host (bodies.map CompiledUnit.withoutLines) =
      (runBodies program natives steps memory host bodies).map Ended.withoutLine := by
  induction bodies generalizing memory host with
  | nil => rfl
  | cons compiled bodies ih =>
    rw [List.map_cons, runBodies, runBodies, runBody_withoutLines linked]
    rcases runBody program natives steps compiled memory host with _ | ⟨_ | _ | _, memory, host⟩
    · rfl
    · exact ih memory host
    · rfl
    · rfl

omit linked in
private theorem bodies_withoutLines : program.withoutLines.bodies = program.bodies.map CompiledUnit.withoutLines :=
  List.map_append.symm

/-- A program without lines runs as it does with them, but for the line in the place of an error. -/
theorem Memory.run_withoutLines (steps : Nat) (memory : Memory) (host : σ) :
    memory.run program.withoutLines natives steps host = (memory.run program natives steps host).map Ended.withoutLine := by
  rw [Memory.run, bodies_withoutLines]
  exact runBodies_withoutLines linked natives steps program.bodies memory host

private theorem callsOfStep_withoutLines (state : State) (host : σ) :
    callsOfStep program.withoutLines natives state.withoutLines host = callsOfStep program natives state host := by
  rw [callsOfStep, callsOfStep, step_withoutLines linked]
  cases step program natives.noting state (host, []) <;> rfl

private theorem callsOfSteps_withoutLines (steps : Nat) (state : State) (host : σ) :
    callsOfSteps program.withoutLines natives steps state.withoutLines host = callsOfSteps program natives steps state host := by
  induction steps generalizing state host with
  | zero => rfl
  | succ steps ih =>
    rw [callsOfSteps, callsOfSteps, callsOfStep_withoutLines linked, step_withoutLines linked]
    congr 1
    cases step program natives state host with
    | running next after => exact ih next after
    | returned | failed | panicked => rfl

private theorem callsOfBody_withoutLines (steps : Nat) (compiled : CompiledUnit) (memory : Memory) (host : σ) :
    callsOfBody program.withoutLines natives steps compiled.withoutLines memory host =
      callsOfBody program natives steps compiled memory host := by
  unfold callsOfBody
  split
  · rfl
  · exact callsOfSteps_withoutLines linked natives steps
      ⟨⟨compiled.body, compiled.source, 0, 0⟩, [], memory.depth + 1, #[], memory.globals⟩ host

private theorem callsOfBodies_withoutLines (steps : Nat) (bodies : List CompiledUnit) (memory : Memory) (host : σ) :
    callsOfBodies program.withoutLines natives steps memory host (bodies.map CompiledUnit.withoutLines) =
      callsOfBodies program natives steps memory host bodies := by
  induction bodies generalizing memory host with
  | nil => rfl
  | cons compiled bodies ih =>
    rw [List.map_cons, callsOfBodies, callsOfBodies, callsOfBody_withoutLines linked, runBody_withoutLines linked]
    congr 1
    rcases runBody program natives steps compiled memory host with _ | ⟨_ | _ | _, memory, host⟩
    · rfl
    · exact ih memory host
    · rfl
    · rfl

/-- A program without lines calls the natives that it calls with them. -/
theorem Memory.calls_withoutLines (steps : Nat) (memory : Memory) (host : σ) :
    memory.calls program.withoutLines natives steps host = memory.calls program natives steps host := by
  rw [Memory.calls, bodies_withoutLines]
  exact callsOfBodies_withoutLines linked natives steps program.bodies memory host

end

theorem Program.load_linked {artifacts : ArtifactSet} {program : Program} (loaded : Program.load artifacts = .ok program) :
    program.functions = linkFunctions program.units := by
  obtain ⟨entry, -, rest⟩ := except_bind_eq_ok.mp loaded
  obtain ⟨initials, -, rest⟩ := except_bind_eq_ok.mp rest
  obtain ⟨units, -, same⟩ := except_bind_eq_ok.mp rest
  cases same
  rfl

end Machine

/-! ## With debugging and without it -/

namespace Bytecode

/-- A chunk as it is compiled without debugging and with it. -/
structure Chunk.LinesApart (plain lined : Chunk) : Prop where
  code : plain.code = lined.code
  constants : plain.constants = lined.constants
  none : plain.lines = #[]
  each : lined.Lined

theorem Chunk.Lined.apart {chunk : Chunk} (lined : chunk.Lined) : chunk.withoutLines.LinesApart chunk := ⟨rfl, rfl, rfl, lined⟩

end Bytecode

namespace Compile

open Bytecode (Chunk CompiledUnit)
open Machine (Ended Memory Program)
open Script (Environment ParsedUnit)

private theorem chunks_withoutLines (program : Program) : program.withoutLines.chunks = program.chunks.map Chunk.withoutLines := by
  simp only [Program.chunks, Machine.bodies_withoutLines, List.flatMap_map, List.map_flatMap, CompiledUnit.chunks,
    CompiledUnit.withoutLines, List.map_cons, List.map_map]
  rfl

/-- With and without debugging a group fails with the same error, or compiles to artifacts of the same names. Then each chunk
has the same code and the same constants, and with debugging a line for each byte of the code. The artifacts load as the same
program but for the lines, or do not load for the same reason; and however such a program is run, it makes the same calls of
natives and comes to the same end, with the same globals and on the same host, but for the line in the place of an error, which is
a suffix of the place in the wording of the error. Lines are numbers of 64 bits. -/
theorem debug_keeps_lines (env : Environment) (units : List ParsedUnit) (artifacts : ArtifactSet)
    (within : ∀ parsed ∈ units, parsed.Within Json.maxInteger) :
    let plain := compileGroup env false units artifacts
    let lined := compileGroup env true units artifacts
    plain.result = lined.result ∧ SameNames plain.artifacts lined.artifacts ∧
      (lined.result = .ok () → ∃ made : Program,
        plain.artifacts = emitted artifacts units made.withoutLines ∧ lined.artifacts = emitted artifacts units made ∧
        List.Forall₂ Chunk.LinesApart made.withoutLines.chunks made.chunks ∧
        Program.load plain.artifacts = (Program.load lined.artifacts).map Program.withoutLines ∧
        ∀ program, Program.load lined.artifacts = .ok program →
          ∀ (σ : Type) (natives : Natives σ) (memory : Memory) (steps : Nat) (host : σ),
            memory.calls program.withoutLines natives steps host = memory.calls program natives steps host ∧
            memory.run program.withoutLines natives steps host = (memory.run program natives steps host).map Ended.withoutLine ∧
            ∀ ended error site, memory.run program natives steps host = some ended → ended.result = .failed error →
              error.site = some site →
              error.message = s!"{error.fault.message} (at {site.withoutLine.text ++ site.lineSuffix})" ∧
                error.withoutLine.message = s!"{error.fault.message} (at {site.withoutLine.text})") := by
  obtain ⟨result, names⟩ := compileGroup_plain artifacts env units
  refine ⟨result, names, fun succeeded => ?_⟩
  obtain ⟨made, compiled⟩ := compileGroup_result.mp succeeded
  have lined : compileGroup env true units artifacts = ⟨.ok (), emitted artifacts units made⟩ := compileGroup_ok compiled
  have plain : compileGroup env false units artifacts = ⟨.ok (), emitted artifacts units made.withoutLines⟩ :=
    compileGroup_ok (program_withoutLines compiled)
  refine ⟨made, congrArg Compiled.artifacts plain, congrArg Compiled.artifacts lined, ?_, ?_, ?_⟩
  · rw [chunks_withoutLines, List.forall₂_map_left_iff, List.forall₂_same]
    exact fun chunk present => (program_lined compiled chunk present).apart
  · rw [plain, lined]
    exact load_plain artifacts within compiled
  · intro program loaded σ natives memory steps host
    have linked := Program.load_linked loaded
    exact ⟨memory.calls_withoutLines linked natives steps host, memory.run_withoutLines linked natives steps host,
      fun _ _ _ _ _ placed => Machine.RunError.message_at placed⟩

theorem ratesUnit_keeps_lines :
    let env := (Environment.initial "group" [] []).declareUnit ratesUnit
    let plain := compileGroup env false [ratesUnit] ∅
    let lined := compileGroup env true [ratesUnit] ∅
    lined.result = .ok () ∧ plain.result = lined.result ∧ SameNames plain.artifacts lined.artifacts ∧
      ∃ made : Program, plain.artifacts = emitted ∅ [ratesUnit] made.withoutLines ∧ lined.artifacts = emitted ∅ [ratesUnit] made ∧
        List.Forall₂ Chunk.LinesApart made.withoutLines.chunks made.chunks := by
  intro env plain lined
  have kept := debug_keeps_lines env [ratesUnit] ∅ (Environment.parseAll_within ratesSource_lines ratesSource_parses)
  obtain ⟨made, plainly, withLines, chunks, -⟩ := kept.2.2 ratesUnit_compiles
  exact ⟨ratesUnit_compiles, kept.1, kept.2.1, made, plainly, withLines, chunks⟩

end Compile

end Scriptorium
