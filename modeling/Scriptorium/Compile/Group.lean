import Scriptorium.Artifact
import Scriptorium.Bytecode.Codec
import Scriptorium.Compile.Code

/-!
# Compiling a group

The parsed units of a group become artifacts: the initial values of the globals, one artifact for each
unit, and the entry point, stored in this order. A group that does not compile leaves behind what was
stored before the error, and never an entry point.
-/
namespace Scriptorium.Compile

open Bytecode (Chunk Segment CompiledUnit EntryPoint mainArtifact initArtifact)
open Script (Environment FunctionDecl GlobalDecl ParsedUnit)

/-- A chunk of some code, which ends by giving back null. -/
def chunk (code : Coding Segment) (line : Nat) (debug : Bool) : Except CompileError Chunk := do
  let ending : Coding Segment := return (← emit .pushNull) ++ (← emit .giveBack)
  let (segment, progress) ← StateT.run (do return (← code) ++ (← ending)) ⟨#[], line⟩
  return segment.toChunk progress.constants debug

/-- The line of a chunk before anything is looked at. -/
def firstLine : Nat := 1

/-- The code of the statements of a body. -/
def body (ctx : Context) (scope : Scope) (statements : List Script.Stmt) : Coding Segment := do
  return (← Compile.statements ctx scope maxNesting statements).1

/-- The scope of the parameters of a function, which can all be assigned to. -/
def parameters (ctx : Context) (params : List String) : Coding Scope :=
  params.foldlM (fun scope param => declareLocal ctx scope param true) Scope.empty

/-- A compiled function. -/
def function (ctx : Context) (debug : Bool) (decl : FunctionDecl) :
    Except CompileError Bytecode.Function := do
  let code : Coding Segment := do body ctx (← parameters ctx decl.params) decl.body
  return ⟨decl.name, decl.params.length, ← chunk code decl.line debug⟩

/-- The code that gives a global its initial value. -/
def globalCode (ctx : Context) (decl : GlobalDecl) : Coding Segment := do
  lookAt decl.line
  let value ← expression ctx Scope.empty maxNesting decl.initial
  return value ++ (← emit (.defineGlobal (← nameIndex ctx decl.name)))

/-- The code that gives globals their initial values, one after the other. -/
def globalsCode (ctx : Context) : List GlobalDecl → Coding Segment
  | [] => return []
  | decl :: decls => do
    let first ← globalCode ctx decl
    return first ++ (← globalsCode ctx decls)

/-- The initial values of the globals of a unit. -/
def initialValues (env : Environment) (debug : Bool) (parsed : ParsedUnit) :
    Except CompileError CompiledUnit := do
  return ⟨parsed.name, ← chunk (globalsCode ⟨parsed.name, env⟩ parsed.globals) firstLine debug, []⟩

/-- The functions and the body of a unit. -/
def compileUnit (env : Environment) (debug : Bool) (parsed : ParsedUnit) :
    Except CompileError CompiledUnit := do
  let ctx : Context := ⟨parsed.name, env⟩
  let functions ← parsed.functions.mapM (function ctx debug)
  let main ← chunk (body ctx Scope.empty parsed.statements) firstLine debug
  return ⟨parsed.name, main, functions⟩

/-- Refuses artifact names that are reserved or used twice; `used` holds those of the units before,
each with its unit. -/
def checkNames (used : List (String × String)) : List ParsedUnit → Except CompileError Unit
  | [] => .ok ()
  | parsed :: rest =>
    if parsed.artifact = mainArtifact ∨ parsed.artifact = initArtifact then
      .error ⟨parsed.name, 0, .reservedArtifact parsed.artifact⟩
    else
      match used.lookup parsed.artifact with
      | some owner => .error ⟨parsed.name, 0, .sharedArtifact parsed.artifact owner⟩
      | none => checkNames ((parsed.artifact, parsed.name) :: used) rest

/-- What compiling a group gives: success or an error, and the artifacts stored up to then. -/
structure Compiled where
  result : Except CompileError Unit
  artifacts : ArtifactSet

/-- Compiles units one after the other and stores each. -/
def storeUnits (env : Environment) (debug : Bool) (artifacts : ArtifactSet) : List ParsedUnit → Compiled
  | [] => ⟨.ok (), artifacts⟩
  | parsed :: rest =>
    match compileUnit env debug parsed with
    | .error error => ⟨.error error, artifacts⟩
    | .ok compiled => storeUnits env debug (artifacts.insert parsed.artifact compiled.payload) rest

/-- Where the execution of units begins. -/
def entryPoint (env : Environment) (debug : Bool) (units : List ParsedUnit) : EntryPoint :=
  ⟨env.group, debug, units.map ParsedUnit.artifact⟩

/-- Checks the artifact names of units and compiles the initial values of their globals. -/
def compileInitials (env : Environment) (debug : Bool) (units : List ParsedUnit) :
    Except CompileError (List CompiledUnit) := do
  checkNames [] units
  (units.filter (!·.globals.isEmpty)).mapM (initialValues env debug)

/-- Compiles the units of a group and adds their artifacts to others. -/
def compileGroup (env : Environment) (debug : Bool) (units : List ParsedUnit) (artifacts : ArtifactSet) :
    Compiled :=
  match compileInitials env debug units with
  | .error error => ⟨.error error, artifacts⟩
  | .ok initials =>
    let begun := artifacts.insert initArtifact (Bytecode.initialsPayload initials)
    let stored := storeUnits env debug begun units
    match stored.result with
    | .error _ => stored
    | .ok () =>
      { stored with artifacts := stored.artifacts.insert mainArtifact (entryPoint env debug units).payload }

end Scriptorium.Compile
