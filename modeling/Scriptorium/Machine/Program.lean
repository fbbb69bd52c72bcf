import Scriptorium.Artifact
import Scriptorium.Bytecode.Codec
import Std.Data.HashMap

/-!
# Programs

The artifacts of a group, read back: the initial values of its globals, its units in the order in which
they run, and all its functions.
-/
namespace Scriptorium.Machine

open Bytecode (Chunk CompiledUnit EntryPoint Function mainArtifact initArtifact)
open Std (HashMap)

/-- A function and the name of the unit that declares it. -/
structure LinkedFunction where
  unit : String
  function : Function

/-- A group that is ready to run. -/
structure Program where
  entry : EntryPoint
  initials : List CompiledUnit
  units : List CompiledUnit
  functions : HashMap String LinkedFunction

/-- Why artifacts are no program. -/
inductive LoadError
  | missing (artifact : String)
  | undecodable (artifact : String)
deriving DecidableEq, Repr

/-- The functions of units by name; of several with one name, the last counts. -/
def linkFunctions (units : List CompiledUnit) : HashMap String LinkedFunction :=
  units.foldl (fun functions parsed =>
    parsed.functions.foldl (fun functions function =>
      functions.insert function.name ⟨parsed.source, function⟩) functions) ∅

namespace Program

/-- Reads an artifact back. -/
def artifact {α : Type} (artifacts : ArtifactSet) (name : String) (ofPayload? : String → Option α) :
    Except LoadError α :=
  match artifacts.get? name with
  | none => .error (.missing name)
  | some payload =>
    match ofPayload? payload with
    | none => .error (.undecodable name)
    | some value => .ok value

/-- The program of artifacts: the entry point is read first, then the initial values, then the units in
the order of the entry point. -/
def load (artifacts : ArtifactSet) : Except LoadError Program := do
  let entry ← artifact artifacts mainArtifact EntryPoint.ofPayload?
  let initials ← artifact artifacts initArtifact Bytecode.initials?
  let units ← entry.units.mapM fun name => artifact artifacts name CompiledUnit.ofPayload?
  return ⟨entry, initials, units, linkFunctions units⟩

/-- What runs: the initial values, and then the bodies of the units. -/
def bodies (program : Program) : List CompiledUnit := program.initials ++ program.units

end Program

end Scriptorium.Machine
