/-!
# Compile errors

Why the units of a group do not compile, and the wording of each reason.
-/
namespace Scriptorium.Compile

/-- Why a unit does not compile. -/
inductive CompileCause
  | reservedArtifact (name : String)
  | sharedArtifact (name owner : String)
  | undefinedVariable (name : String)
  | functionAsValue (name : String)
  | immutable (name : String)
  | redeclared (name : String)
  | notFunction (name : String)
  | undefinedFunction (name : String)
  | wrongCount (name : String) (expected given : Nat)
  | tooManyArguments (name : String)
  | tooManyLocals
  | tooManyConstants
  | jumpTooLong
  | loopTooLong
  | nestedTooDeeply
deriving DecidableEq, Repr

/-- The wording of a cause. -/
def CompileCause.message : CompileCause → String
  | reservedArtifact name => s!"Artifact name {name} is reserved"
  | sharedArtifact name owner => s!"Artifact name {name} is already used by {owner}"
  | undefinedVariable name => s!"Undefined variable {name}"
  | functionAsValue name => s!"{name} is a function and cannot be used as a value"
  | immutable name => s!"Cannot assign to val {name}"
  | redeclared name => s!"{name} is already declared in this scope"
  | notFunction name => s!"{name} is not a function"
  | undefinedFunction name => s!"Undefined function {name}"
  | wrongCount name expected given => s!"{name} expects {expected} argument(s), got {given}"
  | tooManyArguments name => s!"Too many arguments in call to {name}"
  | tooManyLocals => "Too many local variables"
  | tooManyConstants => "Too many constants in one chunk"
  | jumpTooLong => "Too much code to jump over"
  | loopTooLong => "Loop body too large"
  | nestedTooDeeply => "Script nested too deeply"

/-- A cause, the unit it is found in, and the line. -/
structure CompileError where
  unit : String
  line : Nat
  cause : CompileCause
deriving DecidableEq, Repr

end Scriptorium.Compile
