import Scriptorium.Operator

/-!
# Faults

What can go wrong while code runs, the wording of each fault, and the place that a fault is reported
from.
-/
namespace Scriptorium.Machine

/-- Something that goes wrong while code runs. -/
inductive Fault
  | operator (fault : OperatorFault)
  | unknownOpcode (byte : UInt8)
  | endOfCode
  | invalidConstant (index : UInt16)
  | notName (type : ValueType)
  | stackUnderflow
  | invalidSlot (slot : Nat)
  | undefinedGlobal (name : String)
  | invalidLoop
  | refused (native message : String)
  | undefinedFunction (name : String)
  | wrongCount (function : String) (expected given : Nat)
  | notAccepted (native : String) (given : Nat)
  | stackOverflow
deriving DecidableEq, Repr

/-- The sorts of faults. -/
inductive FaultKind
  | runtime
  | invalidCall
  | stackOverflow
deriving DecidableEq, Repr

namespace Fault

/-- The sort of a fault: calls that cannot be made are told from what goes wrong otherwise. -/
def kind : Fault → FaultKind
  | undefinedFunction _ | wrongCount .. | notAccepted .. => .invalidCall
  | stackOverflow => .stackOverflow
  | _ => .runtime

/-- What a fault says. -/
def detail : Fault → String
  | operator fault => fault.message
  | unknownOpcode byte => s!"Unknown opcode: {byte.toNat}"
  | endOfCode => "Unexpected end of bytecode"
  | invalidConstant index => s!"Invalid constant index {index.toNat}"
  | notName type => s!"Expected a name constant, found {type.name}"
  | stackUnderflow => "Stack underflow"
  | invalidSlot slot => s!"Invalid local slot {slot}"
  | undefinedGlobal name => s!"Undefined global {name}"
  | invalidLoop => "Invalid loop offset"
  | refused native message => s!"{native}: {message}"
  | undefinedFunction name => s!"Undefined function {name}"
  | wrongCount function expected given => s!"{function} expects {expected} argument(s), got {given}"
  | notAccepted native given => s!"{native} does not accept {given} argument(s)"
  | stackOverflow => "Stack overflow"

/-- The wording of a fault. -/
def message (fault : Fault) : String :=
  match fault.kind with
  | .runtime => s!"Runtime error: {fault.detail}"
  | .invalidCall => s!"Invalid function call: {fault.detail}"
  | .stackOverflow => fault.detail

end Fault

/-- A place in a unit; the line is known where the code keeps lines. -/
structure Site where
  unit : String
  line : Option Nat
deriving DecidableEq, Repr

/-- The wording of a place. -/
def Site.text (site : Site) : String :=
  match site.line with
  | some line => s!"{site.unit}:{line}"
  | none => site.unit

/-- A fault and where it arises. A fault before the first instruction has no place. -/
structure RunError where
  fault : Fault
  site : Option Site
deriving DecidableEq, Repr

/-- The wording of an error. -/
def RunError.message (error : RunError) : String :=
  match error.site with
  | some site => s!"{error.fault.message} (at {site.text})"
  | none => error.fault.message

end Scriptorium.Machine
