/-!
# Scopes

The locals that are visible at a place in a function or unit body. Each lives in the slot of the stack
that its value was left in, so that the slot of a local is the number of locals declared before it.
-/
namespace Scriptorium.Compile

/-- A local. -/
structure Local where
  name : String
  isMutable : Bool
deriving DecidableEq, Repr

/-- The visible locals, last declared first: those of the innermost scope and those around it. -/
structure Scope where
  here : List Local
  outer : List Local
deriving DecidableEq, Repr

/-- The greatest number of locals that are visible at once. -/
def maxLocals : Nat := 256

namespace Scope

/-- The scope of a chunk: no locals. -/
def empty : Scope := ⟨[], []⟩

/-- All visible locals, last declared first. -/
def all (scope : Scope) : List Local := scope.here ++ scope.outer

/-- A scope inside another one. -/
def nested (scope : Scope) : Scope := ⟨[], scope.all⟩

/-- The slot of the last declared local of a name, and whether it can be assigned to. -/
def find? (name : String) : List Local → Option (Nat × Bool)
  | [] => none
  | found :: rest => if found.name = name then some (rest.length, found.isMutable) else find? name rest

/-- The slot of the visible local of a name, and whether it can be assigned to. -/
def resolve? (scope : Scope) (name : String) : Option (Nat × Bool) := find? name scope.all

/-- Whether the innermost scope declares a name. -/
def declares (scope : Scope) (name : String) : Bool := scope.here.any (·.name == name)

/-- Declares a local in the innermost scope. -/
def declare (scope : Scope) (name : String) (isMutable : Bool) : Scope :=
  { scope with here := ⟨name, isMutable⟩ :: scope.here }

end Scope

end Scriptorium.Compile
