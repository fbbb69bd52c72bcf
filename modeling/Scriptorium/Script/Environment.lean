import Scriptorium.Script.Tree

/-!
# The environment of a group

The units of a group are parsed one after the other against one environment. It knows the natives,
the handlers of bracket expressions, and the globals and functions that the units parsed so far
declare.
-/
namespace Scriptorium.Script

/-- Gives the value of a bracket expression from the parts between its colons, if it knows one. -/
abbrev BracketHandler := List String → Option Value

namespace BracketHandler

/-- The handler of a namespace: `<namespace:rest>` stands for the text between the brackets. -/
def ofNamespace (space : String) : BracketHandler
  | first :: part :: parts =>
    if first = space then some (.text (":".intercalate (first :: part :: parts))) else none
  | _ => none

/-- The namespaces that are known where nothing else is said. -/
def defaultNamespaces : List String := ["item", "liquid", "ore"]

/-- The value that the first handler gives which knows one. -/
def resolve (handlers : List BracketHandler) (parts : List String) : Option Value :=
  handlers.findSome? (· parts)

/-- A list of handlers, for developers. -/
def inspectAll (handlers : List BracketHandler) : String :=
  s!"BracketRegistry \x7b handlers: {handlers.length} \x7d"

end BracketHandler

/-- What callers know of a function: the number of its parameters and the unit that declares it. -/
structure Signature where
  arity : Nat
  unit : String
deriving DecidableEq, Repr

/-- The environment of a group. Globals and functions stand with the last declared first. -/
structure Environment where
  group : String
  natives : List (String × Option Nat)
  brackets : List BracketHandler
  globals : List (String × String)
  functions : List (String × Signature)

namespace Environment

/-- The environment before any unit is parsed. -/
def initial (group : String) (natives : List (String × Option Nat)) (brackets : List BracketHandler) :
    Environment :=
  ⟨group, natives, brackets, [], []⟩

/-- The arity of a native, if there is one of that name. -/
def native? (env : Environment) (name : String) : Option (Option Nat) := env.natives.lookup name

/-- Whether a name is that of a native. -/
def isNative (env : Environment) (name : String) : Bool := (env.native? name).isSome

/-- Whether a name is that of a global. -/
def hasGlobal (env : Environment) (name : String) : Bool := (env.globals.lookup name).isSome

/-- What is known of the function of a name. -/
def function? (env : Environment) (name : String) : Option Signature := env.functions.lookup name

/-- The unit that declares a name as a global or a function. -/
def declaredIn (env : Environment) (name : String) : Option String :=
  (env.globals.lookup name).or ((env.function? name).map Signature.unit)

/-- Declares a global of a unit. -/
def declareGlobal (env : Environment) (unit name : String) : Environment :=
  { env with globals := (name, unit) :: env.globals }

/-- Declares a function of a unit. -/
def declareFunction (env : Environment) (unit name : String) (arity : Nat) : Environment :=
  { env with functions := (name, ⟨arity, unit⟩) :: env.functions }

/-- The environment after a unit is parsed. -/
def declareUnit (env : Environment) (unit : ParsedUnit) : Environment :=
  let env := unit.globals.foldl (fun env g => env.declareGlobal unit.name g.name) env
  unit.functions.foldl (fun env f => env.declareFunction unit.name f.name f.params.length) env

end Environment

end Scriptorium.Script
