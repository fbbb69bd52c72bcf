import Mathlib.Data.List.Basic
import Scriptorium.Artifact
import Scriptorium.Native
import Scriptorium.Script.Tree

/-!
# Scoping

The rules of scoping say of each construct of a syntax tree, and of the locals that are visible where it stands, whether it is
right (`Symbols.Right`). `ParsedUnit.occurrences` finds the constructs of a unit with their locals: every block, branch and loop
body is a scope of its own, the parameters of a function stand in the scope of its body, a local is visible from the statement
after its declaration on, and initial values of globals see no locals.

A group is `WellScoped` where all its constructs are right, and the names of its artifacts are free and differ.
-/
namespace Scriptorium.Script

/-- The locals that are visible at a place, scope by scope: the innermost scope first, and in each the last declared local
first. Each is a name, with whether it can be assigned to. -/
abbrev Locals := List (List (String × Bool))

namespace Locals

/-- The locals where a body begins: one scope, and nothing in it. -/
def start : Locals := [[]]

/-- Whether the innermost local of a name can be assigned to; absent where no local of the name is visible. -/
def visible? (locals : Locals) (name : String) : Option Bool := locals.flatten.lookup name

/-- The names that the innermost scope declares. -/
def here (locals : Locals) : List String := (locals.headD []).map Prod.fst

/-- Declares a local in the innermost scope. -/
def declare (name : String) (isMutable : Bool) : Locals → Locals
  | [] => [[(name, isMutable)]]
  | scope :: outer => ((name, isMutable) :: scope) :: outer

end Locals

/-- A construct that can be wrong, or that can fail when it runs, and its line. -/
inductive Construct
  | read (name : String) (line : Nat)
  | assignment (name : String) (line : Nat)
  | binary (op : BinaryOp) (line : Nat)
  | unary (op : UnaryOp) (line : Nat)
  | call (name : String) (count : Nat) (line : Nat)
  | declaration (name : String) (initial : Option Expr) (line : Nat)
  | parameter (name : String) (line : Nat)

/-- The line that the syntax tree holds for a construct; that of a parameter is the line of its function. -/
def Construct.line : Construct → Nat
  | read _ line | assignment _ line | binary _ line | unary _ line | call _ _ line | declaration _ _ line | parameter _ line => line

/-- A construct and the locals that it sees. -/
structure Occurrence where
  locals : Locals
  construct : Construct

mutual

/-- The constructs of an expression. -/
def Expr.constructs (e : Expr) : List Construct :=
  match e with
  | .number _ | .text _ | .bool _ | .null | .bracket _ _ => []
  | .name target line => [.read target line]
  | .assign target value line => value.constructs ++ [.assignment target line]
  | .binary op left right line => left.constructs ++ (right.constructs ++ [.binary op line])
  | .logical _ left right _ => left.constructs ++ right.constructs
  | .unary op operand line => operand.constructs ++ [.unary op line]
  | .call callee args line => .call callee args.length line :: Expr.constructsOf args
termination_by structural e

def Expr.constructsOf (args : List Expr) : List Construct :=
  match args with
  | [] => []
  | arg :: args => arg.constructs ++ Expr.constructsOf args
termination_by structural args

end

/-- The constructs of an expression, all of which see the same locals. -/
def Expr.occurrences (locals : Locals) (e : Expr) : List Occurrence := e.constructs.map (Occurrence.mk locals)

/-- The constructs of an expression that may be absent. -/
def Expr.occurrencesIf (locals : Locals) : Option Expr → List Occurrence
  | some e => e.occurrences locals
  | none => []

/-- The locals after a statement. -/
def Stmt.after (locals : Locals) : Stmt → Locals
  | .declare name isMutable _ _ => locals.declare name isMutable
  | .expr _ | .branch _ _ _ | .loop _ _ | .giveBack _ _ | .block _ | .empty => locals

mutual

/-- The constructs of a statement, and of the scopes that it opens. -/
def Stmt.occurrences (locals : Locals) (s : Stmt) : List Occurrence :=
  match s with
  | .expr value => value.occurrences locals
  | .declare name _ initial line => Expr.occurrencesIf locals initial ++ [⟨locals, .declaration name initial line⟩]
  | .branch condition whenTrue whenFalse =>
    condition.occurrences locals ++ (whenTrue.occurrences ([] :: locals) ++ Stmt.occurrencesIf locals whenFalse)
  | .loop condition body => condition.occurrences locals ++ body.occurrences ([] :: locals)
  | .giveBack value _ => Expr.occurrencesIf locals value
  | .block body => Stmt.occurrencesOf ([] :: locals) body
  | .empty => []
termination_by structural s

def Stmt.occurrencesOf (locals : Locals) (body : List Stmt) : List Occurrence :=
  match body with
  | [] => []
  | s :: body => s.occurrences locals ++ Stmt.occurrencesOf (s.after locals) body
termination_by structural body

def Stmt.occurrencesIf (locals : Locals) (s : Option Stmt) : List Occurrence :=
  match s with
  | some s => s.occurrences ([] :: locals)
  | none => []
termination_by structural s

end

/-- The parameters of a function, each of which sees those before it. -/
def parameterOccurrences (line : Nat) (locals : Locals) : List String → List Occurrence
  | [] => []
  | param :: params => ⟨locals, .parameter param line⟩ :: parameterOccurrences line (locals.declare param true) params

/-- The locals of the parameters of a function. -/
def parameterLocals (locals : Locals) (params : List String) : Locals :=
  params.foldl (fun locals param => locals.declare param true) locals

/-- The constructs of a function. -/
def FunctionDecl.occurrences (decl : FunctionDecl) : List Occurrence :=
  parameterOccurrences decl.line .start decl.params ++ Stmt.occurrencesOf (parameterLocals .start decl.params) decl.body

namespace ParsedUnit

/-- The constructs of the initial values of a unit. -/
def initialOccurrences (parsed : ParsedUnit) : List Occurrence :=
  parsed.globals.flatMap fun decl => decl.initial.occurrences .start

/-- The constructs of the functions and the statements of a unit. -/
def bodyOccurrences (parsed : ParsedUnit) : List Occurrence :=
  parsed.functions.flatMap FunctionDecl.occurrences ++ Stmt.occurrencesOf .start parsed.statements

/-- The constructs of a unit. -/
def occurrences (parsed : ParsedUnit) : List Occurrence := parsed.initialOccurrences ++ parsed.bodyOccurrences

end ParsedUnit

/-- The names that constructs of a group may mean besides locals: its globals, its functions with the number of their parameters,
and the natives. -/
structure Symbols where
  globals : List String
  functions : List (String × Nat)
  natives : List (String × Option Nat)

/-- The symbols of units and natives. -/
def Symbols.ofUnits (natives : List (String × Option Nat)) (units : List ParsedUnit) : Symbols where
  globals := units.flatMap fun parsed => parsed.globals.map GlobalDecl.name
  functions := units.flatMap fun parsed => parsed.functions.map fun decl => (decl.name, decl.params.length)
  natives

namespace Symbols

variable (symbols : Symbols)

/-- Whether a name is that of a function of the group. -/
def IsFunction (name : String) : Prop := name ∈ symbols.functions.map Prod.fst

/-- A name is that of a function or of a native. -/
def Callable (name : String) : Prop := symbols.IsFunction name ∨ (symbols.natives.lookup name).isSome

/-- A name can be called with a number of arguments: it is a function with as many parameters, or else a native that accepts as
many. -/
def Takes (name : String) (count : Nat) : Prop :=
  (name, count) ∈ symbols.functions ∨
    ¬ symbols.IsFunction name ∧ (symbols.natives.lookup name).any (acceptsCount · count) = true

/-- The rules of scoping. -/
def Right (locals : Locals) : Construct → Prop
  | .read name _ => (locals.visible? name).isSome ∨ name ∈ symbols.globals
  | .assignment name _ => locals.visible? name = some true ∨ locals.visible? name = none ∧ name ∈ symbols.globals
  | .binary _ _ | .unary _ _ => True
  | .call name count _ => locals.visible? name = none ∧ name ∉ symbols.globals ∧ symbols.Takes name count
  | .declaration name _ _ | .parameter name _ => name ∉ locals.here

instance (name : String) : Decidable (symbols.IsFunction name) := inferInstanceAs (Decidable (name ∈ _))

instance (name : String) (count : Nat) : Decidable (symbols.Takes name count) :=
  inferInstanceAs (Decidable (_ ∨ ¬ _ ∧ _))

instance (locals : Locals) (construct : Construct) : Decidable (symbols.Right locals construct) :=
  match construct with
  | .read _ _ => inferInstanceAs (Decidable (_ ∨ _))
  | .assignment _ _ => inferInstanceAs (Decidable (_ ∨ _ ∧ _))
  | .binary _ _ | .unary _ _ => inferInstanceAs (Decidable True)
  | .call _ _ _ => inferInstanceAs (Decidable (_ ∧ _ ∧ _))
  | .declaration _ _ _ | .parameter _ _ => inferInstanceAs (Decidable (_ ∉ _))

end Symbols

/-- A group follows the rules: the names of its artifacts are not reserved and not used twice, and all constructs of its units are
right. -/
structure WellScoped (natives : List (String × Option Nat)) (units : List ParsedUnit) : Prop where
  free : ∀ parsed ∈ units, parsed.artifact ≠ Bytecode.mainArtifact ∧ parsed.artifact ≠ Bytecode.initArtifact
  distinct : (units.map ParsedUnit.artifact).Nodup
  right : ∀ parsed ∈ units, ∀ o ∈ parsed.occurrences, (Symbols.ofUnits natives units).Right o.locals o.construct

end Scriptorium.Script
