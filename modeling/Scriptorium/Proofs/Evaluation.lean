import Mathlib
import Scriptorium.Machine.Fault
import Scriptorium.Native
import Scriptorium.Script.Tree
import Std.Data.HashMap

/-!
# Evaluation

The rules of the language, as an evaluator of syntax trees. Variables are looked up by name: a name means
the innermost visible local, or else the global of the group. Every block, branch and loop body is a scope
of its own, and a call begins with a scope that holds the parameters alone.

Scripts may run for ever. An evaluation is given a time: as many passes of each loop, and as many calls
inside each other. Where the time is not enough the answer is `Stop.unfinished`, which is none.
-/
namespace Scriptorium.Evaluation

open Machine (Fault)
open Script (Expr Stmt FunctionDecl GlobalDecl ParsedUnit)
open Std (HashMap)

/-- The locals of a call, scope by scope: the innermost scope first, and in each the last declared local
first. -/
abbrev Scopes := List (List (String × Value))

namespace Scopes

/-- The value of the innermost local of a name. -/
def value? (scopes : Scopes) (name : String) : Option Value := scopes.flatten.lookup name

/-- Changes the last declared local of a name in one scope. -/
def setIn (name : String) (value : Value) : List (String × Value) → Option (List (String × Value))
  | [] => none
  | found :: rest =>
    if found.1 = name then some ((name, value) :: rest) else (setIn name value rest).map (found :: ·)

/-- Changes the innermost local of a name. -/
def set (name : String) (value : Value) : Scopes → Option Scopes
  | [] => none
  | scope :: outer =>
    match setIn name value scope with
    | some scope => some (scope :: outer)
    | none => (set name value outer).map (scope :: ·)

/-- Declares a local in the innermost scope. -/
def declare (name : String) (value : Value) : Scopes → Scopes
  | [] => [[(name, value)]]
  | scope :: outer => ((name, value) :: scope) :: outer

end Scopes

/-- What all calls share: the globals of the group and the state of the host. -/
structure World (σ : Type) where
  globals : HashMap String Value
  host : σ

/-- What a part of a body sees: the locals of its call, and the world. -/
structure Store (σ : Type) where
  scopes : Scopes
  world : World σ

/-- Why an evaluation stops early: a fault at a line of a unit, a panic of a native, or too little time. -/
inductive Stop
  | fault (fault : Fault) (unit : String) (line : Nat)
  | panicked (panic : Panic)
  | unfinished

/-- Evaluates a part of a body. -/
abbrev Evaluating (σ : Type) := EStateM Stop (Store σ)

/-- Evaluates what has no locals to see. -/
abbrev Acting (σ : Type) := EStateM Stop (World σ)

/-- Calls a name with arguments; the line is that of the call. -/
abbrev Invoke (σ : Type) := String → List Value → Nat → Acting σ Value

/-- Leaves the locals alone. -/
def inWorld {σ α : Type} (act : Acting σ α) : Evaluating σ α := fun store =>
  match act store.world with
  | .ok a world => .ok a { store with world }
  | .error stop world => .error stop { store with world }

/-- Evaluates with locals of its own, which are gone afterwards. -/
def withScopes {σ α : Type} (scopes : Scopes) (act : Evaluating σ α) : Acting σ α := fun world =>
  match act ⟨scopes, world⟩ with
  | .ok a store => .ok a store.world
  | .error stop store => .error stop store.world

section
variable {σ : Type} (unit : String) (invoke : Invoke σ)

/-- The value of a variable. -/
def readVariable (name : String) (line : Nat) : Evaluating σ Value := fun store =>
  match store.scopes.value? name with
  | some value => .ok value store
  | none =>
    match store.world.globals[name]? with
    | some value => .ok value store
    | none => .error (.fault (.undefinedGlobal name) unit line) store

/-- Gives a variable a value. -/
def writeVariable (name : String) (value : Value) (line : Nat) : Evaluating σ Unit := fun store =>
  match store.scopes.set name value with
  | some scopes => .ok () { store with scopes }
  | none =>
    if store.world.globals.contains name then
      .ok () { store with world.globals := store.world.globals.insert name value }
    else .error (.fault (.undefinedGlobal name) unit line) store

/-- The value that an operator computes. -/
def operate (line : Nat) : Except OperatorFault Value → Evaluating σ Value
  | .ok value => return value
  | .error fault => throw (.fault (.operator fault) unit line)

/-- Whether the left operand is the value of a logical operation. -/
def decides : LogicalOp → Value → Bool
  | .and, left => !left.isTrue
  | .or, left => left.isTrue

mutual

/-- The value of an expression. -/
def expression (e : Expr) : Evaluating σ Value :=
  match e with
  | .number n => return .number n
  | .text s => return .text s
  | .bool b => return .bool b
  | .null => return .null
  | .bracket _ value => return value
  | .name name line => readVariable unit name line
  | .assign name value line => do
    let value ← expression value
    writeVariable unit name value line
    return value
  | .binary op left right line => do
    let left ← expression left
    let right ← expression right
    operate unit line (op.apply left right)
  | .logical op left right _ => do
    let left ← expression left
    if decides op left then return left else expression right
  | .unary op operand line => do
    let operand ← expression operand
    operate unit line (op.apply operand)
  | .call name args line => do
    let values ← arguments args
    inWorld (invoke name values line)
termination_by structural e

/-- The values of expressions, from left to right. -/
def arguments (args : List Expr) : Evaluating σ (List Value) :=
  match args with
  | [] => return []
  | arg :: args => do
    let value ← expression arg
    return value :: (← arguments args)
termination_by structural args

end

/-- The value of an optional expression; null stands for an absent one. -/
def expressionOrNull : Option Expr → Evaluating σ Value
  | some e => expression unit invoke e
  | none => return .null

/-- Where evaluation goes on after a statement: at the next one, or at the caller with a value. -/
inductive Flow
  | next
  | giveBack (value : Value)

/-- Evaluates in a new scope inside the others. -/
def inScope (act : Evaluating σ Flow) : Evaluating σ Flow := do
  modify fun store => { store with scopes := [] :: store.scopes }
  let flow ← act
  modify fun store => { store with scopes := store.scopes.tail }
  return flow

/-- Evaluates a body as long as a condition holds before it. -/
def repeatWhile (condition : Evaluating σ Value) (body : Evaluating σ Flow) : Nat → Evaluating σ Flow
  | 0 => throw .unfinished
  | time + 1 => do
    if (← condition).isTrue then
      match ← body with
      | .next => repeatWhile condition body time
      | .giveBack value => return .giveBack value
    else return .next

mutual

/-- Does what a statement says. -/
def statement (time : Nat) (s : Stmt) : Evaluating σ Flow :=
  match s with
  | .expr value => do
    let _ ← expression unit invoke value
    return .next
  | .declare name _ initial _ => do
    let value ← expressionOrNull unit invoke initial
    modify fun store => { store with scopes := store.scopes.declare name value }
    return .next
  | .branch condition whenTrue whenFalse => do
    if (← expression unit invoke condition).isTrue then inScope (statement time whenTrue)
    else optionalBranch time whenFalse
  | .loop condition body =>
    repeatWhile (expression unit invoke condition) (inScope (statement time body)) time
  | .giveBack value _ => return .giveBack (← expressionOrNull unit invoke value)
  | .block body => inScope (statements time body)
  | .empty => return .next
termination_by structural s

/-- Does what statements say, up to the first that goes back to the caller. -/
def statements (time : Nat) (body : List Stmt) : Evaluating σ Flow :=
  match body with
  | [] => return .next
  | s :: body => do
    match ← statement time s with
    | .next => statements time body
    | .giveBack value => return .giveBack value
termination_by structural body

/-- Does what a branch says that may be absent. -/
def optionalBranch (time : Nat) (s : Option Stmt) : Evaluating σ Flow :=
  match s with
  | some s => inScope (statement time s)
  | none => return .next
termination_by structural s

end

/-- The value of a body: what a return gives back, or null at its end. -/
def body (time : Nat) (locals : List (String × Value)) (statements : List Stmt) : Acting σ Value :=
  withScopes [locals] do
    match ← Evaluation.statements unit invoke time statements with
    | .next => return .null
    | .giveBack value => return value

/-- Gives globals their initial values, one after the other. -/
def initials : List GlobalDecl → Acting σ Unit
  | [] => return ()
  | decl :: decls => do
    let value ← withScopes [[]] (expression unit invoke decl.initial)
    modify fun world => { world with globals := world.globals.insert decl.name value }
    initials decls

end

/-- The functions of units, each with the name of its unit, in the order of their declarations. -/
def functionsOf (units : List ParsedUnit) : List (String × FunctionDecl) :=
  units.flatMap fun parsed => parsed.functions.map fun decl => (parsed.name, decl)

/-- The function of a name and the unit that declares it. In a group a name is declared once; if it were
declared more often, the last declaration would count. -/
def function? (units : List ParsedUnit) (name : String) : Option (String × FunctionDecl) :=
  (functionsOf units).reverse.find? fun found => found.2.name == name

/-- The greatest number of active bodies; that of a unit counts as one. -/
def maxActive : Nat := 256

section
variable {σ : Type} (units : List ParsedUnit) (natives : Natives σ)

/-- Calls a native of the host. -/
def callNative (unit : String) : Invoke σ := fun name args line world =>
  match natives.get? name with
  | none => .error (.fault (.undefinedFunction name) unit line) world
  | some native =>
    if !native.accepts args.length then .error (.fault (.notAccepted name args.length) unit line) world
    else
      match native.call args world.host with
      | (.returned value, host) => .ok value { world with host }
      | (.refused message, host) => .error (.fault (.refused name message) unit line) { world with host }
      | (.panicked panic, host) => .error (.panicked panic) { world with host }

/-- Calls a function of the group, or else a native, from a unit and with some bodies active. -/
def call : (time active : Nat) → (unit : String) → Invoke σ
  | 0, _, _ => fun _ _ _ => throw .unfinished
  | time + 1, active, unit => fun name args line =>
    match function? units name with
    | some (owner, decl) =>
      if decl.params.length ≠ args.length then
        throw (.fault (.wrongCount name decl.params.length args.length) unit line)
      else if maxActive ≤ active then throw (.fault .stackOverflow unit line)
      else body owner (call time (active + 1) owner) time (decl.params.zip args).reverse decl.body
    | none => callNative natives unit name args line

/-- Gives the globals of a unit their initial values. -/
def giveInitials (time active : Nat) (parsed : ParsedUnit) : Acting σ Unit :=
  initials parsed.name (call units natives time active parsed.name) parsed.globals

/-- Does what the body of a unit says. -/
def runUnit (time active : Nat) (parsed : ParsedUnit) : Acting σ Unit := do
  let _ ← body parsed.name (call units natives time active parsed.name) time [] parsed.statements

/-- Evaluates a group: first all initial values, and then the bodies of the units. -/
def group (time : Nat) : Acting σ Unit := do
  units.forM (giveInitials units natives time 1)
  units.forM (runUnit units natives time 1)

end

/-- How a group ends. -/
inductive Result
  | finished
  | failed (fault : Fault)
  | panicked (panic : Panic)
deriving DecidableEq

/-- What can be seen of a group that has ended: how it ended, the globals, and the state of the host. -/
structure Ending (σ : Type) where
  result : Result
  globals : HashMap String Value
  host : σ

/-- The ending of an evaluation that had time enough. -/
def ending? {σ : Type} : EStateM.Result Stop (World σ) Unit → Option (Ending σ)
  | .ok () world => some ⟨.finished, world.globals, world.host⟩
  | .error (.fault fault _ _) world => some ⟨.failed fault, world.globals, world.host⟩
  | .error (.panicked panic) world => some ⟨.panicked panic, world.globals, world.host⟩
  | .error .unfinished _ => none

/-- A group evaluates to an ending, without globals before. -/
def Ends {σ : Type} (units : List ParsedUnit) (natives : Natives σ) (host : σ) (ending : Ending σ) : Prop :=
  ∃ time, ending? (group units natives time ⟨∅, host⟩) = some ending

end Scriptorium.Evaluation
