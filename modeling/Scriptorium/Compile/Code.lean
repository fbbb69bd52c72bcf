import Scriptorium.Bytecode.Instruction
import Scriptorium.Compile.CompileError
import Scriptorium.Compile.Scope
import Scriptorium.Native
import Scriptorium.Script.Environment

/-!
# Code of expressions and statements

An expression becomes a segment that leaves its value on the stack; a statement leaves the stack as it
was, but for the values of the locals that it declares. Segments are put together from the segments of
their parts, so that the distance of a jump is the size of what it skips.

Expressions and statements nest as deep as the parser lets them; what is left of that depth, the
budget, is an argument.
-/
namespace Scriptorium.Compile

open Bytecode (Instruction Placed Segment)
open Script (Expr Stmt Environment)

/-- The deepest nesting of statements and expressions. -/
def maxNesting : Nat := 128

/-- What code is made in: the name of the unit and the environment of its group. -/
structure Context where
  unit : String
  env : Environment

/-- What is passed on while code is made: the constants of the chunk so far, and the line of the
construct that was last looked at, which instructions and errors bear. -/
structure Progress where
  constants : Array Value
  line : Nat

/-- Making code fails, or goes on. -/
abbrev Coding := StateT Progress (Except CompileError)

variable (ctx : Context)

/-- Fails on the current line. -/
def fail {α : Type} (cause : CompileCause) : Coding α :=
  fun progress => .error ⟨ctx.unit, progress.line, cause⟩

/-- Looks at a construct of a line. -/
def lookAt (line : Nat) : Coding Unit := modify fun progress => { progress with line }

/-- One instruction, of the current line. -/
def emit (instruction : Instruction) : Coding Segment :=
  fun progress => .ok ([⟨progress.line, instruction⟩], progress)

/-- The index of a constant, which is added to those of the chunk when it has to be. -/
def constantIndex (value : Value) : Coding UInt16 := fun ⟨constants, line⟩ =>
  let (index, constants) := Bytecode.addConstant constants value
  if index < UInt16.size then .ok (UInt16.ofNat index, ⟨constants, line⟩)
  else .error ⟨ctx.unit, line, .tooManyConstants⟩

/-- Pushes a constant. -/
def pushConstant (value : Value) : Coding Segment := do
  emit (.constant (← constantIndex ctx value))

/-- The index of a name. -/
def nameIndex (name : String) : Coding UInt16 := constantIndex ctx (.text name)

/-- The distance of a jump over some bytes. -/
def distance (bytes : Nat) (cause : CompileCause) : Coding UInt16 :=
  if bytes < UInt16.size then pure (UInt16.ofNat bytes) else fail ctx cause

/-- The size of an instruction that jumps. -/
def jumpSize : Nat := 3

/-- Declares a local, whose value has been left on the stack. -/
def declareLocal (scope : Scope) (name : String) (isMutable : Bool) : Coding Scope :=
  if scope.declares name then fail ctx (.redeclared name)
  else if maxLocals ≤ scope.all.length then fail ctx .tooManyLocals
  else pure (scope.declare name isMutable)

/-- Reads a variable: the visible local of the name, or else the global. -/
def readVariable (scope : Scope) (name : String) : Coding Segment :=
  match scope.resolve? name with
  | some (slot, _) => emit (.getLocal (UInt8.ofNat slot))
  | none =>
    if ctx.env.hasGlobal name then do emit (.getGlobal (← nameIndex ctx name))
    else if (ctx.env.function? name).isSome || ctx.env.isNative name then fail ctx (.functionAsValue name)
    else fail ctx (.undefinedVariable name)

/-- Stores the top of the stack into a variable. -/
def writeVariable (scope : Scope) (name : String) : Coding Segment :=
  match scope.resolve? name with
  | some (slot, isMutable) =>
    if isMutable then emit (.setLocal (UInt8.ofNat slot)) else fail ctx (.immutable name)
  | none =>
    if ctx.env.hasGlobal name then do emit (.setGlobal (← nameIndex ctx name))
    else fail ctx (.undefinedVariable name)

/-- The greatest number of arguments of a call. -/
def maxArguments : Nat := 255

/-- Why a call of a name with some number of arguments is wrong, if it is. -/
def callFault? (scope : Scope) (name : String) (count : Nat) : Option CompileCause :=
  if (scope.resolve? name).isSome || ctx.env.hasGlobal name then some (.notFunction name)
  else if maxArguments < count then some (.tooManyArguments name)
  else
    match ctx.env.function? name with
    | some signature =>
      if signature.arity = count then none else some (.wrongCount name signature.arity count)
    | none =>
      match ctx.env.native? name with
      | some arity =>
        if acceptsCount arity count then none else some (.wrongCount name (arity.getD 0) count)
      | none => some (.undefinedFunction name)

/-- The jump that leaves the left side of an operator as its value. -/
def shortcut (op : LogicalOp) (distance : UInt16) : Instruction :=
  match op with
  | .and => .jumpIfFalse distance
  | .or => .jumpIfTrue distance

mutual

/-- The code of an expression. -/
def expression (scope : Scope) (budget : Nat) (e : Expr) : Coding Segment :=
  match budget with
  | 0 => fail ctx .nestedTooDeeply
  | budget + 1 =>
    match e with
    | .number n => pushConstant ctx (.number n)
    | .text s => pushConstant ctx (.text s)
    | .bool true => emit .pushTrue
    | .bool false => emit .pushFalse
    | .null => emit .pushNull
    | .bracket _ .null => emit .pushNull
    | .bracket _ value => pushConstant ctx value
    | .name name line => do
      lookAt line
      readVariable ctx scope name
    | .assign name value line => do
      lookAt line
      let valueCode ← expression scope budget value
      lookAt line
      return valueCode ++ (← writeVariable ctx scope name)
    | .binary op left right line => do
      let leftCode ← expression scope budget left
      let rightCode ← expression scope budget right
      lookAt line
      return leftCode ++ rightCode ++ (← emit (.binary op))
    | .logical op left right line => do
      let leftCode ← expression scope budget left
      lookAt line
      let skipped := (← emit .pop) ++ (← expression scope budget right)
      let jump := shortcut op (← distance ctx (Segment.size skipped) .jumpTooLong)
      return leftCode ++ ⟨line, jump⟩ :: skipped
    | .unary op operand line => do
      let operandCode ← expression scope budget operand
      lookAt line
      return operandCode ++ (← emit (.unary op))
    | .call name args line => do
      lookAt line
      match callFault? ctx scope name args.length with
      | some cause => fail ctx cause
      | none =>
        let argumentCode ← arguments scope budget args
        lookAt line
        return argumentCode ++ (← emit (.call (← nameIndex ctx name) (UInt8.ofNat args.length)))
termination_by structural e

/-- The code of the arguments of a call, one after the other. -/
def arguments (scope : Scope) (budget : Nat) (args : List Expr) : Coding Segment :=
  match args with
  | [] => pure []
  | arg :: args => do
    let first ← expression scope budget arg
    return first ++ (← arguments scope budget args)
termination_by structural args

end

/-- Ends a scope: its locals are taken from the stack. -/
def closing (code : Segment) (inner : Scope) : Coding Segment := do
  return code ++ List.replicate inner.here.length ⟨(← get).line, .pop⟩

/-- The code of an optional expression; null stands for an absent one. -/
def expressionOrNull (scope : Scope) (budget : Nat) : Option Expr → Coding Segment
  | some e => expression ctx scope budget e
  | none => emit .pushNull

mutual

/-- The code of a statement, and the scope after it. -/
def statement (scope : Scope) (budget : Nat) (s : Stmt) : Coding (Segment × Scope) :=
  match budget with
  | 0 => fail ctx .nestedTooDeeply
  | budget + 1 =>
    match s with
    | .expr value => do
      let code ← expression ctx scope budget value
      return (code ++ (← emit .pop), scope)
    | .declare name isMutable initial line => do
      lookAt line
      let code ← expressionOrNull ctx scope budget initial
      return (code, ← declareLocal ctx scope name isMutable)
    | .branch condition whenTrue whenFalse => do
      let conditionCode ← expression ctx scope budget condition
      let testLine := (← get).line
      let popTested ← emit .pop
      let (whenTrueCode, inner) ← statement scope.nested budget whenTrue
      let trueCode := popTested ++ (← closing whenTrueCode inner)
      let endLine := (← get).line
      let overTrue ← distance ctx (Segment.size trueCode + jumpSize) .jumpTooLong
      let falseCode := (← emit .pop) ++ (← optionalBranch scope budget whenFalse)
      let overFalse ← distance ctx (Segment.size falseCode) .jumpTooLong
      return (conditionCode ++ ⟨testLine, .jumpIfFalse overTrue⟩ :: trueCode ++
        ⟨endLine, .jump overFalse⟩ :: falseCode, scope)
    | .loop condition body => do
      let conditionCode ← expression ctx scope budget condition
      let testLine := (← get).line
      let popTested ← emit .pop
      let (innerCode, inner) ← statement scope.nested budget body
      let bodyCode := popTested ++ (← closing innerCode inner)
      let endLine := (← get).line
      let back ← distance ctx (Segment.size conditionCode + jumpSize + Segment.size bodyCode + jumpSize)
        .loopTooLong
      let overBody ← distance ctx (Segment.size bodyCode + jumpSize) .jumpTooLong
      return (conditionCode ++ ⟨testLine, .jumpIfFalse overBody⟩ :: bodyCode ++
        ⟨endLine, .loop back⟩ :: (← emit .pop), scope)
    | .giveBack value line => do
      lookAt line
      let code ← expressionOrNull ctx scope budget value
      return (code ++ (← emit .giveBack), scope)
    | .block body => do
      let (code, inner) ← statements scope.nested budget body
      return (← closing code inner, scope)
    | .empty => return ([], scope)
termination_by structural s

/-- The code of statements one after the other, and the scope after them. -/
def statements (scope : Scope) (budget : Nat) (body : List Stmt) : Coding (Segment × Scope) :=
  match body with
  | [] => return ([], scope)
  | s :: body => do
    let (first, scope) ← statement scope budget s
    let (rest, scope) ← statements scope budget body
    return (first ++ rest, scope)
termination_by structural body

/-- The code of a branch that may be absent. -/
def optionalBranch (scope : Scope) (budget : Nat) (s : Option Stmt) : Coding Segment :=
  match s with
  | some s => do
    let (code, inner) ← statement scope.nested budget s
    closing code inner
  | none => return []
termination_by structural s

end

end Scriptorium.Compile
