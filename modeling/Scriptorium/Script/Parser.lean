import Scriptorium.Script.Environment
import Scriptorium.Script.ParseError
import Scriptorium.Text.Utf8
import Std.Data.HashSet

/-!
# Parsing

Recursive descent over the tokens of a unit. Statements, expressions and operands of unary operators
nest at most `maxNesting` deep, and each further operator on one level counts as one more level of
nesting; what is left of that number, the budget, is an argument of every function of the grammar, so
that the recursion ends by it. Loops end because each pass takes a token (`iterate`).

A bracket expression that means nothing is an error, or null with a warning where the unit tolerates
it.
-/
namespace Scriptorium.Script

open Std (HashSet)

/-- The deepest nesting of statements and expressions in a unit. -/
def maxNesting : Nat := 128

namespace Parser

/-- What a parser works on: the tokens not yet taken and their number, and the warnings so far, last
first. -/
structure State where
  tokens : TokenStream
  remaining : Nat
  warnings : List BracketWarning
  remaining_eq : remaining = tokens.lexemes.length

namespace State

/-- The state before the first token of a source. -/
def start (tokens : TokenStream) : State := ⟨tokens, tokens.lexemes.length, [], rfl⟩

/-- The current token, unless the source is at its end. -/
def current? (s : State) : Option Token := s.tokens.lexemes.head?.map Lexeme.token

/-- The line of the current token or of the end of the source. -/
def line (s : State) : Nat :=
  match s.tokens.lexemes, s.tokens.stop with
  | lexeme :: _, _ => lexeme.line
  | [], .finish line => line
  | [], .fault fault => fault.line

/-- The state after the current token. -/
def next (s : State) : State where
  tokens := { s.tokens with lexemes := s.tokens.lexemes.tail }
  remaining := s.remaining - 1
  warnings := s.warnings
  remaining_eq := by simp [s.remaining_eq]

end State

end Parser

/-- A parser gives a value or an error, and in both cases the state it ends in. -/
abbrev Parser := EStateM ParseError Parser.State

namespace Parser

/-- Fails on a line. -/
def fail {α : Type} (line : Nat) (cause : ParseCause) : Parser α := throw ⟨line, cause⟩

/-- Fails on the line of the current token. -/
def failHere {α : Type} (cause : ParseCause) : Parser α := fun s => .error ⟨s.line, cause⟩ s

/-- The current token, unless the source is at its end. -/
def peek : Parser (Option Token) := fun s => .ok s.current? s

/-- The line of the current token. -/
def line : Parser Nat := fun s => .ok s.line s

/-- Fails when the next token cannot be read. -/
def settle : Parser Unit := fun s =>
  match s.tokens.lexemes, s.tokens.stop with
  | [], .fault fault => .error ⟨fault.line, .lexical fault.cause⟩ s
  | _, _ => .ok () s

/-- Takes the current token. -/
def advance : Parser Unit := do
  modify State.next
  settle

/-- Whether the current token is a given one. -/
def isAt (token : Token) : Parser Bool := return (← peek) == some token

/-- Takes the current token if it is a given symbol. -/
def accept (symbol : Symbol) : Parser Bool := do
  if ← isAt (.symbol symbol) then
    advance
    return true
  return false

/-- Takes the current token if it is a given keyword. -/
def acceptWord (word : Keyword) : Parser Bool := do
  if ← isAt (.keyword word) then
    advance
    return true
  return false

/-- Takes the current token, which has to be a given symbol. -/
def expect (symbol : Symbol) (what : Expectation) : Parser Unit := do
  if ← isAt (.symbol symbol) then advance else failHere (.expected what)

/-- Takes the current token, which has to be a name. -/
def name (what : Expectation) : Parser String := do
  match ← peek with
  | some (.name name) =>
    advance
    return name
  | _ => failHere (.expected what)

/-- Repeats a pass while it asks for another one. A pass that takes no token is the last one. -/
def iterate {β : Type} (pass : β → Parser (β × Bool)) (b : β) : Parser β := fun s =>
  match pass b s with
  | .ok (b', true) s' => if s'.remaining < s.remaining then iterate pass b' s' else .ok b' s'
  | .ok (b', false) s' => .ok b' s'
  | .error e s' => .error e s'
termination_by s => s.remaining

/-- Items up to the end of the source or a symbol that ends them, which is not taken. -/
def itemsUntil {α : Type} (stop : Symbol) (item : Parser α) : Parser (List α) := do
  let pass (done : List α) : Parser (List α × Bool) := do
    match ← peek with
    | none => return (done, false)
    | some token =>
      if token = .symbol stop then return (done, false)
      return ((← item) :: done, true)
  return (← iterate pass []).reverse

/-- One or more items between commas. An item is given those before it, last first. -/
def separated {α : Type} (item : List α → Parser α) : Parser (List α) := do
  let pass (done : List α) : Parser (List α × Bool) := do
    let done := (← item done) :: done
    return (done, ← accept .comma)
  return (← iterate pass []).reverse

/-- The text that a token adds to a part of a bracket expression. -/
def partText? : Token → Option String
  | .name name => some name
  | .number value => some (Value.numberText value)
  | .symbol .dot => some "."
  | .symbol .star => some "*"
  | .symbol .minus => some "-"
  | _ => none

/-- The parts of a bracket expression, as far as the tokens go on with them. -/
def bracketParts : Parser (List String) := do
  -- the part that is being read, and those before it, last first
  let pass (done : String × List String) : Parser ((String × List String) × Bool) := do
    let (part, parts) := done
    match ← peek with
    | none => return (done, false)
    | some token =>
      if token = .symbol .colon then
        advance
        return (("", part :: parts), true)
      match partText? token with
      | some text =>
        advance
        return ((part ++ text, parts), true)
      | none => return (done, false)
  let (part, parts) ← iterate pass ("", [])
  return (part :: parts).reverse

/-- What a unit is parsed in: its name, its group's environment, and whether bracket expressions that
mean nothing are let pass. -/
structure Context where
  unit : String
  env : Environment
  tolerant : Bool

variable (ctx : Context)

/-- An error, or null with a warning where the unit tolerates it. -/
def bracketFault (line : Nat) (fault : BracketFault) : Parser Expr := do
  if ctx.tolerant then
    modify fun s => { s with warnings := ⟨line, fault, s.remaining⟩ :: s.warnings }
    return .null
  fail line (.bracket fault)

/-- Reads a bracket expression and resolves it. -/
def bracket : Parser Expr := do
  let line ← line
  advance
  let parts ← bracketParts
  let path := ":".intercalate parts
  if !(← accept .greater) then bracketFault ctx line (.unclosed path)
  else if parts.any String.isEmpty then bracketFault ctx line (.malformed path)
  else
    match BracketHandler.resolve ctx.env.brackets parts with
    | some value => return .bracket path value
    | none => bracketFault ctx line (.unresolved path)

/-- The operator of a level at the current place. -/
def connectiveAt (level : Nat) : Parser (Option Connective) := do
  match ← peek with
  | some (.symbol symbol) => return (Connective.ofSymbol? symbol).filter (·.level == level)
  | _ => return none

/-- The unary operator that a symbol stands for. -/
def unaryOp? : Symbol → Option UnaryOp
  | .bang => some .not
  | .minus => some .negate
  | _ => none

/-- How a symbol assigns: not at all, or with an operator to apply before. -/
def assignment? : Symbol → Option (Option BinaryOp)
  | .assign => some none
  | .plusAssign => some (some .add)
  | .minusAssign => some (some .subtract)
  | _ => none

/-- The value to assign: the right side, or the target's value combined with it. -/
def assigned (target : String) (line : Nat) (op : Option BinaryOp) (value : Expr) : Expr :=
  match op with
  | some op => .binary op (.name target line) value line
  | none => value

/-- The label of the current token in messages. -/
def labelOf : Option Token → String
  | some (.number value) => s!"Number({Decimal.Layout.inspected.write value})"
  | some (.text value) => s!"String({Text.inspect value})"
  | some (.name name) => s!"Identifier({Text.inspect name})"
  | some (.keyword word) => word.label
  | some (.symbol symbol) => symbol.label
  | none => "EOF"

mutual

/-- An expression, one level deeper. -/
def expression (budget : Nat) : Parser Expr :=
  match budget with
  | 0 => failHere .nestedTooDeeply
  | budget + 1 => assignment budget
termination_by (budget, 0)

/-- An operation of the loosest level, or an assignment to a name. -/
def assignment (budget : Nat) : Parser Expr := do
  let target ← operation Connective.levels budget
  let line ← line
  match ← peek with
  | some (.symbol symbol) =>
    match assignment? symbol with
    | none => return target
    | some op =>
      advance
      let value ← expression budget
      match target with
      | .name name _ => return .assign name (assigned name line op value) line
      | _ => fail line .invalidTarget
  | _ => return target
termination_by (budget, Connective.levels + 5)

/-- Operands of a level joined by its operators, which group to the left. -/
def operation (level : Nat) (budget : Nat) : Parser Expr :=
  match level with
  | 0 => unary budget
  | level + 1 => do
    let first ← operation level budget
    operationFrom level budget first
termination_by (budget, level + 4)

/-- The operators of a level that follow a left operand. -/
def operationFrom (level : Nat) (budget : Nat) (left : Expr) : Parser Expr := do
  match ← connectiveAt (level + 1) with
  | none => return left
  | some op =>
    let line ← line
    advance
    match budget with
    | 0 => failHere .nestedTooDeeply
    | budget + 1 =>
      let right ← operation level budget
      operationFrom level budget (op.apply line left right)
termination_by (budget, 0)

/-- An operand with its unary operators. -/
def unary (budget : Nat) : Parser Expr := do
  let line ← line
  match ← peek with
  | some (.symbol symbol) =>
    match unaryOp? symbol with
    | none => call budget
    | some op =>
      advance
      match budget with
      | 0 => failHere .nestedTooDeeply
      | budget + 1 => return .unary op (← unary budget) line
  | _ => call budget
termination_by (budget, 3)

/-- A primary expression, or a call of a named function. -/
def call (budget : Nat) : Parser Expr := do
  let callee ← primary budget
  if !(← isAt (.symbol .leftParen)) then return callee
  match callee with
  | .name name line =>
    advance
    let args ← if ← isAt (.symbol .rightParen) then pure [] else separated fun _ => expression budget
    expect .rightParen .argumentsEnd
    return .call name args line
  | _ => failHere .notCallable
termination_by (budget, 2)

/-- A literal, a name, a bracket expression, or an expression in parentheses. -/
def primary (budget : Nat) : Parser Expr := do
  let line ← line
  match ← peek with
  | some (.number value) => do advance; return .number value
  | some (.text value) => do advance; return .text value
  | some (.keyword .trueWord) => do advance; return .bool true
  | some (.keyword .falseWord) => do advance; return .bool false
  | some (.keyword .nullWord) => do advance; return .null
  | some (.name name) => do advance; return .name name line
  | some (.symbol .leftParen) => do
    advance
    let inner ← expression budget
    expect .rightParen .groupEnd
    return inner
  | some (.symbol .less) => bracket ctx
  | token => fail line (.unexpected (labelOf token))
termination_by (budget, 1)

end

/-- A condition in parentheses. -/
def condition (what : Expectation) (budget : Nat) : Parser Expr := do
  expect .leftParen what
  let condition ← expression ctx budget
  expect .rightParen .conditionEnd
  return condition

/-- An expression and a semicolon. -/
def expressionStatement (budget : Nat) : Parser Stmt := do
  let value ← expression ctx budget
  expect .semicolon .expressionEnd
  return .expr value

/-- The declaration of a local, from its keyword on. -/
def declaration (isMutable : Bool) (budget : Nat) : Parser Stmt := do
  advance
  let line ← line
  let name ← name .variableName
  let initial ←
    if ← accept .assign then some <$> expression ctx budget
    else if isMutable then pure none
    else fail line (.uninitialized name)
  expect .semicolon .variableEnd
  return .declare name isMutable initial line

/-- A return, from its keyword on. -/
def returnStatement (budget : Nat) : Parser Stmt := do
  let line ← line
  advance
  let value ← if ← isAt (.symbol .semicolon) then pure none else some <$> expression ctx budget
  expect .semicolon .returnEnd
  return .giveBack value line

/-- Statements in braces. -/
def block (statement : Parser Stmt) : Parser (List Stmt) := do
  expect .leftBrace .blockStart
  let body ← itemsUntil .rightBrace statement
  expect .rightBrace .blockEnd
  return body

/-- A statement, one level deeper. -/
def statement (budget : Nat) : Parser Stmt :=
  match budget with
  | 0 => failHere .nestedTooDeeply
  | budget + 1 => do
    match ← peek with
    | some (.keyword .varWord) => declaration ctx true budget
    | some (.keyword .valWord) => declaration ctx false budget
    | some (.keyword .ifWord) =>
      advance
      let condition ← condition ctx .ifParen budget
      let whenTrue ← statement budget
      let whenFalse ← if ← acceptWord .elseWord then some <$> statement budget else pure none
      return .branch condition whenTrue whenFalse
    | some (.keyword .whileWord) =>
      advance
      let condition ← condition ctx .whileParen budget
      return .loop condition (← statement budget)
    | some (.keyword .returnWord) => returnStatement ctx budget
    | some (.symbol .leftBrace) => .block <$> block (statement budget)
    | some (.symbol .semicolon) =>
      advance
      return .empty
    | some (.keyword .globalWord) | some (.keyword .functionWord) => failHere .notAtTopLevel
    | _ => expressionStatement ctx budget

/-- Refuses a name that a native, the group or this unit already has; `declared` holds the names that
this unit declares. -/
def checkFree (declared : HashSet String) (name : String) (line : Nat) : Parser Unit := do
  if ctx.env.isNative name then fail line (.shadowsNative name)
  else
    match ctx.env.declaredIn name with
    | some unit => fail line (.definedIn name unit)
    | none => if declared.contains name then fail line (.definedHere name)

/-- The declaration of a global. -/
def globalDeclaration (declared : HashSet String) : Parser GlobalDecl := do
  advance
  let line ← line
  let name ← name .globalName
  checkFree ctx declared name line
  expect .assign .globalAssign
  let initial ← expression ctx maxNesting
  expect .semicolon .globalEnd
  return ⟨name, initial, line⟩

/-- A parameter, which no other parameter before it is called like. -/
def parameter (before : List String) : Parser String := do
  let line ← line
  let name ← name .parameterName
  if name ∈ before then fail line (.duplicateParameter name)
  return name

/-- The declaration of a function. -/
def functionDeclaration (declared : HashSet String) : Parser FunctionDecl := do
  advance
  let line ← line
  let name ← name .functionName
  checkFree ctx declared name line
  expect .leftParen .functionParen
  let params ← if ← isAt (.symbol .rightParen) then pure [] else separated parameter
  expect .rightParen .parametersEnd
  let body ← block (statement ctx maxNesting)
  return ⟨name, params, body, line⟩

/-- What was parsed of a unit: its declarations and statements, last first, and the names declared. -/
structure Progress where
  globals : List GlobalDecl
  functions : List FunctionDecl
  statements : List Stmt
  declared : HashSet String

/-- One declaration or statement at the top level, unless the source is at its end. -/
def topLevelItem (done : Progress) : Parser (Progress × Bool) := do
  match ← peek with
  | none => return (done, false)
  | some (.keyword .globalWord) =>
    let decl ← globalDeclaration ctx done.declared
    return ({ done with globals := decl :: done.globals, declared := done.declared.insert decl.name }, true)
  | some (.keyword .functionWord) =>
    let decl ← functionDeclaration ctx done.declared
    return ({ done with functions := decl :: done.functions, declared := done.declared.insert decl.name },
      true)
  | some _ =>
    let stmt ← statement ctx maxNesting
    return ({ done with statements := stmt :: done.statements }, true)

/-- A whole unit. -/
def wholeUnit (artifact : String) : Parser ParsedUnit := do
  settle
  let done ← iterate (topLevelItem ctx) ⟨[], [], [], ∅⟩
  return ⟨ctx.unit, artifact, done.globals.reverse, done.functions.reverse, done.statements.reverse⟩

end Parser

/-- What parsing a unit gives: the unit or an error, the warnings in order, and the environment for
the units that follow, which a failure leaves as it was. -/
structure Parsed where
  result : Except ParseError ParsedUnit
  warnings : List BracketWarning
  env : Environment

/-- Parses a unit against its group's environment. -/
def Environment.parse (env : Environment) (source unit artifact : String) (tolerant : Bool) : Parsed :=
  match Parser.wholeUnit ⟨unit, env, tolerant⟩ artifact (Parser.State.start (.ofSource source)) with
  | .ok parsed s => ⟨.ok parsed, s.warnings.reverse, env.declareUnit parsed⟩
  | .error error s => ⟨.error error, s.warnings.reverse, env⟩

/-- Parses the bytes of a unit, unless they are no text. -/
def Environment.parseBytes (env : Environment) (bytes : Text.Bytes) (unit artifact : String)
    (tolerant : Bool) : Option Parsed :=
  match Text.Utf8.decode bytes with
  | .ok source => some (env.parse source unit artifact tolerant)
  | .error _ => none

end Scriptorium.Script
