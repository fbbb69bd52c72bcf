import Scriptorium.Script.Parser
import Scriptorium.Proofs.TokenLines

/-!
# Parsing on demand

`Environment.parse` works on tokens that have been read beforehand. The parser here has no tokens but the current one: taking it
calls the lexer for the next. It also keeps an account of what it does, of every call of the lexer and of the statements,
expressions, operands and passes of loops that it goes through, each with the number of tokens that were left when it was entered
and when it ended. What it makes of a source is what `Environment.parse` makes of it (`parse_eq`); the account is what
`ParserProgress` is about.
-/
namespace Scriptorium.Script

/-- A call of the lexer: where it begins, what it reads, and where it ends. -/
structure OnDemand.Call where
  before : Cursor
  reading : Reading
  after : Cursor
deriving DecidableEq, Repr

namespace OnDemand

/-- A call of the lexer at a place of the source. -/
def Call.at (cursor : Cursor) : Call := ⟨cursor, cursor.next.1, cursor.next.2⟩

/-- The loops of the grammar. -/
inductive Loop
  | unit
  | block
  | parameters
  | arguments
  | bracket
  | operators
deriving DecidableEq, Repr

/-- What an account tells apart: the productions that can be entered again from inside, and the passes of loops. -/
inductive Part
  | statement
  | expression
  | unary
  | pass (loop : Loop)
deriving DecidableEq, Repr

/-- How a part ends: a production has given a value, a pass of a loop asks for another one or is the last, or there is an error. -/
inductive Outcome
  | done
  | again
  | last
  | failed
deriving DecidableEq, Repr

/-- A part that was gone through: how many tokens were left when it was entered and when it ended, how it ended, and the parts
inside it, last first. -/
structure Run where
  part : Part
  before : Nat
  after : Nat
  outcome : Outcome
  inner : List Run

/-- What a parser works on: the current token, unless the source is at its end, and its line, and the place after it; and the
account so far: the warnings, the calls of the lexer, and the parts inside the one that is gone through, all last first. -/
structure State where
  current : Option Token
  line : Nat
  cursor : Cursor
  warnings : List (Nat × BracketFault)
  calls : List Call
  inner : List Run

namespace State

/-- The state before the lexer is called. -/
def initial (source : String) : State := ⟨none, 1, Cursor.start source, [], [], []⟩

/-- The tokens that are not yet taken, were they read. -/
def tokens (s : State) : TokenStream :=
  match s.current with
  | some token => ⟨⟨token, s.line⟩ :: (TokenStream.ofCursor s.cursor).lexemes, (TokenStream.ofCursor s.cursor).stop⟩
  | none => ⟨[], .finish s.line⟩

/-- The number of tokens that are not yet taken. -/
def left (s : State) : Nat := s.tokens.lexemes.length

/-- The state after a part that was entered in another state. -/
def close (s : State) (part : Part) (entered : State) (outcome : Outcome) : State :=
  { s with inner := ⟨part, entered.left, s.left, outcome, s.inner⟩ :: entered.inner }

end State

end OnDemand

/-- A parser that reads tokens on demand. -/
abbrev OnDemand := EStateM ParseError OnDemand.State

namespace OnDemand

open Scriptorium.Script.Parser (Context Progress partText? unaryOp? assignment? assigned labelOf)
open Std (HashSet)

/-- Goes through a part and adds it to the account. -/
def recorded {α : Type} (part : Part) (outcome : α → Outcome) (p : OnDemand α) : OnDemand α := fun s =>
  match p { s with inner := [] } with
  | .ok a s' => .ok a (s'.close part s (outcome a))
  | .error error s' => .error error (s'.close part s .failed)

/-- A production of the grammar. -/
def production {α : Type} (part : Part) (p : OnDemand α) : OnDemand α := recorded part (fun _ => .done) p

/-- Fails on a line. -/
def fail {α : Type} (line : Nat) (cause : ParseCause) : OnDemand α := throw ⟨line, cause⟩

/-- Fails on the line of the current token. -/
def failHere {α : Type} (cause : ParseCause) : OnDemand α := fun s => .error ⟨s.line, cause⟩ s

/-- The current token, unless the source is at its end. -/
def peek : OnDemand (Option Token) := fun s => .ok s.current s

/-- The line of the current token. -/
def line : OnDemand Nat := fun s => .ok s.line s

/-- Calls the lexer for a new current token. -/
def advance : OnDemand Unit := fun s =>
  let call := Call.at s.cursor
  let s' := { s with cursor := call.after, calls := call :: s.calls }
  match call.reading with
  | .token lexeme => .ok () { s' with current := some lexeme.token, line := lexeme.line }
  | .finish line => .ok () { s' with current := none, line }
  | .fault fault => .error ⟨fault.line, .lexical fault.cause⟩ s'

/-- Whether the current token is a given one. -/
def isAt (token : Token) : OnDemand Bool := return (← peek) == some token

/-- Takes the current token if it is a given symbol. -/
def accept (symbol : Symbol) : OnDemand Bool := do
  if ← isAt (.symbol symbol) then
    advance
    return true
  return false

/-- Takes the current token if it is a given keyword. -/
def acceptWord (word : Keyword) : OnDemand Bool := do
  if ← isAt (.keyword word) then
    advance
    return true
  return false

/-- Takes the current token, which has to be a given symbol. -/
def expect (symbol : Symbol) (what : Expectation) : OnDemand Unit := do
  if ← isAt (.symbol symbol) then advance else failHere (.expected what)

/-- Takes the current token, which has to be a name. -/
def name (what : Expectation) : OnDemand String := do
  match ← peek with
  | some (.name name) =>
    advance
    return name
  | _ => failHere (.expected what)

/-- How a pass ends that gives a value. -/
def passOutcome {β : Type} (given : β × Bool) : Outcome := if given.2 then .again else .last

/-- Repeats a pass while it asks for another one. One that takes no token would be the last all the same, for the recursion to end;
but every pass of the grammar that asks for another one takes a token (`parse_progresses`). -/
def iterate {β : Type} (loop : Loop) (pass : β → OnDemand (β × Bool)) (b : β) : OnDemand β := fun s =>
  match recorded (.pass loop) passOutcome (pass b) s with
  | .ok (b', true) s' => if s'.left < s.left then iterate loop pass b' s' else .ok b' s'
  | .ok (b', false) s' => .ok b' s'
  | .error error s' => .error error s'
termination_by s => s.left

/-- Items up to the end of the source or a symbol that ends them, which is not taken. -/
def itemsUntil {α : Type} (loop : Loop) (stop : Symbol) (item : OnDemand α) : OnDemand (List α) := do
  let pass (done : List α) : OnDemand (List α × Bool) := do
    match ← peek with
    | none => return (done, false)
    | some token =>
      if token = .symbol stop then return (done, false)
      return ((← item) :: done, true)
  return (← iterate loop pass []).reverse

/-- One or more items between commas. An item is given those before it, last first. -/
def separated {α : Type} (loop : Loop) (item : List α → OnDemand α) : OnDemand (List α) := do
  let pass (done : List α) : OnDemand (List α × Bool) := do
    let done := (← item done) :: done
    return (done, ← accept .comma)
  return (← iterate loop pass []).reverse

/-- The parts of a bracket expression, as far as the tokens go on with them. -/
def bracketParts : OnDemand (List String) := do
  -- the part that is being read, and those before it, last first
  let pass (done : String × List String) : OnDemand ((String × List String) × Bool) := do
    let (part, parts) := done
    match ← peek with
    | none => return (done, false)
    | some token =>
      if token = .symbol .colon then
        advance
        return (("", part :: parts), true)
      match partText? token with
      | some text =>
        advance
        return ((part ++ text, parts), true)
      | none => return (done, false)
  let (part, parts) ← iterate .bracket pass ("", [])
  return (part :: parts).reverse

variable (ctx : Context)

/-- An error, or null with a warning where the unit tolerates it. -/
def bracketFault (line : Nat) (fault : BracketFault) : OnDemand Expr := do
  if ctx.tolerant then
    modify fun s => { s with warnings := (line, fault) :: s.warnings }
    return .null
  fail line (.bracket fault)

/-- Reads a bracket expression and resolves it. -/
def bracket : OnDemand Expr := do
  let line ← line
  advance
  let parts ← bracketParts
  let path := ":".intercalate parts
  if !(← accept .greater) then bracketFault ctx line (.unclosed path)
  else if parts.any String.isEmpty then bracketFault ctx line (.malformed path)
  else
    match BracketHandler.resolve ctx.env.brackets parts with
    | some value => return .bracket path value
    | none => bracketFault ctx line (.unresolved path)

/-- The operator of a level at the current place. -/
def connectiveAt (level : Nat) : OnDemand (Option Connective) := do
  match ← peek with
  | some (.symbol symbol) => return (Connective.ofSymbol? symbol).filter (·.level == level)
  | _ => return none

mutual

/-- An expression, one level deeper. -/
def expression (budget : Nat) : OnDemand Expr :=
  match budget with
  | 0 => production .expression (failHere .nestedTooDeeply)
  | budget + 1 => production .expression (assignment budget)
termination_by (budget, 0)

/-- An operation of the loosest level, or an assignment to a name. -/
def assignment (budget : Nat) : OnDemand Expr := do
  let target ← operation Connective.levels budget
  let line ← line
  match ← peek with
  | some (.symbol symbol) =>
    match assignment? symbol with
    | none => return target
    | some op =>
      advance
      let value ← expression budget
      match target with
      | .name name _ => return .assign name (assigned name line op value) line
      | _ => fail line .invalidTarget
  | _ => return target
termination_by (budget, Connective.levels + 5)

/-- Operands of a level joined by its operators, which group to the left. -/
def operation (level : Nat) (budget : Nat) : OnDemand Expr :=
  match level with
  | 0 => unary budget
  | level + 1 => do
    let first ← operation level budget
    operationFrom level budget first
termination_by (budget, level + 4)

/-- The operators of a level that follow a left operand, each with its right one in a pass of its own. -/
def operationFrom (level : Nat) (budget : Nat) (left : Expr) : OnDemand Expr := do
  match ← connectiveAt (level + 1) with
  | none => return left
  | some op =>
    let line ← line
    match budget with
    | 0 => recorded (.pass .operators) (fun _ => .again) (do advance; failHere .nestedTooDeeply)
    | budget + 1 =>
      let right ← recorded (.pass .operators) (fun _ => .again) (do advance; operation level budget)
      operationFrom level budget (op.apply line left right)
termination_by (budget, 0)

/-- An operand with its unary operators. -/
def unary (budget : Nat) : OnDemand Expr := production .unary do
  let line ← line
  match ← peek with
  | some (.symbol symbol) =>
    match unaryOp? symbol with
    | none => call budget
    | some op =>
      advance
      match budget with
      | 0 => failHere .nestedTooDeeply
      | budget + 1 => return .unary op (← unary budget) line
  | _ => call budget
termination_by (budget, 3)

/-- A primary expression, or a call of a named function. -/
def call (budget : Nat) : OnDemand Expr := do
  let callee ← primary budget
  if !(← isAt (.symbol .leftParen)) then return callee
  match callee with
  | .name name line =>
    advance
    let args ← if ← isAt (.symbol .rightParen) then pure [] else separated .arguments fun _ => expression budget
    expect .rightParen .argumentsEnd
    return .call name args line
  | _ => failHere .notCallable
termination_by (budget, 2)

/-- A literal, a name, a bracket expression, or an expression in parentheses. -/
def primary (budget : Nat) : OnDemand Expr := do
  let line ← line
  match ← peek with
  | some (.number value) => do advance; return .number value
  | some (.text value) => do advance; return .text value
  | some (.keyword .trueWord) => do advance; return .bool true
  | some (.keyword .falseWord) => do advance; return .bool false
  | some (.keyword .nullWord) => do advance; return .null
  | some (.name name) => do advance; return .name name line
  | some (.symbol .leftParen) => do
    advance
    let inner ← expression budget
    expect .rightParen .groupEnd
    return inner
  | some (.symbol .less) => bracket ctx
  | token => fail line (.unexpected (labelOf token))
termination_by (budget, 1)

end

/-- A condition in parentheses. -/
def condition (what : Expectation) (budget : Nat) : OnDemand Expr := do
  expect .leftParen what
  let condition ← expression ctx budget
  expect .rightParen .conditionEnd
  return condition

/-- An expression and a semicolon. -/
def expressionStatement (budget : Nat) : OnDemand Stmt := do
  let value ← expression ctx budget
  expect .semicolon .expressionEnd
  return .expr value

/-- The declaration of a local, from its keyword on. -/
def declaration (isMutable : Bool) (budget : Nat) : OnDemand Stmt := do
  advance
  let line ← line
  let name ← name .variableName
  let initial ←
    if ← accept .assign then some <$> expression ctx budget
    else if isMutable then pure none
    else fail line (.uninitialized name)
  expect .semicolon .variableEnd
  return .declare name isMutable initial line

/-- A return, from its keyword on. -/
def returnStatement (budget : Nat) : OnDemand Stmt := do
  let line ← line
  advance
  let value ← if ← isAt (.symbol .semicolon) then pure none else some <$> expression ctx budget
  expect .semicolon .returnEnd
  return .giveBack value line

/-- Statements in braces. -/
def block (statement : OnDemand Stmt) : OnDemand (List Stmt) := do
  expect .leftBrace .blockStart
  let body ← itemsUntil .block .rightBrace statement
  expect .rightBrace .blockEnd
  return body

/-- A statement, one level deeper. -/
def statement (budget : Nat) : OnDemand Stmt :=
  match budget with
  | 0 => production .statement (failHere .nestedTooDeeply)
  | budget + 1 => production .statement do
    match ← peek with
    | some (.keyword .varWord) => declaration ctx true budget
    | some (.keyword .valWord) => declaration ctx false budget
    | some (.keyword .ifWord) =>
      advance
      let condition ← condition ctx .ifParen budget
      let whenTrue ← statement budget
      let whenFalse ← if ← acceptWord .elseWord then some <$> statement budget else pure none
      return .branch condition whenTrue whenFalse
    | some (.keyword .whileWord) =>
      advance
      let condition ← condition ctx .whileParen budget
      return .loop condition (← statement budget)
    | some (.keyword .returnWord) => returnStatement ctx budget
    | some (.symbol .leftBrace) => .block <$> block (statement budget)
    | some (.symbol .semicolon) =>
      advance
      return .empty
    | some (.keyword .globalWord) | some (.keyword .functionWord) => failHere .notAtTopLevel
    | _ => expressionStatement ctx budget

/-- Refuses a name that a native, the group or this unit already has. -/
def checkFree (declared : HashSet String) (name : String) (line : Nat) : OnDemand Unit := do
  if ctx.env.isNative name then fail line (.shadowsNative name)
  else
    match ctx.env.declaredIn name with
    | some unit => fail line (.definedIn name unit)
    | none => if declared.contains name then fail line (.definedHere name)

/-- The declaration of a global. -/
def globalDeclaration (declared : HashSet String) : OnDemand GlobalDecl := do
  advance
  let line ← line
  let name ← name .globalName
  checkFree ctx declared name line
  expect .assign .globalAssign
  let initial ← expression ctx maxNesting
  expect .semicolon .globalEnd
  return ⟨name, initial, line⟩

/-- A parameter, which no other parameter before it is called like. -/
def parameter (before : List String) : OnDemand String := do
  let line ← line
  let name ← name .parameterName
  if name ∈ before then fail line (.duplicateParameter name)
  return name

/-- The declaration of a function. -/
def functionDeclaration (declared : HashSet String) : OnDemand FunctionDecl := do
  advance
  let line ← line
  let name ← name .functionName
  checkFree ctx declared name line
  expect .leftParen .functionParen
  let params ← if ← isAt (.symbol .rightParen) then pure [] else separated .parameters parameter
  expect .rightParen .parametersEnd
  let body ← block (statement ctx maxNesting)
  return ⟨name, params, body, line⟩

/-- One declaration or statement at the top level, unless the source is at its end. -/
def topLevelItem (done : Progress) : OnDemand (Progress × Bool) := do
  match ← peek with
  | none => return (done, false)
  | some (.keyword .globalWord) =>
    let decl ← globalDeclaration ctx done.declared
    return ({ done with globals := decl :: done.globals, declared := done.declared.insert decl.name }, true)
  | some (.keyword .functionWord) =>
    let decl ← functionDeclaration ctx done.declared
    return ({ done with functions := decl :: done.functions, declared := done.declared.insert decl.name }, true)
  | some _ =>
    let stmt ← statement ctx maxNesting
    return ({ done with statements := stmt :: done.statements }, true)

/-- A whole unit, from the first call of the lexer on. -/
def wholeUnit (artifact : String) : OnDemand ParsedUnit := do
  advance
  let done ← iterate .unit (topLevelItem ctx) ⟨[], [], [], ∅⟩
  return ⟨ctx.unit, artifact, done.globals.reverse, done.functions.reverse, done.statements.reverse⟩

/-- What parsing a unit on demand gives, and the account of it: the unit or an error, and in order the warnings, the calls of the
lexer and the parts gone through. -/
structure Account where
  result : Except ParseError ParsedUnit
  warnings : List (Nat × BracketFault)
  calls : List Call
  runs : List Run

/-- Parses a unit against its group's environment, and reads its tokens on demand. -/
def parse (env : Environment) (source unit artifact : String) (tolerant : Bool) : Account :=
  match wholeUnit ⟨unit, env, tolerant⟩ artifact (State.initial source) with
  | .ok parsed s => ⟨.ok parsed, s.warnings.reverse, s.calls.reverse, s.inner.reverse⟩
  | .error error s => ⟨.error error, s.warnings.reverse, s.calls.reverse, s.inner.reverse⟩

/-! ## The same parse -/

/-- The end of the source leaves nothing of it. -/
theorem next_end {cursor after : Cursor} {line : Nat} (next : cursor.next = (.finish line, after)) : after = ⟨line, []⟩ := by
  unfold Cursor.next at next
  split at next
  · cases next
  · obtain ⟨empty, rfl⟩ := readToken_finish next
    rw [empty] at next
    exact (Prod.mk.inj next).2.symm

/-- Where a warning is given, and of what. -/
def placeOf (warning : BracketWarning) : Nat × BracketFault := (warning.line, warning.fault)

/-- A state that reads on demand stands for one that has read everything: it has the same tokens ahead, and gave the same
warnings. -/
structure StandsFor (t : Parser.State) (s : State) : Prop where
  tokens : t.tokens = s.tokens
  warnings : t.warnings.map placeOf = s.warnings
  ended : s.current = none → s.cursor = ⟨s.line, []⟩

/-- Two parsers, of which the second reads on demand, end in the same way. -/
inductive Agree {α : Type} : EStateM.Result ParseError Parser.State α → EStateM.Result ParseError State α → Prop
  | value (a : α) {t : Parser.State} {s : State} (stands : StandsFor t s) : Agree (.ok a t) (.ok a s)
  | failure (error : ParseError) {t : Parser.State} {s : State} (warnings : t.warnings.map placeOf = s.warnings) :
    Agree (.error error t) (.error error s)

/-- A parser that reads on demand does what another does. -/
def Matches {α : Type} (p : Parser α) (q : OnDemand α) : Prop := ∀ t s, StandsFor t s → Agree (p t) (q s)

namespace StandsFor

variable {t : Parser.State} {s : State}

theorem current (stands : StandsFor t s) : t.current? = s.current := by
  rw [Parser.State.current?, stands.tokens, State.tokens]
  cases s.current <;> rfl

theorem line (stands : StandsFor t s) : t.line = s.line := by
  rw [Parser.State.line, stands.tokens, State.tokens]
  cases s.current <;> rfl

theorem left (stands : StandsFor t s) : t.remaining = s.left := by
  rw [t.remaining_eq, stands.tokens, State.left]

/-- What is ahead of the current token has still to be read. -/
theorem next (stands : StandsFor t s) : t.next.tokens = TokenStream.ofCursor s.cursor := by
  show { t.tokens with lexemes := t.tokens.lexemes.tail } = TokenStream.ofCursor s.cursor
  rw [stands.tokens, State.tokens]
  cases current : s.current with
  | some token => rfl
  | none =>
    have finish : Cursor.next ⟨s.line, []⟩ = (.finish s.line, ⟨s.line, []⟩) := by
      simp [Cursor.next, skipTrivia, Trivia.faultAtEnd, readToken]
    rw [stands.ended current, TokenStream.ofCursor_finish finish]
    rfl

end StandsFor

section
variable {α β : Type} {p : Parser α} {q : OnDemand α} {f : α → Parser β} {g : α → OnDemand β}

private theorem matches_bind (first : Matches p q) (rest : ∀ a, Matches (f a) (g a)) : Matches (p >>= f) (q >>= g) := by
  intro t s stands
  show Agree (EStateM.bind p f t) (EStateM.bind q g s)
  have agree := first t s stands
  unfold EStateM.bind
  generalize p t = result, q s = result' at agree ⊢
  cases agree with
  | value a stands => exact rest a _ _ stands
  | failure error warnings => exact .failure error warnings

private theorem matches_pure (a : α) : Matches (pure a) (pure a) := fun _ _ stands => .value a stands

private theorem matches_fail (line : Nat) (cause : ParseCause) : Matches (Parser.fail line cause : Parser α) (fail line cause) :=
  fun _ _ stands => .failure _ stands.warnings

private theorem matches_failHere (cause : ParseCause) : Matches (Parser.failHere cause : Parser α) (failHere cause) := by
  intro t s stands
  rw [Parser.failHere, failHere, stands.line]
  exact .failure _ stands.warnings

private theorem matches_peek : Matches Parser.peek peek := by
  intro t s stands
  rw [Parser.peek, peek, stands.current]
  exact .value _ stands

private theorem matches_line : Matches Parser.line line := by
  intro t s stands
  rw [Parser.line, line, stands.line]
  exact .value _ stands

/-- Calling the lexer gives what has been read beforehand. -/
theorem agree_advance {t : Parser.State} {s : State} (ahead : t.tokens = TokenStream.ofCursor s.cursor)
    (warnings : t.warnings.map placeOf = s.warnings) : Agree (Parser.settle t) (advance s) := by
  unfold Parser.settle advance Call.at
  simp only
  rcases next : s.cursor.next with ⟨lexeme | line | fault, after⟩
  · rw [TokenStream.ofCursor_token next] at ahead
    rw [ahead]
    exact .value () ⟨ahead, warnings, nofun⟩
  · rw [TokenStream.ofCursor_finish next] at ahead
    rw [ahead]
    exact .value () ⟨ahead, warnings, fun _ => next_end next⟩
  · rw [TokenStream.ofCursor_fault next] at ahead
    rw [ahead]
    exact .failure _ warnings

private theorem matches_advance : Matches Parser.advance advance := fun _ _ stands => agree_advance stands.next stands.warnings

private theorem matches_isAt (token : Token) : Matches (Parser.isAt token) (isAt token) :=
  matches_bind matches_peek fun _ => matches_pure _

private theorem matches_accept (symbol : Symbol) : Matches (Parser.accept symbol) (accept symbol) := by
  refine matches_bind (matches_isAt _) fun here => ?_
  split
  · exact matches_bind matches_advance fun _ => matches_pure _
  · exact matches_pure _

private theorem matches_acceptWord (word : Keyword) : Matches (Parser.acceptWord word) (acceptWord word) := by
  refine matches_bind (matches_isAt _) fun here => ?_
  split
  · exact matches_bind matches_advance fun _ => matches_pure _
  · exact matches_pure _

private theorem matches_expect (symbol : Symbol) (what : Expectation) : Matches (Parser.expect symbol what)
    (expect symbol what) := by
  refine matches_bind (matches_isAt _) fun here => ?_
  split
  · exact matches_advance
  · exact matches_failHere _

private theorem matches_ending (symbol : Symbol) (what : Expectation) (a : α) :
    Matches (do Parser.expect symbol what; return a) (do expect symbol what; return a) :=
  matches_bind (matches_expect symbol what) fun _ => matches_pure a

private theorem matches_name (what : Expectation) : Matches (Parser.name what) (name what) := by
  refine matches_bind matches_peek fun token => ?_
  rcases token with _ | (_ | _ | name | _ | _)
  case some.name => exact matches_bind matches_advance fun _ => matches_pure name
  all_goals exact matches_failHere _

/-- Keeping the account changes nothing. -/
theorem matches_recorded {part : Part} {outcome : α → Outcome} (same : Matches p q) : Matches p (recorded part outcome q) := by
  intro t s stands
  have agree := same t { s with inner := [] } ⟨stands.tokens, stands.warnings, stands.ended⟩
  unfold recorded
  generalize p t = result, q { s with inner := [] } = result' at agree ⊢
  cases agree with
  | value a stands => exact .value a ⟨stands.tokens, stands.warnings, stands.ended⟩
  | failure error warnings => exact .failure error warnings

private theorem matches_iterate {loop : Loop} {pass : β → Parser (β × Bool)} {pass' : β → OnDemand (β × Bool)}
    (each : ∀ b, Matches (pass b) (pass' b)) (b : β) : Matches (Parser.iterate pass b) (iterate loop pass' b) := by
  intro t s stands
  induction left : s.left using Nat.strong_induction_on generalizing b t s with
  | _ left' ih =>
    subst left
    have same : Agree (pass b t) (recorded (.pass loop) passOutcome (pass' b) s) := matches_recorded (each b) t s stands
    rw [Parser.iterate.eq_def, iterate.eq_def]
    generalize pass b t = result, recorded (.pass loop) passOutcome (pass' b) s = result' at same ⊢
    cases same with
    | failure error warnings => exact .failure error warnings
    | @value given t' s' stands' =>
      obtain ⟨b', _ | _⟩ := given
      · exact .value b' stands'
      · simp only [stands.left, stands'.left]
        split
        · rename_i shorter
          exact ih s'.left shorter b' t' s' stands' rfl
        · exact .value b' stands'

private theorem matches_itemsUntil {loop : Loop} {stop : Symbol} (each : Matches p q) :
    Matches (Parser.itemsUntil stop p) (itemsUntil loop stop q) := by
  refine matches_bind (matches_iterate ?_ []) fun _ => matches_pure _
  intro done
  refine matches_bind matches_peek fun token => ?_
  cases token with
  | none => exact matches_pure _
  | some token =>
    dsimp only
    split
    · exact matches_pure _
    · exact matches_bind each fun _ => matches_pure _

private theorem matches_separated {loop : Loop} {item : List α → Parser α} {item' : List α → OnDemand α}
    (each : ∀ done, Matches (item done) (item' done)) : Matches (Parser.separated item) (separated loop item') := by
  refine matches_bind (matches_iterate ?_ []) fun _ => matches_pure _
  intro done
  exact matches_bind (each done) fun _ => matches_bind (matches_accept _) fun _ => matches_pure _

end

private theorem matches_bracketParts : Matches Parser.bracketParts bracketParts := by
  refine matches_bind (matches_iterate ?_ ("", [])) fun _ => matches_pure _
  intro done
  refine matches_bind matches_peek fun token => ?_
  cases token with
  | none => exact matches_pure _
  | some token =>
    dsimp only
    split
    · exact matches_bind matches_advance fun _ => matches_pure _
    · cases partText? token with
      | none => exact matches_pure _
      | some text => exact matches_bind matches_advance fun _ => matches_pure _

section
variable {ctx : Context} {budget : Nat}

private theorem matches_bracketFault (line : Nat) (fault : BracketFault) :
    Matches (Parser.bracketFault ctx line fault) (bracketFault ctx line fault) := by
  unfold Parser.bracketFault bracketFault
  split
  · refine matches_bind ?_ fun _ => matches_pure _
    intro t s stands
    exact .value _ ⟨stands.tokens, congrArg _ stands.warnings, stands.ended⟩
  · exact matches_fail _ _

private theorem matches_bracket : Matches (Parser.bracket ctx) (bracket ctx) := by
  refine matches_bind matches_line fun line => matches_bind matches_advance fun _ => ?_
  refine matches_bind matches_bracketParts fun parts => matches_bind (matches_accept _) fun closed => ?_
  split
  · exact matches_bracketFault line _
  · split
    · exact matches_bracketFault line _
    · cases BracketHandler.resolve ctx.env.brackets parts with
      | some value => exact matches_pure _
      | none => exact matches_bracketFault line _

/-- The levels of the grammar of expressions within a budget. -/
structure ExpressionsMatch (ctx : Context) (budget : Nat) : Prop where
  expression : Matches (Parser.expression ctx budget) (expression ctx budget)
  unary : Matches (Parser.unary ctx budget) (unary ctx budget)
  operation : ∀ level, Matches (Parser.operation ctx level budget) (operation ctx level budget)
  operationFrom : ∀ level left, Matches (Parser.operationFrom ctx level budget left) (operationFrom ctx level budget left)

private theorem matches_primary (inner : Matches (Parser.expression ctx budget) (expression ctx budget)) :
    Matches (Parser.primary ctx budget) (primary ctx budget) := by
  unfold Parser.primary primary
  refine matches_bind matches_line fun line => matches_bind matches_peek fun token => ?_
  rcases token with _ | (_ | _ | _ | word | symbol)
  case none => exact matches_fail _ _
  case some.keyword =>
    cases word with
    | trueWord | falseWord | nullWord => exact matches_bind matches_advance fun _ => matches_pure _
    | _ => exact matches_fail _ _
  case some.symbol =>
    cases symbol with
    | leftParen => exact matches_bind matches_advance fun _ => matches_bind inner (matches_ending _ _)
    | less => exact matches_bracket
    | _ => exact matches_fail _ _
  all_goals exact matches_bind matches_advance fun _ => matches_pure _

private theorem matches_call (inner : Matches (Parser.expression ctx budget) (expression ctx budget)) :
    Matches (Parser.call ctx budget) (call ctx budget) := by
  unfold Parser.call call
  refine matches_bind (matches_primary inner) fun callee => matches_bind (matches_isAt _) fun opened => ?_
  dsimp only
  split
  · exact matches_pure _
  · cases callee with
    | name name line =>
      have finish (args : List Expr) := matches_ending .rightParen .argumentsEnd (Expr.call name args line)
      refine matches_bind matches_advance fun _ => matches_bind (matches_isAt _) fun closed => ?_
      split
      · exact matches_bind (matches_pure _) finish
      · exact matches_bind (matches_separated fun _ => inner) finish
    | _ => exact matches_failHere _

private theorem matches_unary (inner : Matches (Parser.expression ctx budget) (expression ctx budget))
    (smaller : ∀ b, budget = b + 1 → ExpressionsMatch ctx b) : Matches (Parser.unary ctx budget) (unary ctx budget) := by
  unfold Parser.unary unary
  refine matches_recorded (matches_bind matches_line fun line => matches_bind matches_peek fun token => ?_)
  rcases token with _ | (_ | _ | _ | _ | symbol)
  case some.symbol =>
    simp only
    cases unaryOp? symbol with
    | none => exact matches_call inner
    | some op =>
      refine matches_bind matches_advance fun _ => ?_
      cases budget with
      | zero => exact matches_failHere _
      | succ budget => exact matches_bind (smaller budget rfl).unary fun e => matches_pure _
  all_goals exact matches_call inner

private theorem matches_connectiveAt (level : Nat) : Matches (Parser.connectiveAt level) (connectiveAt level) := by
  refine matches_bind matches_peek fun token => ?_
  rcases token with _ | (_ | _ | _ | _ | _) <;> exact matches_pure _

private theorem matches_operationFrom (level : Nat) (left : Expr) (smaller : ∀ b, budget = b + 1 → ExpressionsMatch ctx b) :
    Matches (Parser.operationFrom ctx level budget left) (operationFrom ctx level budget left) := by
  unfold Parser.operationFrom operationFrom
  refine matches_bind (matches_connectiveAt _) fun found => ?_
  cases found with
  | none => exact matches_pure _
  | some op =>
    refine matches_bind matches_line fun line => ?_
    cases budget with
    | zero => exact matches_recorded (matches_bind matches_advance fun _ => matches_failHere _)
    | succ budget =>
      -- the operator and its right operand are one pass
      have pass : Matches (do Parser.advance; Parser.operation ctx level budget)
          (recorded (.pass .operators) (fun _ => .again) (do advance; operation ctx level budget)) :=
        matches_recorded (matches_bind matches_advance fun _ => (smaller budget rfl).operation level)
      have passes := matches_bind pass fun right => (smaller budget rfl).operationFrom level (op.apply line left right)
      rw [bind_assoc] at passes
      exact passes

private theorem matches_assignment (levels : ExpressionsMatch ctx budget) :
    Matches (Parser.assignment ctx budget) (assignment ctx budget) := by
  unfold Parser.assignment assignment
  refine matches_bind (levels.operation Connective.levels) fun target => ?_
  refine matches_bind matches_line fun line => matches_bind matches_peek fun token => ?_
  rcases token with _ | (_ | _ | _ | _ | symbol)
  case some.symbol =>
    simp only
    cases assignment? symbol with
    | none => exact matches_pure _
    | some op =>
      refine matches_bind matches_advance fun _ => matches_bind levels.expression fun value => ?_
      cases target with
      | name name line => exact matches_pure _
      | _ => exact matches_fail _ _
  all_goals exact matches_pure _

private theorem expressionsMatch_of (smaller : ∀ b, budget = b + 1 → ExpressionsMatch ctx b) : ExpressionsMatch ctx budget := by
  have inner : Matches (Parser.expression ctx budget) (expression ctx budget) := by
    unfold Parser.expression expression
    cases budget with
    | zero => exact matches_recorded (matches_failHere _)
    | succ budget => exact matches_recorded (matches_assignment (smaller budget rfl))
  refine ⟨inner, matches_unary inner smaller, ?_, fun level left => matches_operationFrom level left smaller⟩
  -- within one budget, a level of operators rests on the level below
  intro level
  induction level with
  | zero =>
    unfold Parser.operation operation
    exact matches_unary inner smaller
  | succ level ih =>
    unfold Parser.operation operation
    exact matches_bind ih fun first => matches_operationFrom level first smaller

private theorem expressionsMatch (budget : Nat) : ExpressionsMatch ctx budget := by
  induction budget with
  | zero => exact expressionsMatch_of nofun
  | succ budget ih =>
    refine expressionsMatch_of ?_
    rintro _ ⟨⟩
    exact ih

private theorem matches_expression (budget : Nat) : Matches (Parser.expression ctx budget) (expression ctx budget) :=
  (expressionsMatch budget).expression

private theorem matches_optional (budget : Nat) : Matches (some <$> Parser.expression ctx budget) (some <$> expression ctx budget) :=
  matches_bind (matches_expression budget) fun e => matches_pure (some e)

private theorem matches_condition (what : Expectation) (budget : Nat) :
    Matches (Parser.condition ctx what budget) (condition ctx what budget) :=
  matches_bind (matches_expect _ _) fun _ => matches_bind (matches_expression budget) (matches_ending _ _)

private theorem matches_expressionStatement (budget : Nat) :
    Matches (Parser.expressionStatement ctx budget) (expressionStatement ctx budget) :=
  matches_bind (matches_expression budget) fun value => matches_ending _ _ (Stmt.expr value)

private theorem matches_declaration (isMutable : Bool) (budget : Nat) :
    Matches (Parser.declaration ctx isMutable budget) (declaration ctx isMutable budget) := by
  refine matches_bind matches_advance fun _ => matches_bind matches_line fun line => ?_
  refine matches_bind (matches_name _) fun name => matches_bind (matches_accept _) fun given => ?_
  have finish (initial : Option Expr) :=
    matches_ending .semicolon .variableEnd (Stmt.declare name isMutable initial line)
  dsimp only
  split
  · exact matches_bind (matches_optional budget) finish
  · split
    · exact matches_bind (matches_pure _) finish
    · exact matches_bind (matches_fail _ _) finish

private theorem matches_returnStatement (budget : Nat) : Matches (Parser.returnStatement ctx budget)
    (returnStatement ctx budget) := by
  refine matches_bind matches_line fun line => matches_bind matches_advance fun _ => matches_bind (matches_isAt _) fun given => ?_
  have finish (value : Option Expr) := matches_ending .semicolon .returnEnd (Stmt.giveBack value line)
  dsimp only
  split
  · exact matches_bind (matches_pure _) finish
  · exact matches_bind (matches_optional budget) finish

private theorem matches_block {statement : Parser Stmt} {statement' : OnDemand Stmt} (each : Matches statement statement') :
    Matches (Parser.block statement) (block statement') :=
  matches_bind (matches_expect _ _) fun _ => matches_bind (matches_itemsUntil each) (matches_ending _ _)

private theorem matches_statement (budget : Nat) : Matches (Parser.statement ctx budget) (statement ctx budget) := by
  induction budget with
  | zero =>
    unfold Parser.statement statement
    exact matches_recorded (matches_failHere _)
  | succ budget ih =>
    unfold Parser.statement statement
    refine matches_recorded (matches_bind matches_peek fun token => ?_)
    rcases token with _ | (_ | _ | _ | word | symbol)
    case some.keyword =>
      cases word with
      | varWord => exact matches_declaration true budget
      | valWord => exact matches_declaration false budget
      | ifWord =>
        refine matches_bind matches_advance fun _ => matches_bind (matches_condition .ifParen budget) fun condition => ?_
        refine matches_bind ih fun whenTrue => matches_bind (matches_acceptWord _) fun other => ?_
        dsimp only
        split
        · exact matches_bind (matches_bind ih fun s => matches_pure (some s)) fun _ => matches_pure _
        · exact matches_bind (matches_pure _) fun _ => matches_pure _
      | whileWord =>
        refine matches_bind matches_advance fun _ => matches_bind (matches_condition .whileParen budget) fun condition => ?_
        exact matches_bind ih fun body => matches_pure _
      | returnWord => exact matches_returnStatement budget
      | globalWord | functionWord => exact matches_failHere _
      | _ => exact matches_expressionStatement budget
    case some.symbol =>
      cases symbol with
      | leftBrace => exact matches_bind (matches_block ih) fun body => matches_pure _
      | semicolon => exact matches_bind matches_advance fun _ => matches_pure _
      | _ => exact matches_expressionStatement budget
    all_goals exact matches_expressionStatement budget

private theorem matches_checkFree (declared : HashSet String) (name : String) (line : Nat) :
    Matches (Parser.checkFree ctx declared name line) (checkFree ctx declared name line) := by
  unfold Parser.checkFree checkFree
  split
  · exact matches_fail _ _
  · cases ctx.env.declaredIn name with
    | some unit => exact matches_fail _ _
    | none =>
      dsimp only
      split
      · exact matches_fail _ _
      · exact matches_pure _

private theorem matches_globalDeclaration (declared : HashSet String) :
    Matches (Parser.globalDeclaration ctx declared) (globalDeclaration ctx declared) := by
  refine matches_bind matches_advance fun _ => matches_bind matches_line fun line => matches_bind (matches_name _) fun name => ?_
  refine matches_bind (matches_checkFree declared name line) fun _ => matches_bind (matches_expect _ _) fun _ => ?_
  exact matches_bind (matches_expression maxNesting) fun initial => matches_ending _ _ _

private theorem matches_parameter (before : List String) : Matches (Parser.parameter before) (parameter before) := by
  refine matches_bind matches_line fun line => matches_bind (matches_name _) fun name => ?_
  split
  · exact matches_fail _ _
  · exact matches_pure _

private theorem matches_functionDeclaration (declared : HashSet String) :
    Matches (Parser.functionDeclaration ctx declared) (functionDeclaration ctx declared) := by
  refine matches_bind matches_advance fun _ => matches_bind matches_line fun line => matches_bind (matches_name _) fun name => ?_
  refine matches_bind (matches_checkFree declared name line) fun _ => matches_bind (matches_expect _ _) fun _ => ?_
  refine matches_bind (matches_isAt _) fun closed => ?_
  have finish (params : List String) : Matches
      (do Parser.expect .rightParen .parametersEnd
          let body ← Parser.block (Parser.statement ctx maxNesting)
          return (⟨name, params, body, line⟩ : FunctionDecl))
      (do expect .rightParen .parametersEnd
          let body ← block (statement ctx maxNesting)
          return (⟨name, params, body, line⟩ : FunctionDecl)) :=
    matches_bind (matches_expect _ _) fun _ => matches_bind (matches_block (matches_statement maxNesting)) fun body =>
      matches_pure _
  dsimp only
  split
  · exact matches_bind (matches_pure _) finish
  · exact matches_bind (matches_separated matches_parameter) finish

private theorem matches_topLevelItem (done : Progress) : Matches (Parser.topLevelItem ctx done) (topLevelItem ctx done) := by
  refine matches_bind matches_peek fun token => ?_
  rcases token with _ | (_ | _ | _ | word | _)
  case none => exact matches_pure _
  case some.keyword =>
    cases word with
    | globalWord => exact matches_bind (matches_globalDeclaration done.declared) fun decl => matches_pure _
    | functionWord => exact matches_bind (matches_functionDeclaration done.declared) fun decl => matches_pure _
    | _ => exact matches_bind (matches_statement maxNesting) fun s => matches_pure _
  all_goals exact matches_bind (matches_statement maxNesting) fun s => matches_pure _

/-- A whole unit is parsed in the same way, though its first token has still to be read. -/
theorem agree_wholeUnit (ctx : Context) (source artifact : String) :
    Agree (Parser.wholeUnit ctx artifact (.start (.ofSource source))) (wholeUnit ctx artifact (.initial source)) := by
  have first : Agree (Parser.settle (.start (.ofSource source))) (advance (.initial source)) := agree_advance rfl rfl
  have items : ∀ done, Matches (Parser.iterate (Parser.topLevelItem ctx) done) (iterate .unit (topLevelItem ctx) done) :=
    matches_iterate matches_topLevelItem
  have rest := matches_bind (items ⟨[], [], [], ∅⟩) fun done =>
    matches_pure (⟨ctx.unit, artifact, done.globals.reverse, done.functions.reverse, done.statements.reverse⟩ : ParsedUnit)
  show Agree (EStateM.bind Parser.settle _ (.start (.ofSource source))) (EStateM.bind advance _ (.initial source))
  unfold EStateM.bind
  generalize Parser.settle (.start (.ofSource source)) = result, advance (.initial source) = result' at first ⊢
  cases first with
  | value _ stands => exact rest _ _ stands
  | failure error warnings => exact .failure error warnings

end

/-- Reading tokens on demand makes no difference to what a source is parsed to, and to what is warned of. -/
theorem parse_eq (env : Environment) (source unit artifact : String) (tolerant : Bool) :
    (parse env source unit artifact tolerant).result = (env.parse source unit artifact tolerant).result ∧
      (parse env source unit artifact tolerant).warnings = (env.parse source unit artifact tolerant).warnings.map placeOf := by
  have agree := agree_wholeUnit ⟨unit, env, tolerant⟩ source artifact
  unfold parse Environment.parse
  generalize Parser.wholeUnit _ artifact _ = result, wholeUnit _ artifact _ = result' at agree ⊢
  cases agree with
  | value parsed stands => exact ⟨rfl, by rw [List.map_reverse, stands.warnings]⟩
  | failure error warnings => exact ⟨rfl, by rw [List.map_reverse, warnings]⟩

end OnDemand

end Scriptorium.Script
