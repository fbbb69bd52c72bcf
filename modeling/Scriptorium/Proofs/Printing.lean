import Mathlib
import Scriptorium.Proofs.SymbolTable

/-!
# Printing

How a syntax tree is written: its tokens with a space between them, each number by a literal that is chosen for its place, and
parentheses only where the operators around an expression would take it apart otherwise. The order of the operators is said here
once more (`Expr.rank`) and does not come from the grammar. A tree is printed on one line, and the lines that it bears are lost:
what is read back stands on the first line (`onLine`).
-/
namespace Scriptorium.Script

/-- A decimal literal: digits, and the digits after a point if there are any. -/
structure Literal where
  whole : List Char
  fraction : List Char
  begun : whole ≠ []
  wholeDigits : ∀ c ∈ whole, c.isDigit = true
  fractionDigits : ∀ c ∈ fraction, c.isDigit = true

namespace Literal

/-- How a literal is written. -/
def chars (literal : Literal) : List Char :=
  literal.whole ++ if literal.fraction.isEmpty then [] else '.' :: literal.fraction

/-- The number that a literal stands for. -/
def value (literal : Literal) : Float := Decimal.ofParts literal.whole literal.fraction

end Literal

/-- How a character of a text is written between quotes. -/
def escape : Char → List Char
  | '"' => ['\\', '"']
  | '\\' => ['\\', '\\']
  | '\n' => ['\\', 'n']
  | '\t' => ['\\', 't']
  | '\r' => ['\\', 'r']
  | c => [c]

/-- Whether characters make a word: a letter or an underscore, then letters, digits and underscores. -/
def isWord : List Char → Bool
  | [] => false
  | c :: rest => (c.isAlpha || c == '_') && rest.all Text.isWordChar

/-- A word that names something, and is no keyword. -/
structure IsName (name : String) : Prop where
  word : isWord name.toList = true
  noKeyword : Keyword.ofSpelling? name = none

/-- How a token is written, a number by the literal that is chosen for it. -/
def Token.chars (literal : Literal) : Token → List Char
  | .number _ => literal.chars
  | .text value => '"' :: value.toList.flatMap escape ++ ['"']
  | .name word => word.toList
  | .keyword word => word.spelling.toList
  | .symbol sign => sign.spelling.toList

/-- A token that can be written: the literal stands for the number, and a name is one. -/
def Token.Spelled (literal : Literal) : Token → Prop
  | .number value => literal.value = value
  | .name word => IsName word
  | _ => True

/-- How tight an operator binds: from `||`, the loosest, to `*`, `/` and `%`. -/
def Connective.rank : Connective → Nat
  | logical .or => 1
  | logical .and => 2
  | binary .equal | binary .notEqual => 3
  | binary .less | binary .greater | binary .lessEqual | binary .greaterEqual => 4
  | binary .add | binary .subtract | binary .concat => 5
  | binary .multiply | binary .divide | binary .modulo => 6

/-- How tight unary operators bind. -/
def unaryRank : Nat := 7

/-- How tight an expression holds together: an assignment the least, and a call or what stands for itself the most. -/
def Expr.rank : Expr → Nat
  | .assign _ _ _ => 0
  | .binary op _ _ _ => (Connective.binary op).rank
  | .logical op _ _ _ => (Connective.logical op).rank
  | .unary _ _ _ => unaryRank
  | _ => unaryRank + 1

theorem Connective.rank_add_level (op : Connective) : op.rank + op.level = unaryRank := by
  rcases op with (_ | _) | (_ | _) <;> rfl

theorem Connective.level_pos (op : Connective) : 0 < op.level := by
  rcases op with (_ | _) | (_ | _) <;> decide

theorem Connective.rank_pos (op : Connective) : 0 < op.rank := by
  rcases op with (_ | _) | (_ | _) <;> decide

theorem Expr.rank_apply (op : Connective) (line : Nat) (left right : Expr) : (op.apply line left right).rank = op.rank := by
  cases op <;> rfl

/-- The tokens of an expression where only such as hold together as tight as given can stand. -/
def enclosed (rank place : Nat) (tokens : List Token) : List Token :=
  if rank < place then .symbol .leftParen :: (tokens ++ [.symbol .rightParen]) else tokens

/-- Items between commas. -/
def commaSeparated (items : List (List Token)) : List Token := [Token.symbol .comma].intercalate items

/-- The symbol of an operator. -/
def unarySymbol : UnaryOp → Symbol
  | .negate => .minus
  | .not => .bang

mutual

/-- The tokens of an expression. All operators of one rank group to the left, so that only the right operand has to hold
tighter than they do. -/
def Expr.tokens (e : Expr) : List Token :=
  match e with
  | .number value => [.number value]
  | .text value => [.text value]
  | .bool true => [.keyword .trueWord]
  | .bool false => [.keyword .falseWord]
  | .null => [.keyword .nullWord]
  | .bracket path _ => [.symbol .less, .name path, .symbol .greater]
  | .name word _ => [.name word]
  | .assign target value _ => .name target :: .symbol .assign :: value.tokens
  | .binary op left right _ =>
    let op := Connective.binary op
    enclosed left.rank op.rank left.tokens ++ .symbol op.symbol :: enclosed right.rank (op.rank + 1) right.tokens
  | .logical op left right _ =>
    let op := Connective.logical op
    enclosed left.rank op.rank left.tokens ++ .symbol op.symbol :: enclosed right.rank (op.rank + 1) right.tokens
  | .unary op operand _ => .symbol (unarySymbol op) :: enclosed operand.rank unaryRank operand.tokens
  | .call callee args _ =>
    .name callee :: .symbol .leftParen :: (commaSeparated (Expr.tokensOf args) ++ [.symbol .rightParen])
termination_by structural e

/-- The tokens of each of some expressions. -/
def Expr.tokensOf (args : List Expr) : List (List Token) :=
  match args with
  | [] => []
  | arg :: args => arg.tokens :: Expr.tokensOf args
termination_by structural args

end

mutual

/-- The tokens of a statement. -/
def Stmt.tokens (s : Stmt) : List Token :=
  match s with
  | .expr value => value.tokens ++ [.symbol .semicolon]
  | .declare name isMutable initial _ =>
    .keyword (if isMutable then .varWord else .valWord) :: .name name ::
      (initial.elim [] (fun e => .symbol .assign :: e.tokens) ++ [.symbol .semicolon])
  | .branch condition whenTrue whenFalse =>
    .keyword .ifWord :: .symbol .leftParen ::
      (condition.tokens ++ .symbol .rightParen :: (whenTrue.tokens ++ Stmt.tokensIf whenFalse))
  | .loop condition body =>
    .keyword .whileWord :: .symbol .leftParen :: (condition.tokens ++ .symbol .rightParen :: body.tokens)
  | .giveBack value _ => .keyword .returnWord :: (value.elim [] Expr.tokens ++ [.symbol .semicolon])
  | .block body => .symbol .leftBrace :: (Stmt.tokensOf body ++ [.symbol .rightBrace])
  | .empty => [.symbol .semicolon]
termination_by structural s

/-- The tokens of statements that follow each other. -/
def Stmt.tokensOf (body : List Stmt) : List Token :=
  match body with
  | [] => []
  | s :: body => s.tokens ++ Stmt.tokensOf body
termination_by structural body

/-- The tokens of the other branch, if there is one. -/
def Stmt.tokensIf (s : Option Stmt) : List Token :=
  match s with
  | some s => .keyword .elseWord :: s.tokens
  | none => []
termination_by structural s

end

/-- The tokens of a global. -/
def GlobalDecl.tokens (decl : GlobalDecl) : List Token :=
  .keyword .globalWord :: .name decl.name :: .symbol .assign :: (decl.initial.tokens ++ [.symbol .semicolon])

/-- The tokens of a function. -/
def FunctionDecl.tokens (decl : FunctionDecl) : List Token :=
  .keyword .functionWord :: .name decl.name :: .symbol .leftParen ::
    (commaSeparated (decl.params.map fun param => [.name param]) ++ .symbol .rightParen :: .symbol .leftBrace ::
      (decl.body.flatMap Stmt.tokens ++ [.symbol .rightBrace]))

namespace ParsedUnit

/-- The tokens of a unit: its globals, its functions and its statements. -/
def tokens (unit : ParsedUnit) : List Token :=
  unit.globals.flatMap GlobalDecl.tokens ++ (unit.functions.flatMap FunctionDecl.tokens ++ unit.statements.flatMap Stmt.tokens)

/-- A unit as text: its tokens with a space between them. There is a literal for each place among the tokens, so that equal numbers
may be written in different ways. -/
def print (literals : Nat → Literal) (unit : ParsedUnit) : String :=
  String.ofList ([' '].intercalate (unit.tokens.mapIdx fun i => Token.chars (literals i)))

end ParsedUnit

theorem Expr.tokensOf_eq (args : List Expr) : Expr.tokensOf args = args.map Expr.tokens := by
  induction args with
  | nil => rfl
  | cons arg args ih => rw [Expr.tokensOf, ih, List.map_cons]

theorem Stmt.tokensOf_eq (body : List Stmt) : Stmt.tokensOf body = body.flatMap Stmt.tokens := by
  induction body with
  | nil => rfl
  | cons s body ih => rw [Stmt.tokensOf, ih, List.flatMap_cons]

theorem Expr.tokens_apply (op : Connective) (line : Nat) (left right : Expr) :
    (op.apply line left right).tokens =
      enclosed left.rank op.rank left.tokens ++ .symbol op.symbol :: enclosed right.rank (op.rank + 1) right.tokens := by
  cases op <;> rfl

/-! ## Trees that are printed -/

/-- An expression without brackets. -/
inductive Expr.Plain : Expr → Prop
  | number (value : Float) : Plain (.number value)
  | text (value : String) : Plain (.text value)
  | bool (value : Bool) : Plain (.bool value)
  | null : Plain .null
  | name (name : String) (line : Nat) : Plain (.name name line)
  | assign (name : String) {value : Expr} (line : Nat) (inside : Plain value) : Plain (.assign name value line)
  | apply (op : Connective) (line : Nat) {left right : Expr} (first : Plain left) (second : Plain right) :
      Plain (op.apply line left right)
  | unary (op : UnaryOp) {operand : Expr} (line : Nat) (inside : Plain operand) : Plain (.unary op operand line)
  | call (name : String) {args : List Expr} (line : Nat) (inside : ∀ arg ∈ args, Plain arg) : Plain (.call name args line)

/-- Whether a statement ends in an `if` that an `else` after it would go to. -/
def Stmt.endsOpen : Stmt → Bool
  | .branch _ _ none => true
  | .branch _ _ (some s) => s.endsOpen
  | .loop _ body => body.endsOpen
  | _ => false

/-- A statement without brackets, where every `val` has a value and no `else` goes to another `if` than it is printed for. -/
inductive Stmt.Printable : Stmt → Prop
  | expr {value : Expr} (plain : value.Plain) : Printable (.expr value)
  | declare (name : String) (isMutable : Bool) {initial : Option Expr} (line : Nat) (plain : ∀ e ∈ initial, e.Plain)
      (begun : isMutable = false → initial.isSome = true) : Printable (.declare name isMutable initial line)
  | branch {condition : Expr} {whenTrue : Stmt} {whenFalse : Option Stmt} (test : condition.Plain) (first : Printable whenTrue)
      (second : ∀ s ∈ whenFalse, Printable s) (closed : whenFalse.isSome = true → whenTrue.endsOpen = false) :
      Printable (.branch condition whenTrue whenFalse)
  | loop {condition : Expr} {body : Stmt} (test : condition.Plain) (inside : Printable body) : Printable (.loop condition body)
  | giveBack {value : Option Expr} (line : Nat) (plain : ∀ e ∈ value, e.Plain) : Printable (.giveBack value line)
  | block {body : List Stmt} (inside : ∀ s ∈ body, Printable s) : Printable (.block body)
  | empty : Printable .empty

/-- A unit that can be printed, and whose names an environment does not have yet. -/
structure ParsedUnit.Printable (literals : Nat → Literal) (env : Environment) (unit : ParsedUnit) : Prop where
  spelled : ∀ (i : Nat) (token : Token), unit.tokens[i]? = some token → token.Spelled (literals i)
  globals : ∀ decl ∈ unit.globals, decl.initial.Plain
  functions : ∀ decl ∈ unit.functions, decl.params.Nodup ∧ ∀ s ∈ decl.body, s.Printable
  statements : ∀ s ∈ unit.statements, s.Printable
  distinct : unit.names.Nodup
  free : ∀ name ∈ unit.names, env.isNative name = false ∧ env.declaredIn name = none

mutual

/-- An expression with another line everywhere. -/
def Expr.onLine (line : Nat) (e : Expr) : Expr :=
  match e with
  | .number value => .number value
  | .text value => .text value
  | .bool value => .bool value
  | .null => .null
  | .bracket path value => .bracket path value
  | .name word _ => .name word line
  | .assign target value _ => .assign target (value.onLine line) line
  | .binary op left right _ => .binary op (left.onLine line) (right.onLine line) line
  | .logical op left right _ => .logical op (left.onLine line) (right.onLine line) line
  | .unary op operand _ => .unary op (operand.onLine line) line
  | .call callee args _ => .call callee (Expr.onLineOf line args) line
termination_by structural e

def Expr.onLineOf (line : Nat) (args : List Expr) : List Expr :=
  match args with
  | [] => []
  | arg :: args => arg.onLine line :: Expr.onLineOf line args
termination_by structural args

end

mutual

/-- A statement with another line everywhere. -/
def Stmt.onLine (line : Nat) (s : Stmt) : Stmt :=
  match s with
  | .expr value => .expr (value.onLine line)
  | .declare name isMutable initial _ => .declare name isMutable (initial.map (Expr.onLine line)) line
  | .branch condition whenTrue whenFalse =>
    .branch (condition.onLine line) (whenTrue.onLine line) (Stmt.onLineIf line whenFalse)
  | .loop condition body => .loop (condition.onLine line) (body.onLine line)
  | .giveBack value _ => .giveBack (value.map (Expr.onLine line)) line
  | .block body => .block (Stmt.onLineOf line body)
  | .empty => .empty
termination_by structural s

def Stmt.onLineOf (line : Nat) (body : List Stmt) : List Stmt :=
  match body with
  | [] => []
  | s :: body => s.onLine line :: Stmt.onLineOf line body
termination_by structural body

def Stmt.onLineIf (line : Nat) (s : Option Stmt) : Option Stmt :=
  match s with
  | some s => some (s.onLine line)
  | none => none
termination_by structural s

end

/-- A global with another line everywhere. -/
def GlobalDecl.onLine (line : Nat) (decl : GlobalDecl) : GlobalDecl := ⟨decl.name, decl.initial.onLine line, line⟩

/-- A function with another line everywhere. -/
def FunctionDecl.onLine (line : Nat) (decl : FunctionDecl) : FunctionDecl :=
  ⟨decl.name, decl.params, decl.body.map (Stmt.onLine line), line⟩

/-- A unit with another line everywhere. -/
def ParsedUnit.onLine (line : Nat) (unit : ParsedUnit) : ParsedUnit where
  name := unit.name
  artifact := unit.artifact
  globals := unit.globals.map (GlobalDecl.onLine line)
  functions := unit.functions.map (FunctionDecl.onLine line)
  statements := unit.statements.map (Stmt.onLine line)

theorem Expr.onLineOf_eq (line : Nat) (args : List Expr) : Expr.onLineOf line args = args.map (Expr.onLine line) := by
  induction args with
  | nil => rfl
  | cons arg args ih => rw [Expr.onLineOf, ih, List.map_cons]

theorem Stmt.onLineOf_eq (line : Nat) (body : List Stmt) : Stmt.onLineOf line body = body.map (Stmt.onLine line) := by
  induction body with
  | nil => rfl
  | cons s body ih => rw [Stmt.onLineOf, ih, List.map_cons]

theorem Expr.onLine_apply (op : Connective) (line other : Nat) (left right : Expr) :
    (op.apply other left right).onLine line = op.apply line (left.onLine line) (right.onLine line) := by
  cases op <;> rfl

/-- The nesting of an expression where only such as hold together as tight as given can stand: parentheses count. -/
def enclosedNesting (rank place nesting : Nat) : Nat := if rank < place then nesting + 1 else nesting

/-- The number of operators of one rank in a row that an expression ends in. -/
def Expr.row : Expr → Nat
  | .binary op left _ _ => (if left.rank = (Connective.binary op).rank then left.row else 0) + 1
  | .logical op left _ _ => (if left.rank = (Connective.logical op).rank then left.row else 0) + 1
  | _ => 0

mutual

/-- The nesting of a printed expression: parentheses, arguments, operands of unary operators and assigned values are one level
deeper, and a right operand is one level deeper with every operator of the row in front of it. -/
def Expr.nesting (e : Expr) : Nat :=
  match e with
  | .number _ | .text _ | .bool _ | .null | .bracket _ _ | .name _ _ => 0
  | .assign _ value _ => value.nesting + 1
  | .binary op left right line =>
    let rank := (Connective.binary op).rank
    max (enclosedNesting left.rank rank left.nesting)
      ((Expr.binary op left right line).row + enclosedNesting right.rank (rank + 1) right.nesting)
  | .logical op left right line =>
    let rank := (Connective.logical op).rank
    max (enclosedNesting left.rank rank left.nesting)
      ((Expr.logical op left right line).row + enclosedNesting right.rank (rank + 1) right.nesting)
  | .unary _ operand _ => enclosedNesting operand.rank unaryRank operand.nesting + 1
  | .call _ args _ => Expr.nestingOf args
termination_by structural e

def Expr.nestingOf (args : List Expr) : Nat :=
  match args with
  | [] => 0
  | arg :: args => max (arg.nesting + 1) (Expr.nestingOf args)
termination_by structural args

end

mutual

/-- The nesting of a printed statement. -/
def Stmt.nesting (s : Stmt) : Nat :=
  match s with
  | .expr value => value.nesting + 2
  | .declare _ _ initial _ => initial.elim 0 (Expr.nesting · + 1) + 1
  | .branch condition whenTrue whenFalse =>
    max (condition.nesting + 1) (max whenTrue.nesting (Stmt.nestingIf whenFalse)) + 1
  | .loop condition body => max (condition.nesting + 1) body.nesting + 1
  | .giveBack value _ => value.elim 0 (Expr.nesting · + 1) + 1
  | .block body => Stmt.nestingOf body + 1
  | .empty => 1
termination_by structural s

def Stmt.nestingOf (body : List Stmt) : Nat :=
  match body with
  | [] => 0
  | s :: body => max s.nesting (Stmt.nestingOf body)
termination_by structural body

def Stmt.nestingIf (s : Option Stmt) : Nat :=
  match s with
  | some s => s.nesting
  | none => 0
termination_by structural s

end

/-- A unit that, when it is printed, nests no deeper than the parser follows. -/
structure ParsedUnit.Fits (unit : ParsedUnit) : Prop where
  globals : ∀ decl ∈ unit.globals, decl.initial.nesting + 1 ≤ maxNesting
  functions : ∀ decl ∈ unit.functions, ∀ s ∈ decl.body, s.nesting ≤ maxNesting
  statements : ∀ s ∈ unit.statements, s.nesting ≤ maxNesting

theorem Expr.nestingOf_le {limit : Nat} {args : List Expr} :
    Expr.nestingOf args ≤ limit ↔ ∀ arg ∈ args, arg.nesting + 1 ≤ limit := by
  induction args with
  | nil => simp [Expr.nestingOf]
  | cons arg args ih => simp [Expr.nestingOf, ih]

theorem Stmt.nestingOf_le {limit : Nat} {body : List Stmt} :
    Stmt.nestingOf body ≤ limit ↔ ∀ s ∈ body, s.nesting ≤ limit := by
  induction body with
  | nil => simp [Stmt.nestingOf]
  | cons s body ih => simp [Stmt.nestingOf, ih]

theorem Stmt.nesting_pos (s : Stmt) : 0 < s.nesting := by
  cases s <;> simp [Stmt.nesting]

theorem Expr.row_apply (op : Connective) (line : Nat) (left right : Expr) :
    (op.apply line left right).row = (if left.rank = op.rank then left.row else 0) + 1 := by
  cases op <;> rfl

theorem Expr.nesting_apply (op : Connective) (line : Nat) (left right : Expr) :
    (op.apply line left right).nesting =
      max (enclosedNesting left.rank op.rank left.nesting)
        ((op.apply line left right).row + enclosedNesting right.rank (op.rank + 1) right.nesting) := by
  cases op <;> rfl

end Scriptorium.Script
