import Scriptorium.Script.Lexer

/-!
# Parse errors

Why a source is no unit of the script language, and the wording of each reason.
-/
namespace Scriptorium.Script

/-- What the grammar asks for at some place. -/
inductive Expectation
  | globalName
  | globalAssign
  | globalEnd
  | functionName
  | functionParen
  | parameterName
  | parametersEnd
  | blockStart
  | blockEnd
  | variableName
  | variableEnd
  | ifParen
  | whileParen
  | conditionEnd
  | returnEnd
  | expressionEnd
  | argumentsEnd
  | groupEnd
deriving DecidableEq, Repr

/-- The wording of what is asked for. -/
def Expectation.message : Expectation → String
  | globalName => "Expected global name"
  | globalAssign => "Expected '=' after global name"
  | globalEnd => "Expected ';' after global declaration"
  | functionName => "Expected function name"
  | functionParen => "Expected '(' after function name"
  | parameterName => "Expected parameter name"
  | parametersEnd => "Expected ')' after parameters"
  | blockStart => "Expected '\x7b'"
  | blockEnd => "Expected '\x7d' after block"
  | variableName => "Expected variable name"
  | variableEnd => "Expected ';' after variable declaration"
  | ifParen => "Expected '(' after 'if'"
  | whileParen => "Expected '(' after 'while'"
  | conditionEnd => "Expected ')' after condition"
  | returnEnd => "Expected ';' after return"
  | expressionEnd => "Expected ';' after expression"
  | argumentsEnd => "Expected ')' after arguments"
  | groupEnd => "Expected ')' after expression"

/-- What is wrong with a bracket expression, and the text between its brackets. -/
inductive BracketFault
  | unclosed (path : String)
  | malformed (path : String)
  | unresolved (path : String)
deriving DecidableEq, Repr

/-- The wording of a bracket fault. -/
def BracketFault.message : BracketFault → String
  | unclosed path => s!"Unclosed bracket expression <{path}"
  | malformed path => s!"Malformed bracket expression <{path}>"
  | unresolved path => s!"Could not resolve <{path}>"

/-- Why a source is no unit. -/
inductive ParseCause
  | lexical (cause : LexCause)
  | expected (what : Expectation)
  /-- A token that begins no expression, by its label. -/
  | unexpected (label : String)
  | nestedTooDeeply
  | shadowsNative (name : String)
  | definedIn (name unit : String)
  | definedHere (name : String)
  | duplicateParameter (name : String)
  | notAtTopLevel
  | uninitialized (name : String)
  | invalidTarget
  | notCallable
  | bracket (fault : BracketFault)
deriving DecidableEq, Repr

/-- The wording of a cause. -/
def ParseCause.message : ParseCause → String
  | lexical cause => cause.message
  | expected what => what.message
  | unexpected label => s!"Unexpected token: {label}"
  | nestedTooDeeply => "Script nested too deeply"
  | shadowsNative name => s!"{name} shadows a native function"
  | definedIn name unit => s!"{name} is already defined in {unit}"
  | definedHere name => s!"{name} is already defined in this file"
  | duplicateParameter name => s!"Duplicate parameter {name}"
  | notAtTopLevel => "Globals and functions can only be declared at the top level"
  | uninitialized name => s!"val {name} must be initialized"
  | invalidTarget => "Invalid assignment target"
  | notCallable => "Only named functions can be called"
  | bracket fault => fault.message

/-- A cause and the line it is found on. -/
structure ParseError where
  line : Nat
  cause : ParseCause
deriving DecidableEq, Repr

/-- A bracket fault that was let pass, the line of its bracket, and the number of tokens that were left there. -/
structure BracketWarning where
  line : Nat
  fault : BracketFault
  left : Nat
deriving DecidableEq, Repr

/-- The wording of a warning. -/
def BracketWarning.message (unit : String) (warning : BracketWarning) : String :=
  s!"{unit}:{warning.line}: {warning.fault.message} (ignored)"

end Scriptorium.Script
