/-!
# Tokens

The words of the script language: numbers, texts, names, keywords and symbols.
-/
namespace Scriptorium.Script

/-- The keywords. -/
inductive Keyword
  | varWord
  | valWord
  | globalWord
  | functionWord
  | ifWord
  | elseWord
  | whileWord
  | returnWord
  | trueWord
  | falseWord
  | nullWord
deriving DecidableEq, Repr

namespace Keyword

/-- Every keyword. -/
def all : List Keyword :=
  [varWord, valWord, globalWord, functionWord, ifWord, elseWord, whileWord, returnWord, trueWord,
    falseWord, nullWord]

/-- How a keyword is written in a script. -/
def spelling : Keyword → String
  | varWord => "var"
  | valWord => "val"
  | globalWord => "global"
  | functionWord => "function"
  | ifWord => "if"
  | elseWord => "else"
  | whileWord => "while"
  | returnWord => "return"
  | trueWord => "true"
  | falseWord => "false"
  | nullWord => "null"

/-- The name of a keyword in messages. -/
def label : Keyword → String
  | varWord => "Var"
  | valWord => "Val"
  | globalWord => "Global"
  | functionWord => "Function"
  | ifWord => "If"
  | elseWord => "Else"
  | whileWord => "While"
  | returnWord => "Return"
  | trueWord => "True"
  | falseWord => "False"
  | nullWord => "Null"

/-- The keyword with a spelling, if there is one. -/
def ofSpelling? (word : String) : Option Keyword := all.find? (·.spelling == word)

end Keyword

/-- The operators and the punctuation. -/
inductive Symbol
  | plus
  | minus
  | star
  | slash
  | percent
  | tilde
  | equal
  | notEqual
  | less
  | greater
  | lessEqual
  | greaterEqual
  | andAnd
  | orOr
  | bang
  | assign
  | plusAssign
  | minusAssign
  | leftParen
  | rightParen
  | leftBrace
  | rightBrace
  | semicolon
  | comma
  | colon
  | dot
deriving DecidableEq, Repr

namespace Symbol

/-- How a symbol is written in a script. -/
def spelling : Symbol → String
  | plus => "+"
  | minus => "-"
  | star => "*"
  | slash => "/"
  | percent => "%"
  | tilde => "~"
  | equal => "=="
  | notEqual => "!="
  | less => "<"
  | greater => ">"
  | lessEqual => "<="
  | greaterEqual => ">="
  | andAnd => "&&"
  | orOr => "||"
  | bang => "!"
  | assign => "="
  | plusAssign => "+="
  | minusAssign => "-="
  | leftParen => "("
  | rightParen => ")"
  | leftBrace => "\x7b"
  | rightBrace => "\x7d"
  | semicolon => ";"
  | comma => ","
  | colon => ":"
  | dot => "."

/-- The name of a symbol in messages. -/
def label : Symbol → String
  | plus => "Plus"
  | minus => "Minus"
  | star => "Star"
  | slash => "Slash"
  | percent => "Percent"
  | tilde => "Tilde"
  | equal => "Equal"
  | notEqual => "NotEqual"
  | less => "Less"
  | greater => "Greater"
  | lessEqual => "LessEqual"
  | greaterEqual => "GreaterEqual"
  | andAnd => "And"
  | orOr => "Or"
  | bang => "Not"
  | assign => "Assign"
  | plusAssign => "PlusEqual"
  | minusAssign => "MinusEqual"
  | leftParen => "LParen"
  | rightParen => "RParen"
  | leftBrace => "LBrace"
  | rightBrace => "RBrace"
  | semicolon => "Semicolon"
  | comma => "Comma"
  | colon => "Colon"
  | dot => "Dot"

/-- The longest symbol at the front of a text, and what follows it. -/
def read? : List Char → Option (Symbol × List Char)
  | '+' :: '=' :: rest => some (plusAssign, rest)
  | '-' :: '=' :: rest => some (minusAssign, rest)
  | '=' :: '=' :: rest => some (equal, rest)
  | '!' :: '=' :: rest => some (notEqual, rest)
  | '<' :: '=' :: rest => some (lessEqual, rest)
  | '>' :: '=' :: rest => some (greaterEqual, rest)
  | '&' :: '&' :: rest => some (andAnd, rest)
  | '|' :: '|' :: rest => some (orOr, rest)
  | '+' :: rest => some (plus, rest)
  | '-' :: rest => some (minus, rest)
  | '=' :: rest => some (assign, rest)
  | '!' :: rest => some (bang, rest)
  | '<' :: rest => some (less, rest)
  | '>' :: rest => some (greater, rest)
  | '*' :: rest => some (star, rest)
  | '/' :: rest => some (slash, rest)
  | '%' :: rest => some (percent, rest)
  | '~' :: rest => some (tilde, rest)
  | '(' :: rest => some (leftParen, rest)
  | ')' :: rest => some (rightParen, rest)
  | '\x7b' :: rest => some (leftBrace, rest)
  | '\x7d' :: rest => some (rightBrace, rest)
  | ';' :: rest => some (semicolon, rest)
  | ',' :: rest => some (comma, rest)
  | ':' :: rest => some (colon, rest)
  | '.' :: rest => some (dot, rest)
  | _ => none

/-- A symbol has at least one character. -/
theorem read?_shorter {s rest : List Char} {symbol : Symbol} (h : read? s = some (symbol, rest)) :
    rest.length < s.length := by
  unfold read? at h
  split at h <;> simp at h <;> obtain ⟨_, rfl⟩ := h <;> simp only [List.length_cons] <;> omega

end Symbol

/-- A token. -/
inductive Token
  | number (value : Float)
  | text (value : String)
  | name (name : String)
  | keyword (word : Keyword)
  | symbol (symbol : Symbol)
deriving Repr, DecidableEq

/-- A token and the line that it starts on. -/
structure Lexeme where
  token : Token
  line : Nat
deriving Repr, DecidableEq

end Scriptorium.Script
