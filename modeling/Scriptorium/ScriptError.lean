import Scriptorium.Compile.CompileError
import Scriptorium.Machine.Fault
import Scriptorium.Machine.Program
import Scriptorium.Script.ParseError

/-!
# Script errors

What can go wrong with scripts, from reading them to running them, and how it is worded.
-/
namespace Scriptorium

open Compile (CompileError)
open Machine (LoadError RunError)
open Script (ParseError)

/-- Something that goes wrong with scripts. -/
inductive ScriptError
  /-- The content of a unit is no UTF-8. -/
  | notText
  | parse (unit : String) (error : ParseError)
  | compile (error : CompileError)
  | load (error : LoadError)
  | run (error : RunError)
deriving DecidableEq, Repr

/-- The fault of content that is no text. -/
def notTextMessage : String := "stream did not contain valid UTF-8"

/-- What an artifact lacks that is no part of a program. -/
def Machine.LoadError.message : LoadError → String
  | missing artifact => s!"Invalid artifact {artifact}: missing"
  | undecodable artifact => s!"Invalid artifact {artifact}: undecodable"

/-- The wording of an error. -/
def ScriptError.message : ScriptError → String
  | notText => s!"IO error: {notTextMessage}"
  | parse unit error => s!"Parse error in {unit} at line {error.line}: {error.cause.message}"
  | compile error => s!"Compile error in {error.unit} at line {error.line}: {error.cause.message}"
  | load error => error.message
  | run error => error.message

end Scriptorium
