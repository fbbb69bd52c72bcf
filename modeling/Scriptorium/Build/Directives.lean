import Scriptorium.Files.Tree
import Scriptorium.Log
import Scriptorium.Text.Blank
import Scriptorium.Text.Utf8

/-!
# Directives

Lines of a unit that say how it is built: `#debug`, `#ignoreBracketErrors`, `#norun` and
`#loader name`. To the language itself they are comments.
-/
namespace Scriptorium.Build

open Files (ReadError)
open Text (Bytes isBlank isWordChar trim)

/-- What the directives of a unit say. -/
structure Directives where
  debug : Bool
  ignoreBracketErrors : Bool
  norun : Bool
  loader : Option String
deriving DecidableEq, Repr

namespace Directives

/-- No directive at all. -/
def initial : Directives := ⟨false, false, false, none⟩

/-- Whether a unit is loaded by the loader of a name. -/
def runsUnder (directives : Directives) (loader : String) : Bool :=
  match directives.loader with
  | some wanted => wanted == loader
  | none => true

end Directives

/-- Why the directives of a unit cannot be told. -/
inductive ScanError
  | read (error : ReadError)
  | notText (fault : Text.Utf8.Fault)
  | directive (line : Nat) (message : String)
deriving DecidableEq, Repr

/-- The wording of an error. -/
def ScanError.message : ScanError → String
  | read error => s!"IO error: {error.message}"
  | notText fault => s!"invalid UTF-8: {fault.message}"
  | directive line message => s!"line {line}: {message}"

/-- A directive: its name, and the word after it. -/
structure Directive where
  name : String
  argument : Option String
deriving DecidableEq, Repr

/-- Whether a character separates a name from its word. -/
def isGap (c : Char) : Bool := c == ' ' || c == '\t'

/-- What stands after the name of a directive: nothing, or a gap and one word. Absent when there is
anything else. -/
def argumentOf? (s : List Char) : Option (Option String) :=
  let word := (s.dropWhile isGap).takeWhile (!isBlank ·)
  let rest := (s.dropWhile isGap).dropWhile (!isBlank ·)
  if (s.dropWhile isGap).isEmpty then some none
  else if (s.head?.map isGap).getD false && !word.isEmpty && (rest.dropWhile isGap).isEmpty then
    some (some (String.ofList word))
  else none

/-- The directive that a trimmed line is. -/
def directive? (line : List Char) : Option Directive :=
  match line with
  | '#' :: rest =>
    let name := rest.takeWhile isWordChar
    if name.isEmpty then none
    else (argumentOf? (rest.dropWhile isWordChar)).map fun argument => ⟨String.ofList name, argument⟩
  | _ => none

/-- What a directive adds to those before it; absent when it is none that is known. A loader has to be
named. -/
def Directives.apply? (directives : Directives) (directive : Directive) :
    Option (Except String Directives) :=
  match directive.name with
  | "debug" => some (.ok { directives with debug := true })
  | "ignoreBracketErrors" => some (.ok { directives with ignoreBracketErrors := true })
  | "norun" => some (.ok { directives with norun := true })
  | "loader" =>
    match directive.argument with
    | some loader => some (.ok { directives with loader })
    | none => some (.error "#loader requires a loader name")
  | _ => none

/-- The report of a directive. -/
def directiveEvent (unit : String) (line : Nat) (name : String) : LogEvent :=
  ⟨.trace, .directives, s!"{unit}:{line}: #{name}"⟩

/-- Goes through lines, the first of which has the given number; `events` holds what there is to report
up to them, last first. -/
def scanLines (unit : String) (number : Nat) (directives : Directives) (events : List LogEvent) :
    List (List Char) → Except ScanError Directives × List LogEvent
  | [] => (.ok directives, events.reverse)
  | line :: rest =>
    match directive? (trim line) with
    | none => scanLines unit (number + 1) directives events rest
    | some directive =>
      match directives.apply? directive with
      | none => scanLines unit (number + 1) directives events rest
      | some (.ok directives) =>
        scanLines unit (number + 1) directives (directiveEvent unit number directive.name :: events) rest
      | some (.error message) => (.error (.directive number message), events.reverse)

/-- The directives of a unit, and what there is to report. -/
def scan (unit : String) (content : Except ReadError Bytes) :
    Except ScanError Directives × List LogEvent :=
  match content with
  | .error error => (.error (.read error), [])
  | .ok bytes =>
    match Text.Utf8.decode bytes with
    | .error fault => (.error (.notText fault), [])
    | .ok text => scanLines unit 1 .initial [] (Text.lines text.toList)

end Scriptorium.Build
