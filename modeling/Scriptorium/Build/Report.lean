import Scriptorium.Files.Tree
import Scriptorium.Log

/-!
# Reports

What a run tells: every failure of a unit or a group, in the order in which they happened, and how many
groups and units came to what end.
-/
namespace Scriptorium.Build

open Files (ReadError)

/-- Why a unit fails. -/
inductive UnitError
  /-- The content cannot be opened or read. -/
  | sourceIo (unit : String) (error : ReadError)
  /-- The content is not of the language. -/
  | parse (file : String) (line : Nat) (explanation : String)
  /-- Anything else, panics included. -/
  | unclassified (unit message : String)
deriving DecidableEq, Repr

/-- The wording of an error. -/
def UnitError.message : UnitError → String
  | sourceIo unit error => s!"Could not load script {unit}: {error.message}"
  | parse file line explanation => s!"Error parsing {file}:{line} -- {explanation}"
  | unclassified unit message => s!"Error loading {unit}: {message}"

/-- The stages of a group that may fail. -/
inductive Stage
  | compile
  | execute
deriving DecidableEq, Repr

/-- The name of a stage, as messages give it. -/
def Stage.name : Stage → String
  | compile => "compiling"
  | execute => "executing"

/-- Why a group fails. -/
structure GroupError where
  group : String
  stage : Stage
  reason : String
deriving DecidableEq, Repr

/-- The wording of an error. -/
def GroupError.message (error : GroupError) : String :=
  s!"Error {error.stage.name} {error.group}: {error.reason}"

/-- A failure of a unit or of a group. -/
inductive Failure
  | unit (error : UnitError)
  | group (error : GroupError)
deriving DecidableEq, Repr

/-- The wording of a failure. -/
def Failure.message : Failure → String
  | unit error => error.message
  | group error => error.message

/-- A report. -/
structure Report where
  failures : List Failure
  groupsBuilt : Nat
  groupsSkipped : Nat
  unitsParsed : Nat
  unitsSkipped : Nat
deriving DecidableEq, Repr

namespace Report

/-- The report before anything has happened. -/
def empty : Report := ⟨[], 0, 0, 0, 0⟩

/-- Whether nothing failed. -/
def success (report : Report) : Bool := report.failures.isEmpty

/-- The failures of units. -/
def unitFailures (report : Report) : List UnitError :=
  report.failures.filterMap fun
    | .unit error => some error
    | .group _ => none

/-- The failures of groups. -/
def groupFailures (report : Report) : List GroupError :=
  report.failures.filterMap fun
    | .unit _ => none
    | .group error => some error

/-- The wording of every failure. -/
def messages (report : Report) : List String := report.failures.map Failure.message

/-- Adds a failure. -/
def record (report : Report) (failure : Failure) : Report :=
  { report with failures := report.failures ++ [failure] }

/-- One more group was built. -/
def countBuilt (report : Report) : Report := { report with groupsBuilt := report.groupsBuilt + 1 }

/-- One more group was left out because of its name. -/
def countDuplicate (report : Report) : Report :=
  { report with groupsSkipped := report.groupsSkipped + 1 }

/-- One more unit was parsed. -/
def countParsed (report : Report) : Report := { report with unitsParsed := report.unitsParsed + 1 }

/-- One more unit was left out by its directives. -/
def countSkipped (report : Report) : Report := { report with unitsSkipped := report.unitsSkipped + 1 }

/-- How a failure is reported when it happens. -/
def failureEvent (failure : Failure) : LogEvent := ⟨.error, .report, failure.message⟩

/-- How the end of a run is reported. -/
def summaryEvent (report : Report) : LogEvent :=
  let counts := s!"{report.groupsBuilt} groups built, {report.groupsSkipped} duplicates skipped, " ++
    s!"{report.unitsParsed} units parsed, {report.unitsSkipped} units skipped"
  if report.success then ⟨.info, .report, s!"Scripts loaded: {counts}"⟩
  else
    ⟨.error, .report, s!"Scripts loaded with {report.failures.length} error(s): {counts}"⟩

end Report

end Scriptorium.Build
