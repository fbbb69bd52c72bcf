/-!
# Build settings

What holds for every group of a run: whether to keep source lines in artifacts, and the units whose
bracket errors are let pass. Both only ever grow.
-/
namespace Scriptorium.Build

/-- The settings of a run. The suppressed units stand in order, none twice. -/
structure Settings where
  debug : Bool
  suppressed : List String
deriving DecidableEq, Repr

namespace Settings

/-- No debugging, and no unit whose errors are let pass. -/
def initial : Settings := ⟨false, []⟩

/-- Keeps source lines in the artifacts of every group that follows. -/
def enableDebug (settings : Settings) : Settings := { settings with debug := true }

/-- Puts a name into an ordered list without repetitions. -/
def insertName (name : String) : List String → List String
  | [] => [name]
  | other :: rest =>
    if name < other then name :: other :: rest
    else if name = other then other :: rest
    else other :: insertName name rest

/-- Lets bracket errors pass in the units of exactly this name. -/
def suppress (settings : Settings) (unit : String) : Settings :=
  { settings with suppressed := insertName unit settings.suppressed }

/-- Whether bracket errors are let pass in the units of a name. -/
def suppresses (settings : Settings) (unit : String) : Bool := settings.suppressed.contains unit

end Settings

end Scriptorium.Build
