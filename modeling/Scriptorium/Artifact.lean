import Scriptorium.Bytecode.Chunk
import Scriptorium.Text.Blank
import Std.Data.TreeMap

/-!
# Artifacts

What a build of a group produces: payloads by name, in the order of the names. Each unit becomes a
body with its functions; the initial values of the globals become units of their own; and an entry
point names the units in the order in which they run. The name of a unit's artifact is made of the
name of the unit and is an identifier.
-/
namespace Scriptorium

/-- Payloads by artifact name. -/
abbrev ArtifactSet := Std.TreeMap String String

/-- The number of bytes of all payloads. -/
def ArtifactSet.payloadSize (set : ArtifactSet) : Nat :=
  set.foldl (fun size _ payload => size + payload.utf8ByteSize) 0

open Text (isWordChar endsIgnoringCase)

/-- The ending of script files. -/
def scriptEnding : List Char := ['.', 'z', 's']

/-- The name of a unit's artifact. Path separators in front and the ending of script files are
dropped, every character that cannot stand in a word becomes an underscore, and an underscore is put
before a digit in front. -/
def artifactName (unit : String) : String :=
  let path := unit.toList.dropWhile fun c => c == '/' || c == '\\'
  let stem := if endsIgnoringCase scriptEnding path then path.take (path.length - 3) else path
  match stem.map fun c => if isWordChar c then c else '_' with
  | [] => "__script"
  | c :: rest => String.ofList (if c.isDigit then '_' :: c :: rest else c :: rest)

namespace Bytecode

/-- A compiled function. -/
structure Function where
  name : String
  arity : Nat
  chunk : Chunk
deriving Inhabited, Repr

/-- A compiled unit; `source` is the name that errors give it. -/
structure CompiledUnit where
  source : String
  body : Chunk
  functions : List Function
deriving Inhabited, Repr

/-- Where a group begins: `units` holds artifact names in the order in which the units run. -/
structure EntryPoint where
  group : String
  debug : Bool
  units : List String
deriving Inhabited, Repr

/-- The artifact of the entry point. -/
def mainArtifact : String := "__main__"

/-- The artifact of the initial values of globals. -/
def initArtifact : String := "__init__"

end Bytecode

end Scriptorium
