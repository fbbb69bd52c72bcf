import Scriptorium.Text.Blank

/-!
# Paths

A path is a text, its names separated by slashes. Several slashes are one, and a slash at the end asks
for a directory.
-/
namespace Scriptorium.Files

/-- A path, as it is written. -/
abbrev Path := String

/-- A step along a path. -/
inductive PathStep
  /-- Stay in the directory. -/
  | here
  /-- Go to the directory that this one is in. -/
  | up
  | name (name : String)
deriving DecidableEq, Repr

/-- The step of a name in a path. -/
def PathStep.ofName (name : String) : PathStep :=
  if name = "." then .here else if name = ".." then .up else .name name

namespace Path

/-- The names of a path, without the empty ones between slashes that follow each other. -/
def names (path : Path) : List String :=
  ((Text.splitAt '/' path.toList).map String.ofList).filter (· ≠ "")

/-- Whether a path begins at the root of all files. -/
def isAbsolute (path : Path) : Bool := path.startsWith "/"

/-- The steps along a path. A slash at the end is a step that stays. -/
def steps (path : Path) : List PathStep :=
  path.names.map PathStep.ofName ++ if path.endsWith "/" then [.here] else []

/-- The path of a name in a directory. -/
def join (directory : Path) (name : String) : Path :=
  if directory.isEmpty || directory.endsWith "/" then directory ++ name else directory ++ "/" ++ name

/-- Whether a name has the ending of scripts, in letters of any case, after at least one other
character. -/
def isScriptName (name : String) : Bool :=
  let chars := name.toList
  3 < chars.length && (chars.drop (chars.length - 3)).map Char.toLower == ['.', 'z', 's']

end Path

end Scriptorium.Files
