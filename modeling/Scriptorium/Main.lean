import Scriptorium.Application

/-!
# The program

Reads the files below the working directory, runs the application on them, and prints what it leaves
behind.
-/
namespace Scriptorium

open Files (Entries Node)

/-- No unit of a run has an answer that takes more steps. -/
def stepLimit : Nat := 1000000000000000000

/-- The way from a directory, `depth` names below the working directory, to a file of the given place. It
is empty, and leads nowhere, if the file is not below the working directory. -/
def linkTarget (root : String) (depth : Nat) (place : String) : String :=
  if place = root then String.join (List.replicate depth "../") ++ "."
  else if place.startsWith (root ++ "/") then
    String.join (List.replicate depth "../") ++ (place.drop (root.length + 1)).toString
  else ""

mutual

/-- Reads an entry of a directory; what is no file, directory or link is left out. -/
partial def readEntry (root : String) (depth : Nat) (entry : IO.FS.DirEntry) :
    IO (Option (String × Node)) := do
  let named (node : Node) := some (entry.fileName, node)
  match (← entry.path.symlinkMetadata).type with
  | .dir => return named (.directory (← readEntries root (depth + 1) (← entry.path.readDir)))
  | .file => return named (.file (← IO.FS.readBinFile entry.path).toList)
  | .symlink =>
    let place ← try some <$> IO.FS.realPath entry.path catch _ => pure none
    return named (.link ((place.map fun place => linkTarget root depth place.toString).getD ""))
  | .other => return none

/-- Reads the entries of a directory. -/
partial def readEntries (root : String) (depth : Nat) (entries : Array IO.FS.DirEntry) : IO Entries :=
  return ((← entries.mapM (readEntry root depth)).filterMap id).toList

end

/-- Reads the files, runs the application, and prints what it leaves behind. -/
def runHere (arguments : List String) : IO UInt32 := do
  let directory ← IO.FS.realPath (← IO.currentDir)
  let files ← readEntries directory.toString 0 (← directory.readDir)
  match Application.run files arguments stepLimit with
  | none => return 1
  | some outcome =>
    outcome.output.forM IO.println
    outcome.log.forM fun event => IO.println event.line
    outcome.errors.forM IO.eprintln
    return outcome.exitCode.toUInt32

end Scriptorium

/-- Runs the application on the files below the working directory. -/
def main (arguments : List String) : IO UInt32 := Scriptorium.runHere arguments
