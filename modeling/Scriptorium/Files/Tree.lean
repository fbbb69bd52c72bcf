import Scriptorium.Files.Path
import Scriptorium.Text.Utf8

/-!
# File trees

The files below the working directory. A path is followed step by step, through symbolic links as
well; what lies above the working directory is not known, and neither are absolute paths. Where a
path leads to nothing that can be read, an error says why.
-/
namespace Scriptorium.Files

open Text (Bytes)

/-- Why something cannot be read. -/
inductive ReadError
  | notFound
  | notDirectory
  | isDirectory
  | tooManyLinks
  | nameTooLong
  | nulInName
  | notText
  | other (message : String)
deriving DecidableEq, Repr

/-- The wording of an error. -/
def ReadError.message : ReadError → String
  | notFound => "No such file or directory (os error 2)"
  | notDirectory => "Not a directory (os error 20)"
  | isDirectory => "Is a directory (os error 21)"
  | tooManyLinks => "Too many levels of symbolic links (os error 40)"
  | nameTooLong => "File name too long (os error 36)"
  | nulInName => "file name contained an unexpected NUL byte"
  | notText => "stream did not contain valid UTF-8"
  | other message => message

/-- A file, a directory or a symbolic link. -/
inductive Node
  | file (content : Bytes)
  | directory (entries : List (String × Node))
  | link (target : Path)
deriving Inhabited

/-- What a directory holds, by name. -/
abbrev Entries := List (String × Node)

/-- The greatest number of links that one path is followed through. -/
def maxLinks : Nat := 40

/-- The greatest number of bytes of a name. -/
def maxNameLength : Nat := 255

/-- The number of bytes that a path has to stay below. -/
def maxPathLength : Nat := 4096

/-- A place in a tree: what is there, and the directories that lead to it, innermost first, each with
the name of the step taken from it. -/
structure Place where
  node : Node
  trail : List (Entries × String)

namespace Place

/-- The place of the working directory. -/
def ofRoot (entries : Entries) : Place := ⟨.directory entries, []⟩

/-- The names that lead to a place, outermost first. -/
def names (place : Place) : List String := (place.trail.map (·.2)).reverse

end Place

/-- Follows steps from a place. A link in the way is followed; one at the end only on request. Fails
after too many links. -/
def walk (follow : Bool) (links : Nat) (place : Place) (steps : List PathStep) :
    Except ReadError Place :=
  match steps with
  | [] => .ok place
  | step :: rest =>
    match place.node with
    | .file _ | .link _ => .error .notDirectory
    | .directory entries =>
      match step with
      | .here => walk follow links place rest
      | .up =>
        match place.trail with
        | [] => .error .notFound
        | (outer, _) :: trail => walk follow links ⟨.directory outer, trail⟩ rest
      | .name name =>
        if maxNameLength < name.utf8ByteSize then .error .nameTooLong
        else
          match entries.lookup name with
          | none => .error .notFound
          | some (.link target) =>
            if rest.isEmpty && !follow then .ok ⟨.link target, (entries, name) :: place.trail⟩
            else
              match links with
              | 0 => .error .tooManyLinks
              | links + 1 =>
                if target.isEmpty || target.isAbsolute then .error .notFound
                else walk follow links place (target.steps ++ rest)
          | some node => walk follow links ⟨node, (entries, name) :: place.trail⟩ rest
termination_by (links, steps.length)

/-- The place of a path. -/
def locate (entries : Entries) (path : Path) (follow : Bool) : Except ReadError Place :=
  if path.contains '\x00' then .error .nulInName
  else if path.isEmpty || path.isAbsolute then .error .notFound
  else if maxPathLength ≤ path.utf8ByteSize then .error .nameTooLong
  else walk follow maxLinks (.ofRoot entries) path.steps

/-- What a path leads to, through links. -/
def find (entries : Entries) (path : Path) : Except ReadError Node :=
  (locate entries path true).map Place.node

/-- Whether a path leads to anything. -/
def pathExists (entries : Entries) (path : Path) : Bool := (find entries path).toBool

/-- The content of a file. -/
def read (entries : Entries) (path : Path) : Except ReadError Bytes :=
  match find entries path with
  | .ok (.file content) => .ok content
  | .ok _ => .error .isDirectory
  | .error error => .error error

/-- The text of a file. -/
def readText (entries : Entries) (path : Path) : Except ReadError String :=
  match read entries path with
  | .ok content =>
    match Text.Utf8.decode content with
    | .ok text => .ok text
    | .error _ => .error .notText
  | .error error => .error error

/-- What a directory holds. -/
def list (entries : Entries) (path : Path) : Except ReadError Entries :=
  match find entries path with
  | .ok (.directory held) => .ok held
  | .ok _ => .error .notDirectory
  | .error error => .error error

/-- Puts something in the place of a name, or takes it away. -/
def setEntry (entries : Entries) (name : String) (node : Option Node) : Entries :=
  let others := entries.filter (·.1 != name)
  match node with
  | some node => others ++ [(name, node)]
  | none => others

/-- Puts something at the end of some names, or takes it away, and makes the directories on the way. -/
def setAt (entries : Entries) (names : List String) (node : Option Node) : Entries :=
  match names with
  | [] => entries
  | [name] => setEntry entries name node
  | name :: rest =>
    let held := match entries.lookup name with
      | some (.directory held) => held
      | _ => []
    setEntry entries name (some (.directory (setAt held rest node)))

/-- The names that a path leads to, as far as it leads through links to directories. -/
def settle (entries : Entries) (names : List String) : List String :=
  names.foldl (fun settled name =>
    let next := settled ++ [name]
    match locate entries ("/".intercalate next) true with
    | .ok place => place.names
    | .error _ => next) []

/-- Writes a file, also through links. -/
def write (entries : Entries) (path : Path) (content : Bytes) : Entries :=
  setAt entries (settle entries path.names) (some (.file content))

/-- Makes a directory, unless there is one. -/
def makeDirectory (entries : Entries) (path : Path) : Entries :=
  if pathExists entries path then entries
  else setAt entries (settle entries path.names) (some (.directory []))

/-- The names of a path, with links resolved in all but the last. -/
def settleOuter (entries : Entries) (path : Path) : List String :=
  settle entries path.names.dropLast ++ path.names.getLast?.toList

/-- Makes a link. -/
def makeLink (entries : Entries) (path target : Path) : Entries :=
  setAt entries (settleOuter entries path) (some (.link target))

/-- Takes a file, a directory or a link away. -/
def remove (entries : Entries) (path : Path) : Entries :=
  setAt entries (settleOuter entries path) none

end Scriptorium.Files
