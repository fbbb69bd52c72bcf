import Scriptorium.Files.Tree
import Scriptorium.Native
import Scriptorium.Text.Inspect

/-!
# Sources of scripts

A group is a list of units that are compiled together. A unit has a name and a content, which is
opened anew each time it is wanted; opening it may fail, and may change the host.

A source lists groups in the order in which they are loaded. Groups are given directly, or found below
a directory: a script in the directory is a group of its own, and every directory in it that has
scripts beneath it is a group of these, by name. Linked directories beneath a group are not entered.
-/
namespace Scriptorium.Build

open Files (Entries Node Path ReadError)
open Text (Bytes)

/-- A content that was opened: its bytes, or why they cannot be read. -/
abbrev Stream := Except ReadError Bytes

/-- A unit. -/
structure ScriptUnit (η : Type) where
  name : String
  openStream : η → Attempt ReadError Stream × η

/-- A unit with a content that does not change. -/
def ScriptUnit.ofBytes {η : Type} (name : String) (content : Bytes) : ScriptUnit η :=
  ⟨name, fun host => (.returned (.ok content), host)⟩

/-- A group. -/
structure ScriptGroup (η : Type) where
  name : String
  units : List (ScriptUnit η)

/-- What listing the groups of a source gives: the groups or an error, and what there is to report. -/
structure Listing (η : Type) where
  result : Except String (List (ScriptGroup η))
  events : List LogEvent

/-- A source of scripts. -/
structure Source (η : Type) where
  groups : Listing η

/-- The wording of a failure to list the groups of a source. -/
def sourceFailure (message : String) : String := s!"Script source error: {message}"

/-- A group, for developers. -/
def ScriptGroup.inspect {η : Type} (group : ScriptGroup η) : String :=
  s!"ScriptGroup \x7b name: {Text.inspect group.name}, units: " ++
    s!"{Text.inspectAll (group.units.map ScriptUnit.name)} \x7d"

namespace Source

variable {η : Type}

/-- Given groups. -/
def ofGroups (groups : List (ScriptGroup η)) : Source η := ⟨.ok groups, []⟩

/-- A source that fails to list its groups. -/
def failing (message : String) : Source η := ⟨.error (sourceFailure message), []⟩

/-- The groups of several sources, one after the other. Listing stops at the first failure. -/
def cascade : List (Source η) → Source η
  | [] => ofGroups []
  | source :: sources =>
    match source.groups with
    | ⟨.error message, events⟩ => ⟨.error message, events⟩
    | ⟨.ok groups, events⟩ =>
      let rest := (cascade sources).groups
      ⟨rest.result.map (groups ++ ·), events ++ rest.events⟩

/-- A report of this module. -/
def note (level : LogLevel) (message : String) : LogEvent := ⟨level, .source, message⟩

/-- The name of a unit: the names that lead to it from the directory of all scripts. -/
def unitName (names : List String) : String := "/".intercalate names

/-- A directory of a group that is yet to be gone through: its path, the names that lead to it from the
directory of all scripts, and what it holds. -/
structure Pending where
  path : Path
  names : List String
  entries : Entries

/-- The scripts of a group as far as they are found, each with the names that lead to it; the
directories that are yet to be gone through, the next one first; and what there is to report. -/
structure Gathering where
  scripts : List (List String × Bytes)
  pending : List Pending
  events : List LogEvent

/-- The entries of a directory by name. -/
def byName (entries : Entries) : Entries := entries.mergeSort fun a b => decide (a.1 ≤ b.1)

variable (files : Entries)

/-- Takes account of an entry of a directory. -/
def Gathering.add (directory : Pending) (gathering : Gathering) (entry : String × Node) : Gathering :=
  let path := Path.join directory.path entry.1
  let names := directory.names ++ [entry.1]
  match Files.find files path, entry.2 with
  | .ok (.directory _), .directory entries =>
    { gathering with pending := ⟨path, names, entries⟩ :: gathering.pending }
  | .ok (.directory _), _ =>
    -- a linked directory may lead back into the group
    { gathering with events := gathering.events ++ [note .debug s!"Skipping linked directory {path}"] }
  | .ok (.file content), _ =>
    if Path.isScriptName entry.1 then { gathering with scripts := gathering.scripts ++ [(names, content)] }
    else gathering
  | _, _ => gathering

/-- How much there is to go through at most. -/
noncomputable def Gathering.size (gathering : Gathering) : Nat := sizeOf (gathering.pending.map (·.entries))

theorem Gathering.size_add (directory : Pending) (gathering : Gathering) (entry : String × Node) :
    (gathering.add files directory entry).size ≤ gathering.size + sizeOf entry := by
  obtain ⟨name, node⟩ := entry
  simp only [add]
  split
  · simp only [size, List.map_cons, List.cons.sizeOf_spec, Prod.mk.sizeOf_spec, Node.directory.sizeOf_spec]
    omega
  · exact Nat.le_add_right ..
  · split <;> exact Nat.le_add_right ..
  · exact Nat.le_add_right ..

theorem Gathering.size_foldl (directory : Pending) (gathering : Gathering) (entries : Entries) :
    (entries.foldl (add files directory) gathering).size < gathering.size + sizeOf entries := by
  induction entries generalizing gathering with
  | nil => simp
  | cons entry entries ih =>
    have step := gathering.size_add files directory entry
    have rest := ih (gathering.add files directory entry)
    rw [List.foldl_cons, List.cons.sizeOf_spec]
    omega

private theorem sizeOf_byName (entries : Entries) : sizeOf (byName entries) = sizeOf entries :=
  (List.mergeSort_perm entries _).sizeOf_eq_sizeOf

/-- Goes through the directories that there are and those in them. -/
def Gathering.finish (gathering : Gathering) : Gathering :=
  match _ : gathering.pending with
  | [] => gathering
  | directory :: pending =>
    ((byName directory.entries).foldl (add files directory) { gathering with pending }).finish
termination_by gathering.size
decreasing_by
  rename_i waiting
  have entered := size_foldl files directory { gathering with pending } (byName directory.entries)
  rw [sizeOf_byName] at entered
  simp only [size, waiting, List.map_cons, List.cons.sizeOf_spec] at entered ⊢
  omega

/-- The scripts beneath a directory by the names of their units, and what there is to report. -/
def bundle (path : Path) (name : String) (entries : Entries) : List (List String × Bytes) × List LogEvent :=
  let gathering := Gathering.finish files ⟨[], [⟨path, [name], entries⟩], []⟩
  (gathering.scripts.mergeSort fun a b => decide (unitName a.1 ≤ unitName b.1), gathering.events)

/-- The group of a directory, if there is any script beneath it. -/
def directoryGroup (path : Path) (name : String) (entries : Entries) :
    Option (ScriptGroup η) × List LogEvent :=
  let (scripts, events) := bundle files path name entries
  if scripts.isEmpty then (none, events ++ [note .debug s!"Skipping {path}: no scripts"])
  else (some ⟨name, scripts.map fun (names, content) => .ofBytes (unitName names) content⟩, events)

/-- The group of an entry of the directory of all scripts, if it makes one. -/
def entryGroup (root : Path) (name : String) : Option (ScriptGroup η) × List LogEvent :=
  let path := Path.join root name
  match Files.find files path with
  | .ok (.directory entries) => directoryGroup files path name entries
  | .ok (.file content) =>
    (if Path.isScriptName name then some ⟨name, [.ofBytes name content]⟩ else none, [])
  | _ => (none, [])

/-- The groups below a directory. -/
def directory (root : Path) : Source η :=
  if !Files.pathExists files root then
    ⟨.ok [], [note .warn s!"Script directory {root} does not exist"]⟩
  else
    match Files.list files root with
    | .error error => failing s!"Could not read {root}: {error.message}"
    | .ok entries =>
      let names := (entries.map (·.1)).mergeSort fun a b => decide (a ≤ b)
      let found := names.map (entryGroup files root)
      let groups := found.filterMap (·.1)
      ⟨.ok groups, found.flatMap (·.2) ++
        [note .debug s!"Found {groups.length} script groups in {root}"]⟩

end Source

end Scriptorium.Build
