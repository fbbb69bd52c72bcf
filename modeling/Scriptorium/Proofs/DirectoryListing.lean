import Mathlib
import Scriptorium.Build.Source
import Scriptorium.Proofs.FileTrees

/-!
# The groups of a directory

A directory of scripts has a group for every script in it and one for every directory in it that has scripts beneath it
(`AreGroups`). What is beneath is reached through directories, not through links to them (`Beneath`). Gathering it goes through
directories that wait to be gone through: every step takes account of one entry (`Gathering.takes_add`), keeps apart the places
that are found or still wait, and neither loses nor adds a script that is beneath them, so that in the end every script beneath
the directory is found once (`Gathering.finish_scripts`), and the groups are those that there are (`directory_groups`).

The files are those below the working directory. What lies elsewhere is not known: a root that is an absolute path is not listed,
and a link to an absolute path leads nowhere.
-/
namespace Scriptorium.Build.Source

open Files (Entries Node Path LeadsTo find find_join find_sound walk)
open Text (Bytes)

/-- A name of a script: a stem, a dot and the letters `zs` in any case. -/
def ScriptName (name : String) : Prop :=
  ∃ stem z s, name.toList = stem ++ ['.', z, s] ∧ stem ≠ [] ∧ (z = 'z' ∨ z = 'Z') ∧ (s = 's' ∨ s = 'S')

private theorem toLower_dot_zs {c : Char} :
    (c.toLower = '.' ↔ c = '.') ∧ (c.toLower = 'z' ↔ c = 'z' ∨ c = 'Z') ∧ (c.toLower = 's' ↔ c = 's' ∨ c = 'S') := by
  unfold Char.toLower
  simp only [Char.ext_iff, UInt32.ext_iff, UInt32.le_iff_toNat_le, ge_iff_le]
  split
  all_goals
    rename_i upper
    simp at upper ⊢
    omega

private theorem isScriptName_iff {name : String} : Path.isScriptName name = true ↔ ScriptName name := by
  simp only [Path.isScriptName, Bool.and_eq_true, decide_eq_true_eq, beq_iff_eq]
  constructor
  · rintro ⟨long, ending⟩
    obtain ⟨dot, z, s, same⟩ : ∃ dot z s, name.toList.drop (name.toList.length - 3) = [dot, z, s] := by
      rw [← List.length_eq_three, List.length_drop]
      omega
    rw [same] at ending
    simp only [List.map_cons, List.map_nil, List.cons.injEq, and_true, toLower_dot_zs] at ending
    obtain ⟨rfl, isZ, isS⟩ := ending
    refine ⟨name.toList.take (name.toList.length - 3), z, s, ?_, ?_, isZ, isS⟩
    · rw [← same, List.take_append_drop]
    · intro none
      have length := congrArg List.length none
      rw [List.length_take, List.length_nil] at length
      omega
  · rintro ⟨stem, z, s, same, some, isZ, isS⟩
    have length := List.length_pos_iff.mpr some
    rw [same]
    constructor
    · rw [List.length_append]
      simp only [List.length_cons, List.length_nil]
      omega
    · rw [List.length_append]
      simp [toLower_dot_zs, isZ, isS]

/-- A script beneath a directory that has the given path, with the names that lead to it and its content. Links are followed to
the scripts that they lead to, but not to directories. -/
inductive Beneath (files : Entries) : Path → List String → Entries → List String → Bytes → Prop
  | script {path : Path} {names : List String} {entries : Entries} {name : String} {node : Node} {content : Bytes}
      (among : (name, node) ∈ entries) (named : ScriptName name)
      (leads : LeadsTo files (Path.join path name) node (.file content)) :
      Beneath files path names entries (names ++ [name]) content
  | inside {path : Path} {names : List String} {entries held : Entries} {name : String} {found : List String} {content : Bytes}
      (among : (name, .directory held) ∈ entries)
      (leads : LeadsTo files (Path.join path name) (.directory held) (.directory held))
      (beneath : Beneath files (Path.join path name) (names ++ [name]) held found content) :
      Beneath files path names entries found content

/-- A script is at an entry of a directory or beneath it. -/
def BeneathEntry (files : Entries) (path : Path) (names : List String) (entry : String × Node) (found : List String)
    (content : Bytes) : Prop :=
  (ScriptName entry.1 ∧ LeadsTo files (Path.join path entry.1) entry.2 (.file content) ∧ found = names ++ [entry.1]) ∨
    ∃ held, entry.2 = .directory held ∧ LeadsTo files (Path.join path entry.1) (.directory held) (.directory held) ∧
      Beneath files (Path.join path entry.1) (names ++ [entry.1]) held found content

variable {files : Entries}

private theorem beneath_iff {path : Path} {names : List String} {entries : Entries} {found : List String} {content : Bytes} :
    Beneath files path names entries found content ↔ ∃ entry ∈ entries, BeneathEntry files path names entry found content := by
  constructor
  · intro beneath
    cases beneath with
    | script among named leads => exact ⟨_, among, .inl ⟨named, leads, rfl⟩⟩
    | inside among leads beneath => exact ⟨_, among, .inr ⟨_, rfl, leads, beneath⟩⟩
  · rintro ⟨⟨name, node⟩, among, ⟨named, leads, rfl⟩ | ⟨held, rfl, leads, beneath⟩⟩
    · exact .script among named leads
    · exact .inside among leads beneath

/-- Taking account of an entry adds the script or the directory that it is, or else at most a report. -/
theorem Gathering.add_cases (sound : (Node.directory files).Sound) {directory : Pending}
    (settled : find files directory.path = .ok (.directory directory.entries)) {entry : String × Node}
    (among : entry ∈ directory.entries) (gathering : Gathering) :
    (∃ content, gathering.add files directory entry =
          { gathering with scripts := gathering.scripts ++ [(directory.names ++ [entry.1], content)] } ∧
        ∀ found other, BeneathEntry files directory.path directory.names entry found other ↔
          found = directory.names ++ [entry.1] ∧ other = content) ∨
      (∃ held, gathering.add files directory entry = { gathering with
          pending := ⟨Path.join directory.path entry.1, directory.names ++ [entry.1], held⟩ :: gathering.pending } ∧
        find files (Path.join directory.path entry.1) = .ok (.directory held) ∧
        ∀ found content, BeneathEntry files directory.path directory.names entry found content ↔
          Beneath files (Path.join directory.path entry.1) (directory.names ++ [entry.1]) held found content) ∨
      (∃ events, gathering.add files directory entry = { gathering with events }) ∧
        ∀ found content, ¬ BeneathEntry files directory.path directory.names entry found content := by
  obtain ⟨name, node⟩ := entry
  have leads {found : Node} : find files (Path.join directory.path name) = .ok found ↔
      LeadsTo files (Path.join directory.path name) node found := find_join sound settled among
  -- by what the path of the entry leads to, and there by what the entry itself is
  rcases found : find files (Path.join directory.path name) with error | ⟨content | held | target⟩
  case error =>
    refine .inr (.inr ⟨⟨gathering.events, by simp [add, found]⟩, ?_⟩)
    rintro names content (⟨-, led, -⟩ | ⟨held, rfl, led, -⟩) <;> cases found.symm.trans (leads.mpr led)
  case ok.link =>
    refine .inr (.inr ⟨⟨gathering.events, by simp [add, found]⟩, ?_⟩)
    rintro names content (⟨-, led, -⟩ | ⟨held, rfl, led, -⟩) <;> cases found.symm.trans (leads.mpr led)
  case ok.file =>
    by_cases named : Path.isScriptName name = true
    · refine .inl ⟨content, by simp [add, found, named], ?_⟩
      intro names other
      constructor
      · rintro (⟨-, led, rfl⟩ | ⟨held, rfl, led, -⟩)
        · exact ⟨rfl, Node.file.inj (Except.ok.inj ((leads.mpr led).symm.trans found))⟩
        · cases found.symm.trans (leads.mpr led)
      · rintro ⟨rfl, rfl⟩
        exact .inl ⟨isScriptName_iff.mp named, leads.mp found, rfl⟩
    · refine .inr (.inr ⟨⟨gathering.events, by simp [add, found, named]⟩, ?_⟩)
      rintro names content (⟨isScript, -⟩ | ⟨held, rfl, led, -⟩)
      · exact named (isScriptName_iff.mpr isScript)
      · cases found.symm.trans (leads.mpr led)
  case ok.directory =>
    have led := leads.mp found
    cases node with
    | directory entries =>
      obtain rfl : entries = held := by
        cases led
        rfl
      refine .inr (.inl ⟨entries, by simp [add, found], rfl, ?_⟩)
      intro names content
      constructor
      · rintro (⟨-, ledToo, -⟩ | ⟨held, ⟨⟩, -, beneath⟩)
        · cases found.symm.trans (leads.mpr ledToo)
        · exact beneath
      · intro beneath
        exact .inr ⟨entries, rfl, led, beneath⟩
    | file | link =>
      refine .inr (.inr ⟨⟨_, by simp only [add, found]; rfl⟩, ?_⟩)
      rintro names content (⟨-, ledToo, -⟩ | ⟨held, same, -⟩)
      · cases found.symm.trans (leads.mpr ledToo)
      · cases same

/-! ## Gathering -/

/-- A script among those found or beneath a directory that is yet to be gone through. -/
def Gathering.Has (files : Entries) (gathering : Gathering) (names : List String) (content : Bytes) : Prop :=
  (names, content) ∈ gathering.scripts ∨
    ∃ directory ∈ gathering.pending, Beneath files directory.path directory.names directory.entries names content

/-- What a directory that is to be gone through holds is what its path leads to. -/
def Gathering.Settled (files : Entries) (gathering : Gathering) : Prop :=
  ∀ directory ∈ gathering.pending, find files directory.path = .ok (.directory directory.entries)

/-- Names of which neither lead to what is beneath the others. -/
def Apart (a b : List String) : Prop := ¬ a <+: b ∧ ¬ b <+: a

theorem Apart.symm {a b : List String} (apart : Apart a b) : Apart b a := ⟨apart.2, apart.1⟩

/-- The names of the scripts found and of the directories that are yet to be gone through. -/
def Gathering.places (gathering : Gathering) : List (List String) :=
  gathering.scripts.map (·.1) ++ gathering.pending.map (·.names)

/-- From one gathering to another, account is taken of entries of a directory: the other has the scripts at these or beneath them
as well, and its places are apart if those before and those of the entries are. -/
structure Gathering.Takes (files : Entries) (directory : Pending) (entries : Entries) (gathering next : Gathering) : Prop where
  settled : gathering.Settled files → next.Settled files
  has (names : List String) (content : Bytes) : next.Has files names content ↔
    gathering.Has files names content ∨ ∃ entry ∈ entries, BeneathEntry files directory.path directory.names entry names content
  apart (others : List (List String)) :
    (gathering.places ++ (entries.map (directory.names ++ [·.1]) ++ others)).Pairwise Apart →
      (next.places ++ others).Pairwise Apart

section
variable (sound : (Node.directory files).Sound) {directory : Pending}
  (settled : find files directory.path = .ok (.directory directory.entries))
include sound settled

theorem Gathering.takes_add {entry : String × Node} (among : entry ∈ directory.entries) (gathering : Gathering) :
    gathering.Takes files directory [entry] (gathering.add files directory entry) := by
  rcases gathering.add_cases sound settled among with
    ⟨content, added, beneath⟩ | ⟨held, added, found, beneath⟩ | ⟨⟨events, added⟩, none⟩
  · rw [added]
    constructor
    · exact fun settled => settled
    · intro names other
      simp only [Has, List.mem_append, List.mem_singleton, Prod.mk.injEq, exists_eq_left, beneath]
      exact or_right_comm
    · intro others apart
      refine List.Pairwise.perm apart ?_ Apart.symm
      simp only [places, List.map_append, List.map_cons, List.map_nil, List.append_assoc, List.cons_append, List.nil_append]
      exact List.Perm.append_left _ List.perm_middle
  · rw [added]
    constructor
    · intro all other among
      rcases List.mem_cons.mp among with rfl | among
      · exact found
      · exact all other among
    · intro names content
      simp only [Has, List.exists_mem_cons_iff, List.not_mem_nil, false_and, exists_false, or_false, beneath]
      rw [or_left_comm, or_comm]
    · intro others apart
      refine List.Pairwise.perm apart ?_ Apart.symm
      simp only [places, List.map_cons, List.map_nil, List.append_assoc, List.cons_append, List.nil_append]
      exact List.Perm.append_left _ List.perm_middle
  · rw [added]
    constructor
    · exact fun settled => settled
    · intro names content
      simp only [Has, List.mem_singleton, exists_eq_left, none, or_false]
    · intro others apart
      exact apart.sublist (List.Sublist.append_left (List.sublist_append_right _ _) _)

theorem Gathering.takes_foldl {entries : Entries} (among : ∀ entry ∈ entries, entry ∈ directory.entries) (gathering : Gathering) :
    gathering.Takes files directory entries (entries.foldl (add files directory) gathering) := by
  induction entries generalizing gathering with
  | nil => exact ⟨fun settled => settled, by simp, by simp⟩
  | cons entry entries ih =>
    have first := gathering.takes_add sound settled (among entry List.mem_cons_self)
    have rest := ih (fun other later => among other (List.mem_cons_of_mem _ later)) (gathering.add files directory entry)
    constructor
    · exact fun settled => rest.settled (first.settled settled)
    · intro names content
      rw [List.foldl_cons, rest.has, first.has]
      simp only [List.exists_mem_cons_iff, List.not_mem_nil, false_and, exists_false, or_false, or_assoc]
    · intro others apart
      exact rest.apart others (first.apart _ apart)

end

/-- What is apart from a directory is apart from what is in it. -/
theorem Apart.inside {a b : List String} (apart : Apart a b) (name : String) : Apart a (b ++ [name]) := by
  obtain ⟨notBefore, notAfter⟩ := apart
  constructor
  · intro before
    rcases List.prefix_concat_iff.mp before with rfl | before
    · exact notAfter (List.prefix_append ..)
    · exact notBefore before
  · exact fun after => notAfter ((List.prefix_append ..).trans after)

private theorem apart_append {names : List String} {a b : String} (other : a ≠ b) : Apart (names ++ [a]) (names ++ [b]) := by
  simp [Apart, List.prefix_append_right_inj, other, other.symm]

private theorem mem_byName {entry : String × Node} {entries : Entries} : entry ∈ byName entries ↔ entry ∈ entries :=
  List.mem_mergeSort

/-- The places of a gathering stay apart when a directory gives way to its entries. -/
theorem places_entered {scripts : List (List String × Bytes)} {directory : Pending} {pending : List Pending}
    {events : List LogEvent} (distinct : (directory.entries.map (·.1)).Nodup)
    (apart : (Gathering.mk scripts (directory :: pending) events).places.Pairwise Apart) :
    ((Gathering.mk scripts pending events).places ++
      (byName directory.entries).map (directory.names ++ [·.1])).Pairwise Apart := by
  have front : (directory.names :: (Gathering.mk scripts pending events).places).Pairwise Apart := by
    refine apart.perm ?_ Apart.symm
    exact List.perm_middle
  obtain ⟨others, rest⟩ := List.pairwise_cons.mp front
  have byNames : ((byName directory.entries).map (·.1)).Nodup := by
    refine (List.Perm.nodup_iff ?_).mpr distinct
    exact (List.mergeSort_perm _ _).map _
  refine List.pairwise_append.mpr ⟨rest, ?_, ?_⟩
  · refine List.pairwise_map.mpr ((List.pairwise_map.mp byNames).imp ?_)
    intro a b other
    exact apart_append other
  · intro place among entered isEntered
    obtain ⟨entry, -, rfl⟩ := List.mem_map.mp isEntered
    exact (others place among).symm.inside entry.1

/-- Gathering finds the scripts that it has and no other, each in a place of its own. -/
theorem Gathering.finish_scripts (sound : (Node.directory files).Sound) {gathering : Gathering}
    (settled : gathering.Settled files) (apart : gathering.places.Pairwise Apart) :
    (∀ names content, (names, content) ∈ (gathering.finish files).scripts ↔ gathering.Has files names content) ∧
      ((gathering.finish files).scripts.map (·.1)).Pairwise Apart := by
  -- along the gathering; what it has stays the same, so at the end, when nothing waits, all of it is found
  fun_induction Gathering.finish files gathering
  case case1 gathering none =>
    rw [places, none, List.map_nil, List.append_nil] at apart
    refine ⟨fun names content => ?_, apart⟩
    simp [Has, none]
  case case2 gathering directory pending waiting ih =>
    obtain ⟨scripts, _, events⟩ := gathering
    obtain rfl : _ = directory :: pending := waiting
    have here := settled directory List.mem_cons_self
    have taken := Gathering.takes_foldl sound here (fun entry among => mem_byName.mp among) ⟨scripts, pending, events⟩
    have entered := places_entered (find_sound sound here).distinct apart
    have next := ih (taken.settled fun other among => settled other (List.mem_cons_of_mem _ among)) <| by
      simpa using taken.apart [] (by simpa using entered)
    refine ⟨fun names content => ?_, next.2⟩
    rw [next.1, taken.has]
    simp only [mem_byName, ← beneath_iff]
    simp only [Has, List.exists_mem_cons_iff]
    rw [or_assoc, or_comm (a := ∃ _, _)]

private theorem unitName_injective {a b : List String} (some : a ≠ []) (someToo : b ≠ []) (clear : ∀ name ∈ a, '/' ∉ name.toList)
    (clearToo : ∀ name ∈ b, '/' ∉ name.toList) (same : unitName a = unitName b) : a = b := by
  have split (names : List String) (some : names ≠ []) (clear : ∀ name ∈ names, '/' ∉ name.toList) :
      (unitName names).toList.splitOn '/' = names.map String.toList := by
    have slash : "/".toList = ['/'] := rfl
    rw [unitName, String.toList_intercalate, slash, List.splitOn_intercalate]
    · simpa using clear
    · simpa using some
  have parts := congrArg (·.toList.splitOn '/') same
  simp only [split a some clear, split b someToo clearToo] at parts
  exact List.map_injective_iff.mpr (fun _ _ => String.toList_injective) parts

/-- The names that lead to a script go on from those that lead to the directory, and have no slashes. -/
theorem Beneath.clear {path : Path} {names : List String} {entries : Entries} {found : List String} {content : Bytes}
    (beneath : Beneath files path names entries found content) (sound : (Node.directory entries).Sound)
    (clear : ∀ name ∈ names, '/' ∉ name.toList) : found ≠ [] ∧ ∀ name ∈ found, '/' ∉ name.toList := by
  have longer {names : List String} {entry : String × Node} {entries : Entries} (sound : (Node.directory entries).Sound)
      (among : entry ∈ entries) (clear : ∀ name ∈ names, '/' ∉ name.toList) : ∀ name ∈ names ++ [entry.1], '/' ∉ name.toList := by
    intro name inside
    rcases List.mem_append.mp inside with inside | last
    · exact clear name inside
    · rw [List.mem_singleton.mp last]
      exact (sound.named entry among).noSlash
  induction beneath with
  | script among named leads => exact ⟨by simp, longer sound among clear⟩
  | inside among leads beneath ih => exact ih (sound.within _ among) (longer sound among clear)

/-- Sorting by distinct texts gives increasing ones. -/
theorem pairwise_lt_mergeSort {α : Type} (text : α → String) {l : List α} (distinct : (l.map text).Nodup) :
    ((l.mergeSort fun a b => decide (text a ≤ text b)).map text).Pairwise (· < ·) := by
  have trans (a b c : α) : decide (text a ≤ text b) = true → decide (text b ≤ text c) = true → decide (text a ≤ text c) = true := by
    simp only [decide_eq_true_eq]
    exact String.le_trans
  have total (a b : α) : (decide (text a ≤ text b) || decide (text b ≤ text a)) = true := by
    simpa using String.le_total (text a) (text b)
  have ordered : (l.mergeSort fun a b => decide (text a ≤ text b)).Pairwise fun a b => decide (text a ≤ text b) = true :=
    List.pairwise_mergeSort trans total l
  have apart : ((l.mergeSort fun a b => decide (text a ≤ text b)).map text).Nodup := by
    refine (List.Perm.nodup_iff ?_).mpr distinct
    exact (List.mergeSort_perm _ _).map _
  refine List.pairwise_map.mpr ((ordered.and (List.pairwise_map.mp apart)).imp ?_)
  rintro a b ⟨le, ne⟩
  exact Std.lt_of_le_of_ne (of_decide_eq_true le) ne

/-- The scripts of the group of a directory are those beneath it, by the names of their units. -/
theorem bundle_scripts (sound : (Node.directory files).Sound) {path : Path} {name : String} {held : Entries}
    (found : find files path = .ok (.directory held)) (noSlash : '/' ∉ name.toList) :
    (∀ names content, (names, content) ∈ (bundle files path name held).1 ↔ Beneath files path [name] held names content) ∧
      ((bundle files path name held).1.map (unitName ·.1)).Pairwise (· < ·) := by
  let start : Gathering := ⟨[], [⟨path, [name], held⟩], []⟩
  have settled : start.Settled files := by simpa [start, Gathering.Settled] using found
  obtain ⟨members, apart⟩ := Gathering.finish_scripts sound settled (by simp [start, Gathering.places])
  simp only [start, Gathering.Has, List.not_mem_nil, false_or, List.mem_singleton, exists_eq_left] at members
  constructor
  · intro names content
    rw [bundle, List.mem_mergeSort, members]
  · refine pairwise_lt_mergeSort (fun script : List String × Bytes => unitName script.1) ?_
    refine List.pairwise_map.mpr ((List.pairwise_map.mp apart).imp_of_mem ?_)
    -- two scripts with the same name of a unit would be in the same place
    rintro ⟨a, _⟩ ⟨b, _⟩ among amongToo apart same
    have clear : ∀ n ∈ [name], '/' ∉ n.toList := by simpa using noSlash
    obtain ⟨some, clearA⟩ := ((members a _).mp among).clear (find_sound sound found) clear
    obtain ⟨someToo, clearB⟩ := ((members b _).mp amongToo).clear (find_sound sound found) clear
    obtain rfl := unitName_injective some someToo clearA clearB same
    exact apart.1 List.prefix_rfl

/-! ## Groups -/

/-- The units of a group are the scripts beneath a directory, by name. -/
def AreBeneath {η : Type} (files : Entries) (path : Path) (name : String) (held : Entries) (units : List (ScriptUnit η)) : Prop :=
  ∃ scripts : List (List String × Bytes), units = scripts.map (fun (names, content) => .ofBytes (unitName names) content) ∧
    (scripts.map (unitName ·.1)).Pairwise (· < ·) ∧
    ∀ names content, (names, content) ∈ scripts ↔ Beneath files path [name] held names content

/-- The groups of a directory of scripts, which holds some entries: by name, one for every script in it and one for every
directory in it that has scripts beneath it. -/
structure AreGroups {η : Type} (files : Entries) (root : Path) (entries : Entries) (groups : List (ScriptGroup η)) : Prop where
  ordered : (groups.map (·.name)).Pairwise (· < ·)
  script {name : String} {node : Node} {content : Bytes} (among : (name, node) ∈ entries) (named : ScriptName name)
    (leads : LeadsTo files (Path.join root name) node (.file content)) : ⟨name, [.ofBytes name content]⟩ ∈ groups
  directory {name : String} {node : Node} {held : Entries} (among : (name, node) ∈ entries)
    (leads : LeadsTo files (Path.join root name) node (.directory held))
    (some : ∃ names content, Beneath files (Path.join root name) [name] held names content) : ∃ units, ⟨name, units⟩ ∈ groups
  only {group : ScriptGroup η} (listed : group ∈ groups) : ∃ node, (group.name, node) ∈ entries ∧
    ((∃ content, ScriptName group.name ∧ LeadsTo files (Path.join root group.name) node (.file content) ∧
        group.units = [.ofBytes group.name content]) ∨
      ∃ held, LeadsTo files (Path.join root group.name) node (.directory held) ∧ group.units ≠ [] ∧
        AreBeneath files (Path.join root group.name) group.name held group.units)

/-- The group of what is found under a name: a script, or the scripts that a directory has beneath it. -/
theorem entryGroup_eq_some_iff {η : Type} {root : Path} {name : String} {group : ScriptGroup η} :
    (entryGroup files root name).1 = some group ↔ group.name = name ∧
      ((∃ content, ScriptName name ∧ find files (Path.join root name) = .ok (.file content) ∧
          group.units = [.ofBytes name content]) ∨
        ∃ held, find files (Path.join root name) = .ok (.directory held) ∧ group.units ≠ [] ∧
          group.units = (bundle files (Path.join root name) name held).1.map fun (names, content) =>
            .ofBytes (unitName names) content) := by
  obtain ⟨title, units⟩ := group
  rw [entryGroup]
  rcases find files (Path.join root name) with error | ⟨content | held | target⟩
  · simp
  · by_cases named : Path.isScriptName name = true
    · simp [named, isScriptName_iff.mp named, eq_comm]
    · simp [named, mt isScriptName_iff.mpr named]
  · simp only [directoryGroup]
    by_cases none : (bundle files (Path.join root name) name held).1 = []
    · simp [none]
    · simp only [List.isEmpty_iff, none, if_false, Option.some.injEq, ScriptGroup.mk.injEq, reduceCtorEq, Except.ok.injEq,
        false_and, and_false, exists_false, false_or, Node.directory.injEq, exists_eq_left']
      constructor
      · rintro ⟨rfl, rfl⟩
        exact ⟨rfl, by simpa using none, rfl⟩
      · rintro ⟨rfl, -, rfl⟩
        exact ⟨rfl, rfl⟩
  · simp

/-- The groups of the entries of a directory, by name. -/
def entryGroups {η : Type} (files : Entries) (root : Path) (entries : Entries) : List (ScriptGroup η) :=
  (((entries.map (·.1)).mergeSort fun a b => decide (a ≤ b)).map (entryGroup files root)).filterMap (·.1)

section
variable {η : Type} {root : Path} {entries : Entries}

private theorem directory_result (listed : Files.list files root = .ok entries) :
    (directory files root : Source η).groups.result = .ok (entryGroups files root entries) := by
  have here : Files.pathExists files root = true := by
    rw [Files.pathExists, Files.list_eq_ok_iff.mp listed]
    rfl
  simp [directory, here, listed, entryGroups]

private theorem mem_entryGroups {group : ScriptGroup η} : group ∈ entryGroups files root entries ↔
    ∃ node, (group.name, node) ∈ entries ∧ (entryGroup files root group.name).1 = some group := by
  simp only [entryGroups, List.filterMap_map, List.mem_filterMap, Function.comp_apply, List.mem_mergeSort, List.mem_map]
  constructor
  · rintro ⟨name, ⟨⟨_, node⟩, among, rfl⟩, made⟩
    rw [(entryGroup_eq_some_iff.mp made).1]
    exact ⟨node, among, made⟩
  · rintro ⟨node, among, made⟩
    exact ⟨group.name, ⟨_, among, rfl⟩, made⟩

private theorem entryGroups_ordered (distinct : (entries.map (·.1)).Nodup) :
    ((entryGroups files root entries : List (ScriptGroup η)).map (·.name)).Pairwise (· < ·) := by
  have increasing : ((entries.map (·.1)).mergeSort fun a b => decide (a ≤ b)).Pairwise (· < ·) := by
    have sorted := pairwise_lt_mergeSort (fun name => name) (by simpa using distinct)
    simpa using sorted
  rw [entryGroups, List.filterMap_map, List.pairwise_map]
  refine increasing.filterMap _ ?_
  intro a b less group made other madeToo
  rw [(entryGroup_eq_some_iff.mp made).1, (entryGroup_eq_some_iff.mp madeToo).1]
  exact less

/-- Listing the groups of a directory that there is gives its groups, in whatever order it holds its entries. The directory is given
by a path from the working directory; a link to an absolute path is a link that leads nowhere, and so is no script and no group. -/
theorem directory_groups (sound : (Node.directory files).Sound) (listed : Files.list files root = .ok entries) :
    ∃ groups, (directory files root : Source η).groups.result = .ok groups ∧ AreGroups files root entries groups := by
  have found := Files.list_eq_ok_iff.mp listed
  have soundHere := find_sound sound found
  have leads {name : String} {node target : Node} (among : (name, node) ∈ entries) :
      find files (Path.join root name) = .ok target ↔ LeadsTo files (Path.join root name) node target :=
    find_join sound found among
  refine ⟨entryGroups files root entries, directory_result listed, entryGroups_ordered soundHere.distinct, ?_, ?_, ?_⟩
  · intro name node content among named led
    exact mem_entryGroups.mpr ⟨node, among, entryGroup_eq_some_iff.mpr ⟨rfl, .inl ⟨content, named, (leads among).mpr led, rfl⟩⟩⟩
  · rintro name node held among led ⟨script, content, beneath⟩
    have foundHeld := (leads among).mpr led
    have inside := ((bundle_scripts sound foundHeld (soundHere.named _ among).noSlash).1 script content).mpr beneath
    refine ⟨(bundle files (Path.join root name) name held).1.map fun (names, content) => .ofBytes (unitName names) content, ?_⟩
    refine mem_entryGroups.mpr ⟨node, among, entryGroup_eq_some_iff.mpr ⟨rfl, .inr ⟨held, foundHeld, ?_, rfl⟩⟩⟩
    exact List.ne_nil_of_mem (List.mem_map_of_mem inside)
  · intro group listed
    obtain ⟨node, among, made⟩ := mem_entryGroups.mp listed
    refine ⟨node, among, ?_⟩
    rcases (entryGroup_eq_some_iff.mp made).2 with ⟨content, named, led, units⟩ | ⟨held, led, some, units⟩
    · exact .inl ⟨content, named, (leads among).mp led, units⟩
    · obtain ⟨members, ordered⟩ := bundle_scripts sound led (soundHere.named _ among).noSlash
      exact .inr ⟨held, (leads among).mp led, some, _, units, ordered, members⟩

end

/-- Scripts beneath a directory, which has a link around it as well. -/
def bundledScripts : Entries :=
  [("tools.ZS", .file [2]), ("loop", .link "../bundle"), ("armor", .directory [("plate.zs", .file [1]), ("notes.md", .file [])])]

/-- A directory of scripts, with links to one of them and to nothing. -/
def linkedScripts : Entries :=
  [("self.zs", .link "self.zs"), ("bundle", .directory bundledScripts), ("alias.zs", .link "bundle/tools.ZS"),
    ("empty", .directory [])]

private theorem linkedScripts_sound : (Node.directory [("scripts", .directory linkedScripts)]).Sound := by
  have armor : (Node.directory [("plate.zs", .file [1]), ("notes.md", .file [])]).Sound :=
    .directory (by decide +kernel) (by decide +kernel) (by simp [Node.Sound.file])
  have bundle : (Node.directory bundledScripts).Sound :=
    .directory (by decide +kernel) (by decide +kernel) (by simp [bundledScripts, Node.Sound.file, Node.Sound.link, armor])
  have empty : (Node.directory []).Sound := .directory (by simp) (by simp) (by simp)
  have scripts : (Node.directory linkedScripts).Sound :=
    .directory (by decide +kernel) (by decide +kernel) (by simp [linkedScripts, Node.Sound.link, bundle, empty])
  exact .directory (by decide +kernel) (by decide +kernel) (by simpa using scripts)

theorem linkedScripts_groups :
    ∃ groups, (directory [("scripts", .directory linkedScripts)] "scripts" : Source Unit).groups.result = .ok groups ∧
      ⟨"alias.zs", [.ofBytes "alias.zs" [2]]⟩ ∈ groups ∧ ∃ units, ⟨"bundle", units⟩ ∈ groups := by
  have found : find [("scripts", .directory linkedScripts)] "scripts" = .ok (.directory linkedScripts) := by cbv
  have aliased : find [("scripts", .directory linkedScripts)] (Path.join "scripts" "alias.zs") = .ok (.file [2]) := by
    have steps : (Path.join "scripts" "alias.zs").steps = [.name "scripts", .name "alias.zs"] := by decide +kernel
    have further : Path.steps "bundle/tools.ZS" = [.name "bundle", .name "tools.ZS"] := by decide +kernel
    have relative : Path.isAbsolute "bundle/tools.ZS" = false := by decide +kernel
    have short : ∀ name ∈ ["scripts", "alias.zs", "bundle", "tools.ZS"], ¬ Files.maxNameLength < name.utf8ByteSize := by
      decide +kernel
    simp only [List.mem_cons, List.not_mem_nil, or_false, forall_eq_or_imp, forall_eq] at short
    refine Files.find_eq_ok_iff.mpr ⟨by decide +kernel, by decide +kernel, by decide +kernel, by decide +kernel, ?_⟩
    simp [steps, further, relative, short, walk, Files.Place.ofRoot, Files.maxLinks, linkedScripts, bundledScripts, List.lookup]
  obtain ⟨groups, listed, areGroups⟩ := directory_groups linkedScripts_sound (Files.list_eq_ok_iff.mpr found)
  refine ⟨groups, listed, ?_, ?_⟩
  · have among : ("alias.zs", Node.link "bundle/tools.ZS") ∈ linkedScripts := by simp [linkedScripts]
    exact areGroups.script among (isScriptName_iff.mp (by decide +kernel)) (.through aliased)
  · have among : ("bundle", Node.directory bundledScripts) ∈ linkedScripts := by simp [linkedScripts]
    have tools : ("tools.ZS", Node.file [2]) ∈ bundledScripts := by simp [bundledScripts]
    refine areGroups.directory among (.itself (by decide +kernel) (by simp)) ⟨["bundle", "tools.ZS"], [2], ?_⟩
    exact .script tools (isScriptName_iff.mp (by decide +kernel)) (.itself (by decide +kernel) (by simp))

end Scriptorium.Build.Source
