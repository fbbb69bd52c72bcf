import Mathlib
import Scriptorium.Files.Tree

/-!
# Sound file trees

What a system keeps in its directories: every name is a file name, and no two entries of a directory have the same one
(`Node.Sound`). A path to a directory, and the name of something in it that is no link, lead to that, unless the path gets too
long (`find_join`); so what an entry leads to (`LeadsTo`) does not depend on how the path to its directory is written.
-/
namespace Scriptorium.Files

/-- A name that a file can have. -/
structure IsName (name : String) : Prop where
  filled : name ≠ ""
  notHere : name ≠ "."
  notUp : name ≠ ".."
  noSlash : '/' ∉ name.toList
  noNul : '\x00' ∉ name.toList
  short : name.utf8ByteSize ≤ maxNameLength

instance (name : String) : Decidable (IsName name) :=
  decidable_of_iff (name ≠ "" ∧ name ≠ "." ∧ name ≠ ".." ∧ '/' ∉ name.toList ∧ '\x00' ∉ name.toList ∧
      name.utf8ByteSize ≤ maxNameLength)
    ⟨fun ⟨filled, notHere, notUp, noSlash, noNul, short⟩ => ⟨filled, notHere, notUp, noSlash, noNul, short⟩,
      fun ⟨filled, notHere, notUp, noSlash, noNul, short⟩ => ⟨filled, notHere, notUp, noSlash, noNul, short⟩⟩

/-- Everything in a tree has a file name, and no two entries of a directory have the same. -/
inductive Node.Sound : Node → Prop
  | file (content : Text.Bytes) : Node.Sound (.file content)
  | link (target : Path) : Node.Sound (.link target)
  | directory {entries : Entries} (named : ∀ entry ∈ entries, IsName entry.1) (distinct : (entries.map (·.1)).Nodup)
      (within : ∀ entry ∈ entries, Node.Sound entry.2) : Node.Sound (.directory entries)

theorem Node.Sound.named {entries : Entries} (sound : (Node.directory entries).Sound) : ∀ entry ∈ entries, IsName entry.1 := by
  cases sound
  assumption

theorem Node.Sound.distinct {entries : Entries} (sound : (Node.directory entries).Sound) : (entries.map (·.1)).Nodup := by
  cases sound
  assumption

theorem Node.Sound.within {entries : Entries} (sound : (Node.directory entries).Sound) : ∀ entry ∈ entries, entry.2.Sound := by
  cases sound
  assumption

private theorem mem_of_lookup {entries : Entries} {name : String} {node : Node} (held : entries.lookup name = some node) :
    (name, node) ∈ entries := by
  obtain ⟨before, after, rfl, -⟩ := List.lookup_eq_some_iff.mp held
  simp

/-- A name is looked up where it stands. -/
theorem Node.Sound.lookup {entries : Entries} (sound : (Node.directory entries).Sound) {name : String} {node : Node}
    (among : (name, node) ∈ entries) : entries.lookup name = some node := by
  obtain ⟨before, after, rfl⟩ := List.append_of_mem among
  refine List.lookup_eq_some_iff.mpr ⟨before, after, rfl, ?_⟩
  intro entry earlier
  have distinct := sound.distinct
  rw [List.map_append, List.map_cons, List.nodup_append] at distinct
  have other := distinct.2.2 entry.1 (List.mem_map_of_mem earlier) name List.mem_cons_self
  simpa using Ne.symm other

/-- A place in a sound tree. -/
def Place.Sound (place : Place) : Prop :=
  place.node.Sound ∧ ∀ step ∈ place.trail, (Node.directory step.1).Sound

private theorem walk_sound {follow : Bool} {links : Nat} {place found : Place} {steps : List PathStep} (sound : place.Sound)
    (walked : walk follow links place steps = .ok found) : found.Sound := by
  obtain ⟨here, around⟩ := sound
  fun_induction walk follow links place steps
  case case1 => exact Except.ok.inj walked ▸ ⟨here, around⟩
  case case4 ih => exact ih walked here around
  case case6 outer _ trail held ih =>
    rw [held] at around
    exact ih walked (around _ List.mem_cons_self) fun step among => around step (List.mem_cons_of_mem _ among)
  case case9 entries node _ _ _ _ _ =>
    rw [node] at here
    refine Except.ok.inj walked ▸ ⟨.link _, ?_⟩
    rintro step (_ | ⟨_, among⟩)
    · exact here
    · exact around step among
  case case12 ih => exact ih walked here around
  case case13 entries node _ _ _ _ held ih =>
    rw [node] at here
    refine ih walked (here.within _ (mem_of_lookup held)) ?_
    rintro step (_ | ⟨_, among⟩)
    · exact here
    · exact around step among
  all_goals cases walked

/-- A path leads somewhere if it is relative, not too long, and its steps lead there. -/
theorem find_eq_ok_iff {files : Entries} {path : Path} {node : Node} :
    find files path = .ok node ↔ '\x00' ∉ path.toList ∧ path ≠ "" ∧ path.isAbsolute = false ∧ path.utf8ByteSize < maxPathLength ∧
      ∃ trail, walk true maxLinks (.ofRoot files) path.steps = .ok ⟨node, trail⟩ := by
  rw [find, locate, String.contains_char_eq]
  by_cases nul : '\x00' ∈ path.toList
  · simp [nul, Except.map]
  · by_cases relative : path = "" ∨ path.isAbsolute = true
    · rcases relative with rfl | absolute
      · simp [Except.map]
      · simp [nul, absolute, Except.map]
    · rw [not_or, Bool.not_eq_true] at relative
      obtain ⟨some, relative⟩ := relative
      rcases Nat.lt_or_ge path.utf8ByteSize maxPathLength with short | long
      · rcases walk true maxLinks (.ofRoot files) path.steps with error | ⟨found, trail⟩
        · simp [nul, some, relative, short, Nat.not_le.mpr short, Except.map]
        · simp [nul, some, relative, short, Nat.not_le.mpr short, Except.map]
      · simp [nul, some, relative, long, Nat.not_lt.mpr long, Except.map]

theorem list_eq_ok_iff {files entries : Entries} {path : Path} :
    list files path = .ok entries ↔ find files path = .ok (.directory entries) := by
  rw [list]
  rcases find files path with error | ⟨content | held | target⟩ <;> simp

/-- What a path leads to in a sound tree is sound. -/
theorem find_sound {files : Entries} {path : Path} {node : Node} (sound : (Node.directory files).Sound)
    (found : find files path = .ok node) : node.Sound := by
  obtain ⟨-, -, -, -, trail, walked⟩ := find_eq_ok_iff.mp found
  exact (walk_sound ⟨sound, fun step none => absurd none List.not_mem_nil⟩ walked).1

/-- Following links to the end, a walk fails on the way to its last steps or goes on from where the others lead. -/
theorem walk_append (links : Nat) (place : Place) (steps more : List PathStep) :
    (∃ error, walk true links place steps = .error error ∧ walk true links place (steps ++ more) = .error error) ∨
      ∃ left middle, walk true links place steps = .ok middle ∧
        walk true links place (steps ++ more) = walk true left middle more := by
  -- whether steps are left matters only to a walk that does not follow a link at the end
  fun_induction walk true links place steps
  case case1 links place => exact .inr ⟨links, place, rfl, rfl⟩
  case case2 file => exact .inl ⟨_, rfl, by simp [walk, file]⟩
  case case3 link => exact .inl ⟨_, rfl, by simp [walk, link]⟩
  case case4 held ih => simpa [walk, held] using ih
  case case5 held top => exact .inl ⟨_, rfl, by simp [walk, held, top]⟩
  case case6 held outer _ trail above ih => simpa [walk, held, above] using ih
  case case7 held name long => exact .inl ⟨_, rfl, by simp [walk, held, long]⟩
  case case8 held name short missing => exact .inl ⟨_, rfl, by simp [walk, held, short, missing]⟩
  case case9 last => simp at last
  case case10 held name short target found _ => exact .inl ⟨_, rfl, by simp [walk, held, short, found]⟩
  case case11 held name short target found _ _ outside => exact .inl ⟨_, rfl, by simp [walk, held, short, found, outside]⟩
  case case12 held name short target found _ _ inside ih =>
    simpa [walk, held, short, found, inside] using ih
  case case13 held name short node real found ih =>
    simpa [walk, held, short, found, real] using ih

theorem Path.endsWith_slash {path : Path} : path.endsWith "/" = true ↔ ['/'] <:+ path.toList := by
  have slice := @String.Slice.endsWith_string_iff "/" path.toSlice
  simpa using slice

theorem Path.isAbsolute_iff {path : Path} : path.isAbsolute = true ↔ ['/'] <+: path.toList := String.startsWith_string_iff

section
variable {directory : Path} (given : directory ≠ "") {name : String} (isName : IsName name)
include given

theorem Path.toList_join (name : String) :
    ∃ front, (directory.toList = front ∨ directory.toList = front ++ ['/']) ∧
      (Path.join directory name).toList = front ++ '/' :: name.toList := by
  have some : directory.isEmpty = false := by simpa using given
  by_cases slash : directory.endsWith "/" = true
  · obtain ⟨front, same⟩ := Path.endsWith_slash.mp slash
    refine ⟨front, .inr same.symm, ?_⟩
    simp [Path.join, slash, ← same]
  · refine ⟨directory.toList, .inl rfl, ?_⟩
    simp [Path.join, some, slash]

theorem Path.isAbsolute_join (name : String) : (Path.join directory name).isAbsolute = directory.isAbsolute := by
  obtain ⟨front, parts, whole⟩ := Path.toList_join given name
  have some : directory.toList ≠ [] := by simpa using given
  have inside : directory.toList <+: (Path.join directory name).toList := by
    rw [whole]
    rcases parts with same | same
    · exact same ▸ List.prefix_append ..
    · exact ⟨name.toList, by simp [same]⟩
  obtain ⟨c, rest, first⟩ := List.exists_cons_of_ne_nil some
  obtain ⟨more, same⟩ := inside
  rw [Bool.eq_iff_iff, isAbsolute_iff, isAbsolute_iff, ← same, first]
  simp [List.cons_prefix_cons]

theorem Path.join_ne_empty (name : String) : Path.join directory name ≠ "" := by
  obtain ⟨front, -, whole⟩ := Path.toList_join given name
  intro empty
  have none := congrArg String.toList empty
  simp [whole] at none

include isName

theorem Path.noNul_join (nul : '\x00' ∉ directory.toList) : '\x00' ∉ (Path.join directory name).toList := by
  obtain ⟨front, parts, whole⟩ := Path.toList_join given name
  have clear : '\x00' ∉ front := by
    rcases parts with same | same
    · rwa [same] at nul
    · exact fun among => nul (same ▸ List.mem_append_left _ among)
  simp [whole, clear, isName.noNul]

theorem Path.names_join : (Path.join directory name).names = directory.names ++ [name] := by
  obtain ⟨front, parts, whole⟩ := Path.toList_join given name
  have joined : (Path.join directory name).names = ((front.splitOn '/').map String.ofList).filter (· ≠ "") ++ [name] := by
    rw [names, Text.splitAt_eq_splitOn, whole, List.splitOn_append_cons_self, List.splitOn_eq_singleton isName.noSlash]
    simp [isName.filled]
  rw [joined, names, Text.splitAt_eq_splitOn]
  rcases parts with same | same
  · rw [same]
  · rw [same, List.splitOn_append_cons_self]
    simp

theorem Path.steps_join : (Path.join directory name).steps = directory.names.map PathStep.ofName ++ [.name name] := by
  obtain ⟨front, -, whole⟩ := Path.toList_join given name
  have noSlash : (Path.join directory name).endsWith "/" = false := by
    rw [← Bool.not_eq_true, Path.endsWith_slash]
    intro ends
    have some : name.toList ≠ [] := by simpa using isName.filled
    obtain ⟨before, same⟩ := ends
    have last := congrArg List.getLast? same
    rw [List.getLast?_concat, whole, List.getLast?_append_of_ne_nil _ (List.cons_ne_nil _ _),
      List.getLast?_cons_of_ne_nil some] at last
    exact isName.noSlash (List.mem_of_getLast? last.symm)
  rw [steps, noSlash, Path.names_join given isName]
  simp [PathStep.ofName, isName.notHere, isName.notUp]

end

/-- Steps that lead to a directory lead there without the last slash of their path. -/
theorem walk_names {links : Nat} {place : Place} {path : Path} {found : Place}
    (walked : walk true links place path.steps = .ok found) :
    walk true links place (path.names.map PathStep.ofName) = .ok found := by
  rw [Path.steps] at walked
  split at walked
  · rcases walk_append links place (path.names.map PathStep.ofName) [.here] with ⟨error, -, failed⟩ | ⟨left, middle, led, goes⟩
    · rw [walked] at failed
      cases failed
    · rw [led, ← walked, goes]
      rw [walked] at goes
      obtain ⟨node, trail⟩ := middle
      cases node with
      | directory held => rw [walk, walk]
      | file | link => simp [walk] at goes
  · rwa [List.append_nil] at walked

/-- A walk to a directory goes on to what stands there under a name. -/
theorem walk_join {links : Nat} {place : Place} {path : Path} {entries : Entries} {trail : List (Entries × String)}
    {name : String} {node : Node} (given : path ≠ "") (isName : IsName name)
    (walked : walk true links place path.steps = .ok ⟨.directory entries, trail⟩) (held : entries.lookup name = some node)
    (real : ∀ target, node ≠ .link target) :
    walk true links place (Path.join path name).steps = .ok ⟨node, (entries, name) :: trail⟩ := by
  rw [Path.steps_join given isName]
  rcases walk_append links place (path.names.map PathStep.ofName) [.name name] with ⟨error, failed, -⟩ | ⟨left, middle, led, goes⟩
  · rw [walk_names walked] at failed
    cases failed
  · rw [walk_names walked, Except.ok.injEq] at led
    subst led
    have short := Nat.not_lt.mpr isName.short
    rw [goes]
    cases node with
    | link target => exact absurd rfl (real target)
    | file | directory => simp [walk, held, short]

/-- What an entry with a path leads to: itself, as long as the path is not too long, or what its link leads to. -/
inductive LeadsTo (files : Entries) (path : Path) : Node → Node → Prop
  | itself {node : Node} (short : path.utf8ByteSize < maxPathLength) (real : ∀ target, node ≠ .link target) :
      LeadsTo files path node node
  | through {target : Path} {node : Node} (found : find files path = .ok node) : LeadsTo files path (.link target) node

/-- What is found at the path of an entry of a directory is what the entry leads to. -/
theorem find_join {files entries : Entries} {path : Path} {name : String} {node found : Node}
    (sound : (Node.directory files).Sound) (directory : find files path = .ok (.directory entries))
    (among : (name, node) ∈ entries) :
    find files (Path.join path name) = .ok found ↔ LeadsTo files (Path.join path name) node found := by
  -- a link is looked up at its own path on both sides; anything else ends the walk to its directory
  by_cases link : ∃ target, node = .link target
  · obtain ⟨target, rfl⟩ := link
    constructor
    · exact .through
    · intro leads
      cases leads with
      | itself short real => exact absurd rfl (real target)
      | through found => exact found
  · have real : ∀ target, node ≠ .link target := fun target same => link ⟨target, same⟩
    have held := (find_sound sound directory).lookup among
    have isName := (find_sound sound directory).named _ among
    obtain ⟨nul, given, relative, -, trail, walked⟩ := find_eq_ok_iff.mp directory
    have goes := walk_join given isName walked held real
    rw [find_eq_ok_iff]
    constructor
    · rintro ⟨-, -, -, short, trail', goesToo⟩
      obtain rfl : node = found := congrArg Place.node (Except.ok.inj (goes.symm.trans goesToo))
      exact .itself short real
    · intro leads
      cases leads with
      | through found => exact absurd rfl (real _)
      | itself short real =>
        exact ⟨Path.noNul_join given isName nul, Path.join_ne_empty given name, (Path.isAbsolute_join given name).trans relative,
          short, _, goes⟩

end Scriptorium.Files
