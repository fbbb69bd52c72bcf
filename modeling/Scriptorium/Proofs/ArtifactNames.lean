import Mathlib
import Scriptorium.Artifact

/-!
# Artifact names

The name of an artifact is an identifier, whatever its unit is called (`artifactName_identifier`). A unit's name is taken apart
between characters: separators in front, a stem, and perhaps the ending of script files, which is three bytes long (`NameParts`); the
name of the artifact is made of the stem alone. So separators in front and one ending make no difference, and an identifier is its
own name.
-/
namespace Scriptorium

open Text (endsIgnoringCase equalsIgnoringCase isWordChar)

/-- A separator of paths. -/
def isSeparator (c : Char) : Bool := c == '/' || c == '\\'

/-- A character that can stand in a word stands for itself, and an underscore for every other. -/
def wordCharOf (c : Char) : Char := if isWordChar c then c else '_'

/-- How a stem is spelled as a name. -/
def spelling : List Char → List Char
  | [] => ['_', '_', 's', 'c', 'r', 'i', 'p', 't']
  | c :: rest => (if c.isDigit then ['_'] else []) ++ (c :: rest).map wordCharOf

/-- The name of a unit as separators, a stem, and the ending of script files or nothing. Each part holds whole characters. -/
structure NameParts (unit separators stem ending : String) : Prop where
  whole : unit = separators ++ stem ++ ending
  front : ∀ c ∈ separators.toList, isSeparator c = true
  begins : ∀ c ∈ (stem ++ ending).toList.head?, isSeparator c = false
  ends : (ending = "" ∧ endsIgnoringCase scriptEnding stem.toList = false) ∨
    (ending.utf8ByteSize = 3 ∧ equalsIgnoringCase ending.toList scriptEnding = true)

/-- A letter or an underscore, and then letters, digits and underscores, all of ASCII. -/
def IsIdentifier (name : List Char) : Prop :=
  ∃ c rest, name = c :: rest ∧ c.isDigit = false ∧ ∀ d ∈ c :: rest, isWordChar d = true

private theorem eq_of_toLower_eq {c d : Char} (same : c.toLower = d) (noLetter : d.isAlpha = false) : c = d := by
  by_cases upper : c.isUpper
  · have letter : c.toLower.isAlpha = true := by
      rw [Char.isAlpha_toLower_eq_isAlpha, Char.isAlpha, upper, Bool.true_or]
    rw [same, noLetter] at letter
    cases letter
  · rwa [Char.toLower_eq_of_not_isUpper upper] at same

private theorem utf8Size_toLower (c : Char) : c.toLower.utf8Size = c.utf8Size := by
  by_cases upper : c.isUpper
  · have range : 65 ≤ c.toNat ∧ c.toNat ≤ 90 := by
      simpa [Char.isUpper, UInt32.le_iff_toNat_le, ← Char.toNat_val] using upper
    have small : c.utf8Size = 1 := Char.utf8Size_eq_one_iff.mpr (by rw [UInt32.le_iff_toNat_le]; exact range.2.trans (by decide))
    rw [small, Char.utf8Size_eq_one_iff, Char.toLower_eq_of_isUpper upper, UInt32.le_iff_toNat_le]
    have valid : (c.toNat + 32).isValidChar := .inl (by omega)
    show (Char.ofNat (c.toNat + 32)).toNat ≤ 127
    rw [Char.toNat_ofNat, if_pos valid]
    omega
  · rw [Char.toLower_eq_of_not_isUpper upper]

/-- An ending of script files is a dot and two more characters, each of one byte. -/
theorem ending_cases {ending : List Char} (same : equalsIgnoringCase ending scriptEnding = true) :
    String.utf8Len ending = 3 ∧ ∃ y z, ending = ['.', y, z] := by
  rw [equalsIgnoringCase, beq_iff_eq] at same
  obtain ⟨x, rest, rfl, dot, same⟩ := List.map_eq_cons_iff.mp same
  obtain ⟨y, rest, rfl, second, same⟩ := List.map_eq_cons_iff.mp same
  obtain ⟨z, rest, rfl, third, same⟩ := List.map_eq_cons_iff.mp same
  obtain rfl := List.map_eq_nil_iff.mp same
  obtain rfl : x = '.' := eq_of_toLower_eq dot (by decide)
  refine ⟨?_, y, z, rfl⟩
  rw [String.utf8Len_cons, String.utf8Len_cons, String.utf8Len_cons, ← utf8Size_toLower y, ← utf8Size_toLower z, second, third]
  decide

private theorem endsIgnoringCase_iff {s : List Char} : endsIgnoringCase scriptEnding s = true ↔
    ∃ stem ending, s = stem ++ ending ∧ equalsIgnoringCase ending scriptEnding = true := by
  rw [endsIgnoringCase, List.isSuffixOf_iff_suffix]
  constructor
  · rintro ⟨front, split⟩
    obtain ⟨stem, ending, whole, -, lower⟩ := List.map_eq_append_iff.mp split.symm
    exact ⟨stem, ending, whole, by rw [equalsIgnoringCase, lower, beq_self_eq_true]⟩
  · rintro ⟨stem, ending, rfl, lower⟩
    rw [equalsIgnoringCase, beq_iff_eq] at lower
    exact ⟨stem.map Char.toLower, by rw [List.map_append, lower]⟩

/-- What is left of a path when the ending of script files is taken away. -/
theorem stem_cases (path : List Char) :
    ((endsIgnoringCase scriptEnding path = false ∧
        (if endsIgnoringCase scriptEnding path then path.take (path.length - 3) else path) = path) ∨
      ∃ stem ending, path = stem ++ ending ∧ equalsIgnoringCase ending scriptEnding = true ∧
        (if endsIgnoringCase scriptEnding path then path.take (path.length - 3) else path) = stem) := by
  by_cases ends : endsIgnoringCase scriptEnding path = true
  · obtain ⟨stem, ending, rfl, same⟩ := endsIgnoringCase_iff.mp ends
    obtain ⟨-, y, z, rfl⟩ := ending_cases same
    refine .inr ⟨stem, _, rfl, same, ?_⟩
    rw [if_pos ends]
    simp
  · exact .inl ⟨by simpa using ends, if_neg ends⟩

private theorem isWordChar_wordCharOf (c : Char) : isWordChar (wordCharOf c) = true := by
  unfold wordCharOf
  split
  · assumption
  · rfl

private theorem isDigit_wordCharOf (c : Char) : (wordCharOf c).isDigit = c.isDigit := by
  unfold wordCharOf
  split
  · rfl
  · rename_i other
    cases digit : c.isDigit with
    | false => rfl
    | true => exact absurd (by simp [isWordChar, Char.isAlphanum, digit]) other

private theorem spelling_identifier (stem : List Char) : IsIdentifier (spelling stem) := by
  cases stem with
  | nil => exact ⟨'_', ['_', 's', 'c', 'r', 'i', 'p', 't'], rfl, by decide, List.all_eq_true.mp (by decide)⟩
  | cons c rest =>
    have words : ∀ d ∈ (c :: rest).map wordCharOf, isWordChar d = true := by
      intro d among
      obtain ⟨e, -, rfl⟩ := List.mem_map.mp among
      exact isWordChar_wordCharOf e
    cases digit : c.isDigit with
    | true =>
      refine ⟨'_', (c :: rest).map wordCharOf, by simp [spelling, digit], rfl, ?_⟩
      exact List.forall_mem_cons.mpr ⟨rfl, words⟩
    | false =>
      refine ⟨wordCharOf c, rest.map wordCharOf, by simp [spelling, digit], ?_, words⟩
      rw [isDigit_wordCharOf, digit]

private theorem spelling_eq_self {name : List Char} (identifier : IsIdentifier name) : spelling name = name := by
  obtain ⟨c, rest, rfl, noDigit, words⟩ := identifier
  have kept : (c :: rest).map wordCharOf = c :: rest := by
    conv_rhs => rw [← List.map_id (c :: rest)]
    exact List.map_congr_left fun d among => if_pos (words d among)
  rw [spelling, noDigit, kept]
  rfl

private theorem artifactName_toList (unit : String) : (artifactName unit).toList = spelling
    (if endsIgnoringCase scriptEnding (unit.toList.dropWhile isSeparator) then
      (unit.toList.dropWhile isSeparator).take ((unit.toList.dropWhile isSeparator).length - 3)
    else unit.toList.dropWhile isSeparator) := by
  unfold artifactName
  simp only [show (fun c => c == '/' || c == '\\') = isSeparator from rfl]
  generalize (if endsIgnoringCase scriptEnding (unit.toList.dropWhile isSeparator) then
    (unit.toList.dropWhile isSeparator).take ((unit.toList.dropWhile isSeparator).length - 3)
    else unit.toList.dropWhile isSeparator) = stem
  cases stem with
  | nil => rfl
  | cons c rest =>
    have spelled : (c :: rest).map (fun c => if isWordChar c then c else '_') = wordCharOf c :: rest.map wordCharOf := rfl
    simp only [spelled, isDigit_wordCharOf, spelling, String.toList_ofList]
    split <;> rfl

/-- A name and its parts, and the name of the artifact. -/
theorem exists_parts (unit : String) :
    ∃ separators stem ending, NameParts unit separators stem ending ∧ (artifactName unit).toList = spelling stem.toList := by
  have whole : unit = String.ofList (unit.toList.takeWhile isSeparator) ++ String.ofList (unit.toList.dropWhile isSeparator) := by
    rw [← String.ofList_append, List.takeWhile_append_dropWhile, String.ofList_toList]
  have front : ∀ c ∈ (String.ofList (unit.toList.takeWhile isSeparator)).toList, isSeparator c = true := by
    intro c among
    rw [String.toList_ofList] at among
    exact List.mem_takeWhile_imp among
  have begins : ∀ c ∈ (unit.toList.dropWhile isSeparator).head?, isSeparator c = false := by
    intro c first
    have stopped := List.head?_dropWhile_not isSeparator unit.toList
    rw [first] at stopped
    exact stopped
  rw [artifactName_toList]
  rcases stem_cases (unit.toList.dropWhile isSeparator) with ⟨other, same⟩ | ⟨stem, ending, split, isEnding, same⟩
  · refine ⟨_, String.ofList (unit.toList.dropWhile isSeparator), "", ⟨?_, front, ?_, .inl ⟨rfl, ?_⟩⟩, ?_⟩
    · rw [String.append_empty]
      exact whole
    · rwa [String.append_empty, String.toList_ofList]
    · rwa [String.toList_ofList]
    · rw [same, String.toList_ofList]
  · refine ⟨_, String.ofList stem, String.ofList ending, ⟨?_, front, ?_, .inr ⟨?_, ?_⟩⟩, ?_⟩
    · rw [String.append_assoc, ← String.ofList_append, ← split]
      exact whole
    · rwa [← String.ofList_append, ← split, String.toList_ofList]
    · rw [String.utf8ByteSize_ofList]
      exact (ending_cases isEnding).1
    · rwa [String.toList_ofList]
    · rw [same, String.toList_ofList]

/-- The name of an artifact is made of the stem of its unit's name, however this is taken apart. -/
theorem NameParts.artifactName {unit separators stem ending : String} (parts : NameParts unit separators stem ending) :
    (artifactName unit).toList = spelling stem.toList := by
  obtain ⟨whole, front, begins, ends⟩ := parts
  have path : unit.toList.dropWhile isSeparator = stem.toList ++ ending.toList := by
    rw [whole, String.append_assoc, String.toList_append, List.dropWhile_append_of_pos front, ← String.toList_append]
    cases same : (stem ++ ending).toList with
    | nil => rfl
    | cons c rest =>
      rw [same] at begins
      exact List.dropWhile_cons_of_neg (by simpa using begins)
  rw [artifactName_toList, path]
  rcases ends with ⟨rfl, other⟩ | ⟨-, isEnding⟩
  · simp [other]
  · have found : endsIgnoringCase scriptEnding (stem.toList ++ ending.toList) = true :=
      endsIgnoringCase_iff.mpr ⟨_, _, rfl, isEnding⟩
    obtain ⟨-, y, z, same⟩ := ending_cases isEnding
    rw [if_pos found, same]
    simp

/-- A name has parts that are its own if it begins with no separator and does not end as script files do. -/
theorem IsIdentifier.parts {name : String} (identifier : IsIdentifier name.toList) : NameParts name "" name "" := by
  obtain ⟨c, rest, same, -, words⟩ := identifier
  refine ⟨by simp, by simp, ?_, .inl ⟨rfl, ?_⟩⟩
  · rw [String.append_empty, same]
    rintro d ⟨⟩
    have word := words c List.mem_cons_self
    rw [isSeparator, Bool.or_eq_false_iff, beq_eq_false_iff_ne, beq_eq_false_iff_ne]
    constructor <;> rintro rfl <;> exact absurd word (by decide)
  · rw [Bool.eq_false_iff]
    intro ends
    obtain ⟨stem, ending, split, isEnding⟩ := endsIgnoringCase_iff.mp ends
    obtain ⟨-, y, z, rfl⟩ := ending_cases isEnding
    have dot : '.' ∈ c :: rest := by
      rw [← same, split]
      simp
    exact absurd (words '.' dot) (by decide)

theorem NameParts.prepend {unit separators stem ending more : String} (parts : NameParts unit separators stem ending)
    (front : ∀ c ∈ more.toList, isSeparator c = true) : NameParts (more ++ unit) (more ++ separators) stem ending := by
  refine ⟨by rw [parts.whole]; simp only [String.append_assoc], ?_, parts.begins, parts.ends⟩
  intro c among
  rcases List.mem_append.mp (String.toList_append ▸ among) with here | there
  · exact front c here
  · exact parts.front c there

theorem NameParts.append {unit separators stem ending : String} (parts : NameParts unit separators stem "")
    (isEnding : equalsIgnoringCase ending.toList scriptEnding = true) : NameParts (unit ++ ending) separators stem ending := by
  obtain ⟨bytes, y, z, same⟩ := ending_cases isEnding
  refine ⟨by rw [parts.whole, String.append_empty], parts.front, ?_, .inr ⟨?_, isEnding⟩⟩
  · have begins := parts.begins
    rw [String.append_empty] at begins
    rw [String.toList_append, same]
    revert begins
    cases stem.toList with
    | nil =>
      rintro - c ⟨⟩
      rfl
    | cons c rest =>
      rintro begins d ⟨⟩
      exact begins c rfl
  · rw [← String.ofList_toList (s := ending), String.utf8ByteSize_ofList, bytes]

/-- The name of an artifact is an identifier, made of the stem of its unit's name, which is cut out between characters. An
identifier is its own name, and neither separators in front nor one ending of script files make another name. -/
theorem artifactName_identifier (unit : String) :
    IsIdentifier (artifactName unit).toList ∧
    (∃ separators stem ending, NameParts unit separators stem ending ∧ (artifactName unit).toList = spelling stem.toList) ∧
    artifactName (artifactName unit) = artifactName unit ∧
    (∀ separators : String, (∀ c ∈ separators.toList, c = '/' ∨ c = '\\') →
      artifactName (separators ++ unit) = artifactName unit) ∧
    ∀ ending : String, equalsIgnoringCase ending.toList ['.', 'z', 's'] = true →
      (∀ stem other : String, unit = stem ++ other → equalsIgnoringCase other.toList ['.', 'z', 's'] = false) →
        artifactName (unit ++ ending) = artifactName unit := by
  obtain ⟨front, stem, last, parts, spelled⟩ := exists_parts unit
  have identifier : IsIdentifier (artifactName unit).toList := spelled ▸ spelling_identifier stem.toList
  refine ⟨identifier, ⟨front, stem, last, parts, spelled⟩, ?_, ?_, ?_⟩
  · rw [← String.toList_inj, identifier.parts.artifactName, spelling_eq_self identifier]
  · intro separators all
    have more : ∀ c ∈ separators.toList, isSeparator c = true := by
      intro c among
      rcases all c among with rfl | rfl <;> rfl
    rw [← String.toList_inj, (parts.prepend more).artifactName, spelled]
  · intro ending isEnding unended
    rcases parts.ends with ⟨rfl, -⟩ | ⟨-, already⟩
    · rw [← String.toList_inj, (parts.append isEnding).artifactName, spelled]
    · have other := unended _ last parts.whole
      rw [show equalsIgnoringCase last.toList ['.', 'z', 's'] = true from already] at other
      cases other

/-- A name with a separator, a digit in front and a character of two bytes, which does not end as script files do. -/
theorem numberedUnit_identifier :
    artifactName "/9é" = "_9_" ∧ artifactName "_9_" = "_9_" ∧ artifactName ("\\/" ++ "/9é") = "_9_" ∧
      artifactName ("/9é" ++ ".zS") = "_9_" := by
  have name : artifactName "/9é" = "_9_" := by decide +kernel
  obtain ⟨-, -, again, front, ending⟩ := artifactName_identifier "/9é"
  rw [name] at again front ending
  refine ⟨name, again, front "\\/" ?_, ending ".zS" (by decide) ?_⟩
  · intro c among
    simpa [or_comm] using among
  · intro stem other split
    rw [Bool.eq_false_iff]
    intro isEnding
    have ends : endsIgnoringCase scriptEnding "/9é".toList = true :=
      endsIgnoringCase_iff.mpr ⟨stem.toList, other.toList, by rw [split, String.toList_append], isEnding⟩
    exact absurd ends (by decide +kernel)

end Scriptorium
