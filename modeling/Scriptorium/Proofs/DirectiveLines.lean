import Mathlib
import Scriptorium.Build.Directives
import Scriptorium.Proofs.SourcePieces

/-!
# Directive lines as comments

To the lexer a directive line is a comment wherever a comment may stand and inside a block comment that it does not end; inside a
text it is part of the text, and is scanned as a directive all the same. A source whose directive lines are comments is read as
if they were empty (`readings_withoutDirectives`).
-/
namespace Scriptorium.Build

open Script (Cursor TokenStream WholeLines skipTrivia)
open Text (not_mem_of_mem_splitAt splitAt_eq_splitOn)

/-- Lines and the line feeds after them. -/
def fed (lines : List (List Char)) : List Char := lines.flatMap (· ++ ['\n'])

private theorem fed_append_singleton (lines : List (List Char)) (line : List Char) :
    fed (lines ++ [line]) = fed lines ++ (line ++ ['\n']) := by
  rw [fed, List.flatMap_append, List.flatMap_singleton]
  rfl

theorem wholeLines_fed (lines : List (List Char)) : WholeLines (fed lines) := by
  intro c last
  rcases List.eq_nil_or_concat lines with rfl | ⟨before, line, rfl⟩
  · cases last
  · rw [List.concat_eq_append, fed_append_singleton, ← List.append_assoc, List.getLast?_concat] at last
    exact (Option.some.inj last).symm

/-- Whether a line is one of the directives that there are. -/
def isDirective (line : List Char) : Bool :=
  match (directive? (Text.trim line)).bind Directives.initial.apply? with
  | some (.ok _) => true
  | _ => false

/-- A line in the place of another: the empty line if that is a directive. -/
def blanked (line : List Char) : List Char := if isDirective line then [] else line

/-- A source with an empty line in the place of every directive. -/
def withoutDirectives (source : String) : String :=
  String.ofList (['\n'].intercalate ((Text.splitAt '\n' source.toList).map blanked))

/-- A line after others is a comment, or part of one: they leave no text open and, if they leave a block comment open, the line
does not end it. -/
def IsComment (before : List (List Char)) (line : List Char) : Prop :=
  ¬ (Cursor.mk 1 (fed before)).Has .unterminatedText ∧
    ((Cursor.mk 1 (fed before)).Has .unterminatedComment → ¬ ['*', '/'] <:+: line)

instance (before : List (List Char)) (line : List Char) : Decidable (IsComment before line) :=
  inferInstanceAs (Decidable (_ ∧ _))

/-- Every directive among lines is a comment where it stands. -/
def DirectivesAreComments (lines : List (List Char)) : Prop :=
  ∀ i, (inside : i < lines.length) → isDirective lines[i] = true → IsComment (lines.take i) lines[i]

instance (lines : List (List Char)) : Decidable (DirectivesAreComments lines) :=
  inferInstanceAs (Decidable (∀ i, (inside : i < lines.length) → isDirective lines[i] = true → IsComment (lines.take i) lines[i]))

theorem DirectivesAreComments.at_split {before lines after : List (List Char)} {line : List Char}
    (comments : DirectivesAreComments lines) (split : lines = before ++ line :: after) (directive : isDirective line = true) :
    IsComment before line := by
  subst split
  have comment := comments before.length (by simp)
  rw [List.getElem_append_right le_rfl, List.take_left] at comment
  simpa using comment (by simpa using directive)

/-- What a directive does to the directives before it does not depend on them. -/
theorem apply?_kind (directives : Directives) (directive : Directive) :
    ( directives.apply? directive).map (·.map fun _ => ()) = ( Directives.initial.apply? directive).map (·.map fun _ => ()) := by
  unfold Directives.apply?
  split
  case h_4 => split <;> rfl
  all_goals rfl

private theorem directive?_hash {line : List Char} {directive : Directive} (found : directive? line = some directive) :
    ∃ rest, line = '#' :: rest := by
  unfold directive? at found
  split at found
  case h_1 rest => exact ⟨rest, rfl⟩
  case h_2 => cases found

/-- A directive line begins with a hash, after blanks. -/
theorem isDirective_hash {line : List Char} (directive : isDirective line = true) :
    ∃ blanks rest, line = blanks ++ '#' :: rest ∧ ∀ c ∈ blanks, Text.isBlank c = true := by
  rcases found : directive? (Text.trim line) with _ | found'
  · rw [isDirective, found] at directive
    cases directive
  obtain ⟨rest, trimmed⟩ := directive?_hash found
  have inside : Text.trim line <+: Text.trimStart line := by
    rw [Text.trim, ← List.reverse_suffix, List.reverse_reverse]
    exact List.dropWhile_suffix _
  rw [trimmed] at inside
  obtain ⟨more, same⟩ := inside
  refine ⟨line.takeWhile Text.isBlank, rest ++ more, ?_, fun c => List.mem_takeWhile_imp⟩
  rw [← List.cons_append, same, Text.trimStart, List.takeWhile_append_dropWhile]

section
variable {line rest : List Char} (noFeed : '\n' ∉ line) (ends : rest = [] ∨ ∃ tail, rest = '\n' :: tail)
include noFeed ends

private theorem skipTrivia_comment (n : Nat) : skipTrivia (line ++ rest) .lineComment n = skipTrivia rest .blanks n := by
  rw [Script.skipTrivia_lineComment noFeed]
  rcases ends with rfl | ⟨tail, rfl⟩
  · rw [Script.skipTrivia_nil, Script.skipTrivia_nil]
    rfl
  · rw [Script.skipTrivia_lineComment_feed, Script.skipTrivia_feed]

private theorem skipTrivia_hashLine (directive : isDirective line = true) (n : Nat) :
    skipTrivia (line ++ rest) .blanks n = skipTrivia rest .blanks n := by
  obtain ⟨blanks, more, rfl, all⟩ := isDirective_hash directive
  clear directive
  induction blanks with
  | nil =>
    rw [List.nil_append, List.cons_append, Script.skipTrivia_hash]
    exact skipTrivia_comment (fun among => noFeed (List.mem_cons_of_mem _ among)) ends n
  | cons c blanks ih =>
    rw [List.cons_append, List.mem_cons, not_or] at noFeed
    rw [List.cons_append, List.cons_append, Script.skipTrivia_blank _ _ (all c List.mem_cons_self) (Ne.symm noFeed.1)]
    exact ih (fun d among => all d (List.mem_cons_of_mem _ among)) noFeed.2

/-- In a block comment a line is skipped that does not end it. -/
theorem skipTrivia_commented (start n : Nat) (noEnd : ¬ ['*', '/'] <:+: line) :
    skipTrivia (line ++ rest) (.blockComment start false) n = skipTrivia rest (.blockComment start false) n := by
  obtain ⟨starred, skipped⟩ := Script.skipTrivia_inside noEnd start n false nofun rest
  rw [skipped, List.count_eq_zero.mpr noFeed, Nat.add_zero]
  rcases ends with rfl | ⟨tail, rfl⟩
  · rw [Script.skipTrivia_nil, Script.skipTrivia_nil]
    rfl
  · rw [Script.skipTrivia_blockComment_cons, Script.skipTrivia_blockComment_cons]
    simp

/-- A directive line that is a comment may be left out. -/
theorem readings_directive {before : List (List Char)} (directive : isDirective line = true) (comment : IsComment before line) :
    Cursor.readings ⟨1, fed before ++ (line ++ rest)⟩ = Cursor.readings ⟨1, fed before ++ rest⟩ := by
  obtain ⟨noText, noEnd⟩ := comment
  refine (wholeLines_fed before).readings_congr 1 noText (skipTrivia_hashLine noFeed ends directive) ?_
  intro has start n
  exact skipTrivia_commented noFeed ends start n (noEnd has)

end

/-- The lines after some lines are read the same with and without their directives, whatever these lines were taken for, as long
as that makes no difference. -/
theorem readings_blanked {before lines : List (List Char)} {taken : List Char}
    (same : ∀ x, Cursor.readings ⟨1, taken ++ x⟩ = Cursor.readings ⟨1, fed before ++ x⟩) (clear : ∀ line ∈ lines, '\n' ∉ line)
    (comments : ∀ more line after, lines = more ++ line :: after → isDirective line = true → IsComment (before ++ more) line) :
    Cursor.readings ⟨1, taken ++ ['\n'].intercalate (lines.map blanked)⟩ =
      Cursor.readings ⟨1, fed before ++ ['\n'].intercalate lines⟩ := by
  induction lines generalizing before taken with
  | nil => exact same []
  | cons line lines ih =>
    have step {rest : List Char} (ends : rest = [] ∨ ∃ tail, rest = '\n' :: tail) :
        Cursor.readings ⟨1, taken ++ (blanked line ++ rest)⟩ = Cursor.readings ⟨1, fed before ++ (line ++ rest)⟩ := by
      rw [same, blanked]
      split
      · rename_i directive
        have comment := comments [] line lines rfl directive
        rw [List.append_nil] at comment
        exact (readings_directive (clear line List.mem_cons_self) ends directive comment).symm
      · rfl
    cases lines with
    | nil =>
      have last := step (.inl rfl)
      simpa using last
    | cons next lines =>
      have here : ∀ x, Cursor.readings ⟨1, taken ++ (blanked line ++ ['\n']) ++ x⟩ =
          Cursor.readings ⟨1, fed (before ++ [line]) ++ x⟩ := by
        intro x
        simpa [fed_append_singleton] using step (.inr ⟨x, rfl⟩)
      have after := ih here (fun other among => clear other (List.mem_cons_of_mem _ among)) <| by
        intro more other after split directive
        rw [List.append_assoc]
        exact comments (line :: more) other after (congrArg (line :: ·) split) directive
      simpa [List.intercalate_cons_cons, fed_append_singleton] using after

/-- The empty line after the last line feed of a source makes no difference to the scan. -/
theorem scanLines_append_empty (unit : String) (number : Nat) (directives : Directives) (events : List LogEvent)
    (lines : List (List Char)) :
    scanLines unit number directives events (lines ++ [[]]) = scanLines unit number directives events lines := by
  induction lines generalizing number directives events with
  | nil => rfl
  | cons line lines ih =>
    rw [List.cons_append, scanLines, scanLines]
    split
    · exact ih ..
    · split
      · exact ih ..
      · exact ih ..
      · rfl

theorem scanLines_lines (unit : String) (s : List Char) :
    scanLines unit 1 .initial [] (Text.lines s) = scanLines unit 1 .initial [] (Text.splitAt '\n' s) := by
  by_cases last : (Text.splitAt '\n' s).getLast? = some []
  · obtain ⟨lines, same⟩ := List.getLast?_eq_some_iff.mp last
    rw [Text.lines, if_pos last, same, List.dropLast_concat, scanLines_append_empty]
  · rw [Text.lines, if_neg last]

/-- Nothing is found in lines without directives, except the first error that there is. -/
theorem scanLines_blanked (unit : String) (number : Nat) (directives : Directives) (events : List LogEvent)
    (lines : List (List Char)) :
    scanLines unit number .initial [] (lines.map blanked) =
      ((scanLines unit number directives events lines).1.map fun _ => .initial, []) := by
  induction lines generalizing number directives events with
  | nil => rfl
  | cons line lines ih =>
    rw [List.map_cons, scanLines, scanLines]
    rcases found : directive? (Text.trim line) with _ | directive
    · have kept : blanked line = line := by
        simp [blanked, isDirective, found]
      simp only [kept, found]
      exact ih ..
    · have kind := apply?_kind directives directive
      rcases applied : Directives.initial.apply? directive with _ | message | first
      · have kept : blanked line = line := by
          simp [blanked, isDirective, found, applied]
        rw [applied, Option.map_none, Option.map_eq_none_iff] at kind
        simp only [kept, found, applied, kind]
        exact ih ..
      · have kept : blanked line = line := by
          simp [blanked, isDirective, found, applied]
        rcases here : directives.apply? directive with _ | error | next
        · simp [here, applied] at kind
        · simp only [here, applied, Option.map_some, Except.map, Option.some.injEq, Except.error.injEq] at kind
          simp only [kept, found, applied, here, kind]
          rfl
        · simp [here, applied, Except.map] at kind
      · have gone : blanked line = [] := by
          simp [blanked, isDirective, found, applied]
        rcases here : directives.apply? directive with _ | error | next
        · simp [here, applied] at kind
        · simp [here, applied, Except.map] at kind
        · have empty : directive? (Text.trim []) = none := rfl
          simp only [gone, empty, here]
          exact ih ..

private theorem splitAt_withoutDirectives (source : String) :
    Text.splitAt '\n' (withoutDirectives source).toList = (Text.splitAt '\n' source.toList).map blanked := by
  rw [withoutDirectives, String.toList_ofList, splitAt_eq_splitOn, List.splitOn_intercalate]
  · intro piece among
    obtain ⟨line, found, rfl⟩ := List.mem_map.mp among
    rw [blanked]
    split
    · exact List.not_mem_nil
    · exact not_mem_of_mem_splitAt found
  · rw [splitAt_eq_splitOn, ne_eq, List.map_eq_nil_iff]
    exact List.splitOn_ne_nil _ _

/-- A source whose directive lines are comments is read in the same way with and without them, its tokens and their lines as well
as its faults; and no directive is found in what is left of it. -/
theorem readings_withoutDirectives (source : String) (comments : DirectivesAreComments (Text.splitAt '\n' source.toList)) :
    (Cursor.start (withoutDirectives source)).readings = (Cursor.start source).readings ∧
      TokenStream.ofSource (withoutDirectives source) = TokenStream.ofSource source ∧
      ∀ unit bytes left, Text.Utf8.decode bytes = .ok source → Text.Utf8.decode left = .ok (withoutDirectives source) →
        scan unit (.ok left) = ((scan unit (.ok bytes)).1.map fun _ => .initial, []) := by
  have same : (Cursor.start (withoutDirectives source)).readings = (Cursor.start source).readings := by
    have begun : ∀ x, Cursor.readings ⟨1, [] ++ x⟩ = Cursor.readings ⟨1, fed [] ++ x⟩ := fun x => rfl
    have read := readings_blanked begun (fun line among => not_mem_of_mem_splitAt among)
      fun more line after split directive => comments.at_split split directive
    rw [splitAt_eq_splitOn, List.intercalate_splitOn] at read
    rw [Cursor.start, withoutDirectives, String.toList_ofList, splitAt_eq_splitOn]
    exact read
  refine ⟨same, ?_, ?_⟩
  · rw [TokenStream.ofSource, TokenStream.ofSource, TokenStream.ofCursor_eq, TokenStream.ofCursor_eq, same]
  · intro unit bytes left decoded decodedLeft
    simp only [scan, decoded, decodedLeft, scanLines_lines, splitAt_withoutDirectives]
    exact scanLines_blanked ..

/-- Directives at the beginning, in a block comment and behind a statement. -/
def commentedSource : String := "#debug\n/* about\n#loader other\n*/\nemit(1);\n\t#norun\n"

theorem commentedSource_readings :
    TokenStream.ofSource "\n/* about\n\n*/\nemit(1);\n\n" = TokenStream.ofSource commentedSource ∧
      (scan "unit" (.ok commentedSource.toUTF8.toList)).1 = .ok ⟨true, false, true, some "other"⟩ := by
  have read := readings_withoutDirectives commentedSource (by decide +kernel)
  have left : withoutDirectives commentedSource = "\n/* about\n\n*/\nemit(1);\n\n" := by decide +kernel
  rw [left] at read
  exact ⟨read.2.1, by decide +kernel⟩

/-- A directive line inside a text is part of the text, and turns the unit off all the same. -/
theorem directive_inside_text :
    isDirective "#norun".toList = true ∧
      (scan "a.zs" (.ok "emit(\"a\n#norun\n\");".toUTF8.toList)).1 = .ok ⟨false, false, true, none⟩ ∧
      (TokenStream.ofSource "emit(\"a\n#norun\n\");").lexemes.map (·.token) =
        [.name "emit", .symbol .leftParen, .text "a\n#norun\n", .symbol .rightParen, .symbol .semicolon] ∧
      TokenStream.ofSource (withoutDirectives "emit(\"a\n#norun\n\");") ≠ TokenStream.ofSource "emit(\"a\n#norun\n\");" := by
  decide +kernel

end Scriptorium.Build
