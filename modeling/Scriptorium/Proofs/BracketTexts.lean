import Mathlib
import Scriptorium.Proofs.BracketParts
import Scriptorium.Proofs.PrintedExpressions
import Scriptorium.Proofs.SourcePieces
import Scriptorium.Proofs.Tolerance
import Scriptorium.Proofs.WholeNumbers

/-!
# Texts of bracket expressions

The path of a bracket expression is put together from tokens: a part between two colons is read as a number and a word, either of
which may be missing, and the number is written again. So the path is the text between the brackets exactly when every part keeps
its text (`parse_bracket`): its number is written as it stands, and its word is no keyword.
-/
namespace Scriptorium.Script

open Text (isWordChar)

/-- The digits that a part begins with. -/
def digitsOf (part : List Char) : List Char := part.takeWhile Char.isDigit

/-- The word after the digits. -/
def wordOf (part : List Char) : List Char := part.dropWhile Char.isDigit

/-- The tokens that a part is read as. -/
def partTokens (part : List Char) : List Token :=
  (if digitsOf part = [] then [] else [.number (Decimal.ofParts (digitsOf part) [])]) ++
    if wordOf part = [] then [] else [wordToken (wordOf part)]

/-- The text that is put together from the tokens of a part. -/
def restored (part : List Char) : String :=
  (if digitsOf part = [] then "" else Value.numberText (Decimal.ofParts (digitsOf part) [])) ++ String.ofList (wordOf part)

/-- The tokens of parts with colons between them. -/
def linkTokens (parts : List (List Char)) : List Token := [.symbol .colon].intercalate (parts.map partTokens)

private theorem linkTokens_cons (first next : List Char) (parts : List (List Char)) :
    linkTokens (first :: next :: parts) = partTokens first ++ .symbol .colon :: linkTokens (next :: parts) := by
  rw [linkTokens, List.map_cons, List.map_cons, List.intercalate_cons_cons, List.append_assoc]
  rfl

section
variable {c d : Char} {rest : List Char} (line : Nat)

/-- Nothing is skipped in front of what is neither blank nor begins a comment. -/
theorem next_solid (solid : Text.isBlank c = false ∧ c ≠ '#' ∧ c ≠ '/') :
    Cursor.next ⟨line, c :: rest⟩ = readToken line (c :: rest) := by
  rw [Cursor.next, skipTrivia_other rest line solid.1 solid.2.1 solid.2.2]

private theorem readings_symbol {sign : Symbol} {after : List Char} (read : Symbol.read? (c :: rest) = some (sign, after))
    (plain : c.isDigit = false ∧ (c.isAlpha || c == '_') = false ∧ ¬ (c = '"' ∨ c = '\'') ∧
      Text.isBlank c = false ∧ c ≠ '#' ∧ c ≠ '/') :
    Cursor.readings ⟨line, c :: rest⟩ = .token ⟨.symbol sign, line⟩ :: Cursor.readings ⟨line, after⟩ := by
  obtain ⟨noDigit, noWord, noQuote, solid⟩ := plain
  refine Cursor.readings_cons ?_ (by simp)
  rw [next_solid line solid, readToken]
  simp only [noDigit, noWord, if_neg noQuote, if_neg Bool.false_ne_true, read]

private theorem readings_number {digits : List Char} (begun : digits ≠ []) (all : ∀ d ∈ digits, d.isDigit = true)
    (noDigit : c.isDigit = false) (noPoint : c ≠ '.') :
    Cursor.readings ⟨line, digits ++ c :: rest⟩ =
      .token ⟨.number (Decimal.ofParts digits []), line⟩ :: Cursor.readings ⟨line, c :: rest⟩ := by
  let literal : Literal := ⟨digits, [], begun, all, nofun⟩
  have chars : literal.chars = digits := List.append_nil digits
  have follows : Json.NoDigit (c :: rest) := Json.noDigit_cons noDigit
  have read := readToken_literal literal follows (by simpa using noPoint) line
  rw [chars] at read
  obtain ⟨d, digits, rfl⟩ := List.exists_cons_of_ne_nil begun
  refine Cursor.readings_cons ?_ (by simp)
  rw [List.cons_append, next_solid line (isWordChar_solid (isWordChar_of_isDigit (all d List.mem_cons_self)))]
  exact read

private theorem readings_word {word : List Char} (begun : (d.isAlpha || d == '_') = true)
    (all : ∀ e ∈ d :: word, isWordChar e = true) (ends : isWordChar c = false) : Cursor.readings ⟨line, d :: word ++ c :: rest⟩ =
      .token ⟨wordToken (d :: word), line⟩ :: Cursor.readings ⟨line, c :: rest⟩ := by
  have made : isWord (d :: word) = true := by
    rw [isWord, begun, Bool.true_and, List.all_eq_true]
    exact fun e among => all e (List.mem_cons_of_mem _ among)
  have apart : ∀ e ∈ (c :: rest).head?, isWordChar e = false := by
    rintro _ ⟨⟩
    exact ends
  refine Cursor.readings_cons ?_ (by simp)
  rw [List.cons_append, next_solid line (isWordChar_solid (all d List.mem_cons_self))]
  exact readToken_word made apart line

/-- The word of a part begins with a letter or an underscore. -/
theorem wordOf_begins {part word : List Char} (all : ∀ e ∈ part, isWordChar e = true) (same : wordOf part = d :: word) :
    (d.isAlpha || d == '_') = true ∧ ∀ e ∈ d :: word, isWordChar e = true := by
  have inside : ∀ e ∈ d :: word, isWordChar e = true := by
    intro e among
    rw [← same] at among
    exact all e ((List.dropWhile_suffix _).subset among)
  have noDigit := List.head?_dropWhile_not Char.isDigit part
  rw [show part.dropWhile Char.isDigit = d :: word from same, List.head?_cons] at noDigit
  have here := inside d List.mem_cons_self
  rw [isWordChar, Char.isAlphanum, noDigit, Bool.or_false] at here
  exact ⟨here, inside⟩

/-- A part is read as its tokens. -/
theorem readings_part {part : List Char} (all : ∀ e ∈ part, isWordChar e = true) (ends : isWordChar c = false)
    (noPoint : c ≠ '.') :
    Cursor.readings ⟨line, part ++ c :: rest⟩ =
      (partTokens part).map (fun token => .token ⟨token, line⟩) ++ Cursor.readings ⟨line, c :: rest⟩ := by
  have split : part = digitsOf part ++ wordOf part := List.takeWhile_append_dropWhile.symm
  have digits : ∀ e ∈ digitsOf part, e.isDigit = true := fun e among => List.mem_takeWhile_imp among
  have noDigit : c.isDigit = false := by
    by_contra digit
    simp [isWordChar, Char.isAlphanum, digit] at ends
  have word : Cursor.readings ⟨line, wordOf part ++ c :: rest⟩ =
      (if wordOf part = [] then [] else [wordToken (wordOf part)]).map (fun token => .token ⟨token, line⟩) ++
        Cursor.readings ⟨line, c :: rest⟩ := by
    rcases same : wordOf part with _ | ⟨d, word⟩
    · rfl
    · obtain ⟨begun, inside⟩ := wordOf_begins all same
      rw [readings_word line begun inside ends]
      rfl
  have number : Cursor.readings ⟨line, digitsOf part ++ (wordOf part ++ c :: rest)⟩ =
      (if digitsOf part = [] then [] else [Token.number (Decimal.ofParts (digitsOf part) [])]).map
        (fun token => .token ⟨token, line⟩) ++ Cursor.readings ⟨line, wordOf part ++ c :: rest⟩ := by
    by_cases empty : digitsOf part = []
    · rw [empty]
      rfl
    · rw [if_neg empty]
      rcases same : wordOf part with _ | ⟨d, word⟩
      · exact readings_number line empty digits noDigit noPoint
      · obtain ⟨begun, -⟩ := wordOf_begins all same
        refine readings_number line empty digits (isDigit_eq_false begun) ?_
        rintro rfl
        exact absurd begun (by decide)
  rw [partTokens, List.map_append, List.append_assoc, ← word, ← number, ← List.append_assoc, ← split]

/-- Parts with colons between them are read as their tokens, up to the bracket that closes them. -/
theorem readings_link (first : List Char) {parts : List (List Char)}
    (all : ∀ part ∈ first :: parts, ∀ e ∈ part, isWordChar e = true) :
    Cursor.readings ⟨line, [':'].intercalate (first :: parts) ++ '>' :: rest⟩ =
      (linkTokens (first :: parts)).map (fun token => .token ⟨token, line⟩) ++ Cursor.readings ⟨line, '>' :: rest⟩ := by
  induction parts generalizing first with
  | nil =>
    rw [List.intercalate_singleton, linkTokens, List.map_singleton, List.intercalate_singleton]
    exact readings_part line (all first List.mem_cons_self) (by decide) (by decide)
  | cons next parts ih =>
    obtain ⟨here, later⟩ := List.forall_mem_cons.mp all
    rw [List.intercalate_cons_cons, List.append_assoc, List.append_assoc, List.singleton_append,
      readings_part line here (by decide) (by decide), readings_symbol line rfl (by decide), ih next later, linkTokens_cons]
    simp

end

/-- The tokens of a statement that is a bracket expression. -/
def bracketTokens (parts : List (List Char)) : List Token :=
  .symbol .less :: (linkTokens parts ++ [.symbol .greater, .symbol .semicolon])

private theorem ofReadings_tokens (tokens : List Token) (line : Nat) :
    TokenStream.ofReadings (tokens.map (fun token => .token ⟨token, line⟩) ++ [.finish line]) =
      ⟨tokens.map (⟨·, line⟩), .finish line⟩ := by
  induction tokens with
  | nil => rfl
  | cons token tokens ih =>
    rw [List.map_cons, List.cons_append, TokenStream.ofReadings, ih]
    rfl

/-- The source of a statement that is a bracket expression. -/
def bracketSource (parts : List String) : String := "<" ++ ":".intercalate parts ++ ">;"

private theorem ofSource_bracket {first : String} {parts : List String}
    (words : ∀ part ∈ first :: parts, part ≠ "" ∧ ∀ c ∈ part.toList, isWordChar c = true) :
    TokenStream.ofSource (bracketSource (first :: parts)) =
      ⟨(bracketTokens ((first :: parts).map String.toList)).map (⟨·, 1⟩), .finish 1⟩ := by
  have chars : (bracketSource (first :: parts)).toList =
      '<' :: ([':'].intercalate ((first :: parts).map String.toList) ++ '>' :: [';']) := by
    rw [bracketSource, String.toList_append, String.toList_append, String.toList_intercalate, List.append_assoc]
    rfl
  have inside : ∀ part ∈ (first :: parts).map String.toList, ∀ e ∈ part, isWordChar e = true := by
    intro part among
    obtain ⟨word, found, rfl⟩ := List.mem_map.mp among
    exact (words word found).2
  have opening : ∃ d rest, [':'].intercalate ((first :: parts).map String.toList) ++ '>' :: [';'] = d :: rest ∧ d ≠ '=' := by
    obtain ⟨filled, here⟩ := words first List.mem_cons_self
    obtain ⟨d, tail, same⟩ := List.exists_cons_of_ne_nil (fun empty => filled (String.toList_eq_nil_iff.mp empty))
    have other : d ≠ '=' := by
      rintro rfl
      exact absurd (here '=' (by rw [same]; exact List.mem_cons_self)) (by decide)
    rw [List.map_cons, same]
    cases parts with
    | nil => exact ⟨d, _, by rw [List.map_nil, List.intercalate_singleton]; rfl, other⟩
    | cons next parts => exact ⟨d, _, by rw [List.map_cons, List.intercalate_cons_cons]; rfl, other⟩
  have close : Cursor.readings ⟨1, '>' :: [';']⟩ = [.token ⟨.symbol .greater, 1⟩, .token ⟨.symbol .semicolon, 1⟩, .finish 1] := by
    decide +kernel
  obtain ⟨d, rest, begins, other⟩ := opening
  have less : Symbol.read? ('<' :: d :: rest) = some (.less, d :: rest) := by
    simp [Symbol.read?, other]
  rw [TokenStream.ofSource, Cursor.start, chars, TokenStream.ofCursor_eq, begins, readings_symbol 1 less (by decide), ← begins,
    List.map_cons, readings_link 1 _ inside, close, ← ofReadings_tokens]
  simp [bracketTokens]

namespace Parser

private theorem reads_partsPass (done : String × List String) (tokens : List Token) :
    Reads (iterate partsPass done) tokens True (scanParts done tokens).1 (scanParts done tokens).2 := by
  let lexemes : List Lexeme := tokens.map (⟨·, 1⟩)
  have run : iterate partsPass done (leftAt lexemes (.finish 1) []) = .ok (scanParts done (lexemes.map Lexeme.token)).1
      (leftAt (lexemes.dropWhile (ofPath ·.token)) (.finish 1) []) := iterate_partsPass (fun _ => ⟨1, rfl⟩) done
  have same : lexemes.map Lexeme.token = tokens := by simp [lexemes, Function.comp_def]
  have left : lexemes.dropWhile (ofPath ·.token) = (scanParts done tokens).2.map (⟨·, 1⟩) := by
    rw [(scanParts_path tokens done.1 done.2).2, List.dropWhile_map]
    rfl
  rw [same, left] at run
  exact .inl ⟨trivial, run⟩

/-- Whether the word of a part is no keyword. -/
def Named (part : List Char) : Prop := Keyword.ofSpelling? (String.ofList (wordOf part)) = none

private theorem scanParts_part {part : List Char} (named : Named part) (text : String) (done : List String) (rest : List Token) :
    scanParts (text, done) (partTokens part ++ rest) = scanParts (text ++ restored part, done) rest := by
  have word : ∀ text, scanParts (text, done) ((if wordOf part = [] then [] else [wordToken (wordOf part)]) ++ rest) =
      scanParts (text ++ String.ofList (wordOf part), done) rest := by
    intro text
    by_cases empty : wordOf part = []
    · simp [empty]
    · have token : wordToken (wordOf part) = .name (String.ofList (wordOf part)) := by
        simp only [wordToken, show Keyword.ofSpelling? (String.ofList (wordOf part)) = none from named]
      simp [empty, token, scanParts, partText?]
  rw [partTokens, restored, List.append_assoc]
  by_cases empty : digitsOf part = []
  · rw [if_pos empty, if_pos empty, String.empty_append]
    exact word text
  · rw [if_neg empty, if_neg empty, ← String.append_assoc]
    exact word (text ++ Value.numberText (Decimal.ofParts (digitsOf part) []))

/-- The parts end at a keyword. -/
theorem scanParts_keyword {part : List Char} (keyword : ¬ Named part) (text : String) (done : List String) (rest : List Token) :
    ∃ found word tail, scanParts (text, done) (partTokens part ++ rest) = (found, .keyword word :: tail) := by
  obtain ⟨word, same⟩ := Option.ne_none_iff_exists'.mp keyword
  have token : wordToken (wordOf part) = .keyword word := by
    simp only [wordToken, same]
  have filled : wordOf part ≠ [] := by
    intro empty
    rw [empty] at same
    cases same
  rw [partTokens, token, if_neg filled]
  by_cases empty : digitsOf part = []
  · rw [if_pos empty]
    exact ⟨(text, done), word, rest, rfl⟩
  · rw [if_neg empty]
    exact ⟨(text ++ Value.numberText (Decimal.ofParts (digitsOf part) []), done), word, rest, rfl⟩

private theorem scanParts_link {first : List Char} {parts : List (List Char)} (named : ∀ part ∈ first :: parts, Named part)
    (text : String) (done : List String) (rest : List Token) : ∃ last before,
      scanParts (text, done) (linkTokens (first :: parts) ++ .symbol .greater :: rest) =
        ((last, before), .symbol .greater :: rest) ∧
        (last :: before).reverse = done.reverse ++ (text ++ restored first) :: parts.map restored := by
  induction parts generalizing first text done with
  | nil =>
    refine ⟨text ++ restored first, done, ?_, by simp⟩
    rw [linkTokens, List.map_singleton, List.intercalate_singleton, scanParts_part (named first List.mem_cons_self)]
    rfl
  | cons next parts ih =>
    obtain ⟨here, later⟩ := List.forall_mem_cons.mp named
    obtain ⟨last, before, scanned, whole⟩ := ih later "" ((text ++ restored first) :: done)
    refine ⟨last, before, ?_, by simpa using whole⟩
    rw [linkTokens_cons, List.append_assoc, scanParts_part here, List.cons_append, scanParts, if_pos rfl, scanned]

private theorem scanParts_link_keyword {first : List Char} {parts : List (List Char)}
    (keyword : ¬ ∀ part ∈ first :: parts, Named part) (text : String) (done : List String) (rest : List Token) : ∃ found word tail,
      scanParts (text, done) (linkTokens (first :: parts) ++ rest) = (found, .keyword word :: tail) := by
  induction parts generalizing first text done with
  | nil =>
    rw [List.forall_mem_singleton] at keyword
    rw [linkTokens, List.map_singleton, List.intercalate_singleton]
    exact scanParts_keyword keyword text done rest
  | cons next parts ih =>
    rw [linkTokens_cons, List.append_assoc]
    by_cases here : Named first
    · have later : ¬ ∀ part ∈ next :: parts, Named part := fun all => keyword (List.forall_mem_cons.mpr ⟨here, all⟩)
      rw [scanParts_part here, List.cons_append, scanParts, if_pos rfl]
      exact ih later "" _
    · exact scanParts_keyword here text done _

/-! ## Parsing bracket expressions -/

/-- A parser fails on tokens. -/
def Refuses {α : Type} (p : Parser α) (tokens : List Token) : Prop := ∃ error s, p (on tokens) = .error error s

section
variable {α β : Type} {p : Parser α} {f : α → Parser β} {tokens mid rest : List Token} {a : α} {fits : Prop}

theorem Reads.run (reads : Reads p tokens True a rest) : p (on tokens) = .ok a (on rest) := by
  rcases reads with ⟨-, run⟩ | ⟨never, -⟩
  · exact run
  · exact absurd trivial never

theorem Refuses.bind (refuses : Refuses p tokens) : Refuses (p >>= f) tokens := by
  obtain ⟨error, s, run⟩ := refuses
  exact ⟨error, s, bind_error run⟩

theorem Reads.refuses (first : Reads p tokens True a mid) (after : Refuses (f a) mid) : Refuses (p >>= f) tokens := by
  obtain ⟨error, s, run⟩ := after
  exact ⟨error, s, (bind_ok first.run).trans run⟩

private theorem refuses_fail {line : Nat} {cause : ParseCause} : Refuses (fail line cause : Parser α) tokens := ⟨_, _, rfl⟩

private theorem refuses_iterate {pass : β → Parser (β × Bool)} {b : β} (refuses : Refuses (pass b) tokens) :
    Refuses (iterate pass b) tokens := by
  obtain ⟨error, s, run⟩ := refuses
  exact ⟨error, s, iterate_error run⟩

end

section
variable {ctx : Context} {first : List Char} {parts : List (List Char)} {rest : List Token}

/-- The tokens of a bracket expression. -/
def bracketed (parts : List (List Char)) (rest : List Token) : List Token :=
  .symbol .less :: (linkTokens parts ++ .symbol .greater :: rest)

/-- A bracket expression whose words are no keywords is read up to its end. -/
theorem reads_bracketParts (named : ∀ part ∈ first :: parts, Named part) (rest : List Token) :
    Reads bracketParts (linkTokens (first :: parts) ++ .symbol .greater :: rest) True ((first :: parts).map restored)
      (.symbol .greater :: rest) := by
  obtain ⟨last, before, scanned, whole⟩ := scanParts_link named "" [] rest
  have reads := reads_partsPass ("", []) (linkTokens (first :: parts) ++ .symbol .greater :: rest)
  rw [scanned] at reads
  have same : (first :: parts).map restored = (last :: before).reverse := by
    rw [whole, List.map_cons, String.empty_append]
    rfl
  rw [bracketParts_eq, same]
  exact reads.after reads_pure

private theorem reads_bracket (named : ∀ part ∈ first :: parts, Named part)
    (filled : ((first :: parts).map restored).any String.isEmpty = false) {value : Value}
    (resolved : BracketHandler.resolve ctx.env.brackets ((first :: parts).map restored) = some value) (rest : List Token) :
    Reads (bracket ctx) (bracketed (first :: parts) rest) True (.bracket (":".intercalate ((first :: parts).map restored)) value)
      rest := by
  refine reads_line.after (reads_advance.after ((reads_bracketParts named rest).after (reads_accept.after ?_)))
  simp only [Bool.not_true, if_neg Bool.false_ne_true, filled, resolved]
  exact reads_pure

/-- Where nothing is let pass, a bracket expression fails that has a keyword in it, or that does not stand for anything. -/
theorem refuses_bracket (strict : ctx.tolerant = false) (rest : List Token)
    (wrong : (∀ part ∈ first :: parts, Named part) → ((first :: parts).map restored).any String.isEmpty = true ∨
      BracketHandler.resolve ctx.env.brackets ((first :: parts).map restored) = none) :
    Refuses (bracket ctx) (bracketed (first :: parts) rest) := by
  have refuses (line : Nat) (fault : BracketFault) (tokens : List Token) : Refuses (bracketFault ctx line fault) tokens := by
    rw [bracketFault, strict, if_neg Bool.false_ne_true]
    exact refuses_fail
  refine reads_line.refuses (reads_advance.refuses ?_)
  by_cases named : ∀ part ∈ first :: parts, Named part
  · refine (reads_bracketParts named rest).refuses (reads_accept.refuses ?_)
    simp only [Bool.not_true, if_neg Bool.false_ne_true]
    by_cases empty : ((first :: parts).map restored).any String.isEmpty = true
    · rw [if_pos empty]
      exact refuses _ _ _
    · simp only [if_neg empty, (wrong named).resolve_left empty]
      exact refuses _ _ _
  · obtain ⟨found, word, tail, scanned⟩ := scanParts_link_keyword named "" [] (.symbol .greater :: rest)
    have reads := reads_partsPass ("", []) (linkTokens (first :: parts) ++ .symbol .greater :: rest)
    rw [scanned] at reads
    have read : Reads bracketParts (linkTokens (first :: parts) ++ .symbol .greater :: rest) True (found.1 :: found.2).reverse
        (.keyword word :: tail) := by
      rw [bracketParts_eq]
      exact reads.after reads_pure
    refine read.refuses ((reads_reject (by simp)).refuses ?_)
    simp only [Bool.not_false, if_true]
    exact refuses _ _ _

/-- What comes of a bracket expression, comes of the unit that consists of it. -/
theorem reads_bracketUnit {value : Value} {path : String} (artifact : String)
    (reads : ∀ rest, Reads (bracket ctx) (bracketed (first :: parts) rest) True (.bracket path value) rest) :
    Reads (wholeUnit ctx artifact) (bracketTokens (first :: parts)) True
      ⟨ctx.unit, artifact, [], [], [.expr (.bracket path value)]⟩ [] := by
  have operand : Operand ctx 0 (bracketed (first :: parts) []) 0 (.bracket path value) := by
    intro budget rest ends
    have same : bracketed (first :: parts) [] ++ rest = bracketed (first :: parts) rest := by simp [bracketed]
    rw [operation, same]
    refine reads_unary_of_primary ?_ ends ?_
    · rintro sign ⟨⟩
      rfl
    · rw [primary]
      exact (reads_line.after (reads_peek.after (reads rest))).congr (by simp)
  have tokens : bracketTokens (first :: parts) = bracketed (first :: parts) [] ++ [.symbol .semicolon] := by
    simp [bracketTokens, bracketed]
  have closes : Closes [.symbol .semicolon] := closes_semicolon
  have whole := (operand.looser (Nat.zero_le Connective.levels)).whole (maxNesting - 1) closes
  rw [← tokens] at whole
  have fits : 0 + 1 ≤ maxNesting - 1 ↔ True := by decide
  have statement : Reads (statement ctx maxNesting) (bracketTokens (first :: parts)) True (.expr (.bracket path value)) [] := by
    rw [show maxNesting = maxNesting - 1 + 1 from rfl, Parser.statement]
    refine reads_peek.after ?_
    exact (whole.congr fits).after (reads_expect.after reads_pure)
  have item : Reads (topLevelItem ctx ⟨[], [], [], ∅⟩) (bracketTokens (first :: parts)) True
      (⟨[], [], [.expr (.bracket path value)], ∅⟩, true) [] :=
    reads_peek.after (statement.after reads_pure)
  have shorter : ([] : List Token).length < (bracketTokens (first :: parts)).length := by simp [bracketTokens]
  have last : Reads (iterate (topLevelItem ctx) ⟨[], [], [.expr (.bracket path value)], ∅⟩) [] True
      ⟨[], [], [.expr (.bracket path value)], ∅⟩ [] :=
    reads_iterate_last (Reads.after (reads_peek : Reads peek [] True _ []) reads_pure)
  exact reads_settle.after (((reads_iterate_step item shorter last).congr (iff_of_eq (and_self True))).after reads_pure)

private theorem refuses_bracketUnit (artifact : String)
    (refuses : Refuses (bracket ctx) (bracketed (first :: parts) [.symbol .semicolon])) :
    Refuses (wholeUnit ctx artifact) (bracketTokens (first :: parts)) := by
  have tokens : bracketed (first :: parts) [.symbol .semicolon] = bracketTokens (first :: parts) := by
    simp [bracketTokens, bracketed]
  rw [tokens] at refuses
  have primary (budget : Nat) : Refuses (primary ctx budget) (bracketTokens (first :: parts)) := by
    rw [Parser.primary]
    exact reads_line.refuses (reads_peek.refuses refuses)
  have operation (level budget : Nat) : Refuses (operation ctx level budget) (bracketTokens (first :: parts)) := by
    induction level with
    | zero =>
      rw [Parser.operation, unary]
      refine reads_line.refuses (reads_peek.refuses ?_)
      show Refuses (call ctx budget) _
      rw [call]
      exact (primary budget).bind
    | succ level ih =>
      rw [Parser.operation]
      exact ih.bind
  have expression (budget : Nat) : Refuses (expression ctx (budget + 1)) (bracketTokens (first :: parts)) := by
    rw [Parser.expression, assignment]
    exact (operation Connective.levels budget).bind
  have statement : Refuses (statement ctx maxNesting) (bracketTokens (first :: parts)) := by
    rw [show maxNesting = maxNesting - 2 + 1 + 1 from rfl, Parser.statement]
    exact reads_peek.refuses (expression _).bind
  have item : Refuses (topLevelItem ctx ⟨[], [], [], ∅⟩) (bracketTokens (first :: parts)) := reads_peek.refuses statement.bind
  exact reads_settle.refuses (refuses_iterate item).bind

end

end Parser

/-! ## Parts that keep their text -/

/-- The number of a part, if it begins with one, is written as it stands, and its word is no keyword. -/
def KeepsText (part : List Char) : Prop :=
  (digitsOf part ≠ [] → Value.numberText (Decimal.ofParts (digitsOf part) []) = String.ofList (digitsOf part)) ∧ Parser.Named part

/-- A number without a zero in front and below `2 ^ 53`, and no keyword. -/
def PlainPart (part : List Char) : Prop :=
  (digitsOf part ≠ [] → Decimal.Numeral.isWhole (digitsOf part) = true ∧ Decimal.ofDigits (digitsOf part) < 2 ^ 53) ∧
    Parser.Named part

theorem PlainPart.keepsText {part : List Char} (plain : PlainPart part) : KeepsText part := by
  refine ⟨?_, plain.2⟩
  intro begun
  obtain ⟨whole, small⟩ := plain.1 begun
  exact Decimal.numberText_ofParts (fun c among => List.mem_takeWhile_imp among) whole small

private theorem keepsText_iff {part : List Char} : KeepsText part ↔ Parser.Named part ∧ restored part = String.ofList part := by
  have split : String.ofList part = String.ofList (digitsOf part) ++ String.ofList (wordOf part) := by
    rw [← String.ofList_append, digitsOf, wordOf, List.takeWhile_append_dropWhile]
  rw [KeepsText, and_comm, restored, split, and_congr_right_iff]
  intro _
  by_cases empty : digitsOf part = []
  · simp [empty]
  · rw [if_neg empty, String.append_left_inj]
    exact forall_prop_of_true empty

private theorem numeral_noColon {n : Decimal.Numeral} (written : Json.Written n) : ':' ∉ n.chars := by
  have noDigit : ∀ {digits : List Char}, (∀ c ∈ digits, c.isDigit = true) → ':' ∉ digits :=
    fun all among => absurd (all ':' among) (by decide)
  have exponent : ':' ∉ n.exponent.elim [] Decimal.Exponent.chars := by
    rcases same : n.exponent with _ | e
    · simp
    · have digits := noDigit (written.exponent e same).2
      rw [Option.elim_some, Decimal.Exponent.chars]
      split <;> simp [digits]
  have whole := noDigit written.digits
  have fraction := noDigit written.fraction
  rw [Decimal.Numeral.chars]
  simp only [List.mem_append, not_or]
  refine ⟨⟨⟨?_, whole⟩, ?_⟩, exponent⟩
  · split <;> simp
  · split <;> simp [fraction]

private theorem numberText_noColon (x : Float) : ':' ∉ (Value.numberText x).toList := by
  rw [Value.numberText]
  split
  · decide
  · rw [Decimal.Layout.write]
    cases parts : Decimal.Binary64.parts? x with
    | some b =>
      rw [String.toList_ofList]
      exact numeral_noColon (Decimal.arrange_written _ _ (Decimal.Shortest.ofBinary64_plain _ (Decimal.parts?_canonical parts)))
    | none =>
      simp only
      split
      · decide
      · split <;> decide

private theorem restored_noColon {part : List Char} (all : ∀ c ∈ part, isWordChar c = true) : ':' ∉ (restored part).toList := by
  have word : ':' ∉ wordOf part := fun among => absurd (all ':' ((List.dropWhile_suffix _).subset among)) (by decide)
  rw [restored, String.toList_append, String.toList_ofList, List.mem_append, not_or]
  refine ⟨?_, word⟩
  split
  · exact List.not_mem_nil
  · exact numberText_noColon _

/-- Parts without colons are told from their path. -/
theorem intercalate_injective {left right : List String} (leftFilled : left ≠ []) (rightFilled : right ≠ [])
    (leftClear : ∀ part ∈ left, ':' ∉ part.toList) (rightClear : ∀ part ∈ right, ':' ∉ part.toList)
    (same : ":".intercalate left = ":".intercalate right) : left = right := by
  have split {parts : List String} (filled : parts ≠ []) (clear : ∀ part ∈ parts, ':' ∉ part.toList) :
      (":".intercalate parts).toList.splitOn ':' = parts.map String.toList := by
    rw [String.toList_intercalate]
    refine List.splitOn_intercalate ':' ?_ (by simpa using filled)
    intro part among
    obtain ⟨word, found, rfl⟩ := List.mem_map.mp among
    exact clear word found
  have lists := (split leftFilled leftClear).symm.trans ((congrArg (fun path => path.toList.splitOn ':') same).trans
    (split rightFilled rightClear))
  exact List.map_injective_iff.mpr (fun _ _ => String.toList_inj.mp) lists

namespace Environment

variable {env : Environment} {unit artifact : String} {tolerant : Bool} {first : String} {parts : List String}

/-- The value that a namespace gives its path. -/
theorem resolve_namespace {space : String} {earlier later : List BracketHandler} (filled : parts ≠ [])
    (passed : ∀ handler ∈ earlier, handler (space :: parts) = none) :
    BracketHandler.resolve (earlier ++ BracketHandler.ofNamespace space :: later) (space :: parts) =
      some (.text (":".intercalate (space :: parts))) := by
  obtain ⟨part, parts, rfl⟩ := List.exists_cons_of_ne_nil filled
  have none : earlier.findSome? (· (space :: part :: parts)) = none := List.findSome?_eq_none_iff.mpr passed
  rw [BracketHandler.resolve, List.findSome?_append, none, Option.none_or, List.findSome?_cons]
  simp [BracketHandler.ofNamespace]

private theorem start_bracket (words : ∀ part ∈ first :: parts, part ≠ "" ∧ ∀ c ∈ part.toList, isWordChar c = true) :
    Parser.State.start (.ofSource (bracketSource (first :: parts))) =
      Parser.on (bracketTokens ((first :: parts).map String.toList)) :=
  congrArg Parser.State.start (ofSource_bracket words)

/-- A bracket expression that is parsed without a warning has no keyword in it, and its path is put together from its parts. -/
theorem path_of_parse (words : ∀ part ∈ first :: parts, part ≠ "" ∧ ∀ c ∈ part.toList, isWordChar c = true) {path : String}
    {value : Value} (parsed : env.parse (bracketSource (first :: parts)) unit artifact tolerant =
      ⟨.ok ⟨unit, artifact, [], [], [.expr (.bracket path value)]⟩, [], env⟩) :
    (∀ part ∈ first :: parts, Parser.Named part.toList) ∧
      path = ":".intercalate ((first :: parts).map fun part => restored part.toList) := by
  -- nothing was let pass, so the strict parse gives the same
  have strict : env.parse (bracketSource (first :: parts)) unit artifact false =
      ⟨.ok ⟨unit, artifact, [], [], [.expr (.bracket path value)]⟩, [], env⟩ := by
    cases tolerant with
    | false => exact parsed
    | true =>
      cases parallel env (bracketSource (first :: parts)) unit artifact with
      | same quiet same other => rw [← same, parsed]
      | fault line fault stopped later run warned =>
        rw [parsed] at warned
        cases warned
  have start := start_bracket words
  have accepted : ¬ Parser.Refuses (Parser.wholeUnit ⟨unit, env, false⟩ artifact)
      (bracketTokens ((first :: parts).map String.toList)) := by
    rintro ⟨error, s, run⟩
    rw [← start] at run
    rw [parse_error run] at strict
    cases strict
  rw [List.map_cons] at start accepted
  have right := mt (Parser.refuses_bracketUnit artifact) accepted
  have wrong := mt (Parser.refuses_bracket rfl [.symbol .semicolon]) right
  rw [Classical.not_imp, not_or, Bool.not_eq_true] at wrong
  obtain ⟨named, filled, resolves⟩ := wrong
  obtain ⟨value', resolved⟩ := Option.ne_none_iff_exists'.mp resolves
  have run := (Parser.reads_bracketUnit artifact (Parser.reads_bracket named filled resolved)).run
  rw [← start] at run
  rw [parse_value run] at strict
  cases strict
  refine ⟨by simpa using named, ?_⟩
  rw [← List.map_cons, List.map_map]
  rfl

private theorem parse_of_keepsText {space : String} {earlier later : List BracketHandler}
    (known : env.brackets = earlier ++ BracketHandler.ofNamespace space :: later) (filled : parts ≠ [])
    (words : ∀ part ∈ space :: parts, part ≠ "" ∧ ∀ c ∈ part.toList, isWordChar c = true)
    (passed : ∀ handler ∈ earlier, handler (space :: parts) = none)
    (keep : ∀ part ∈ space :: parts, KeepsText part.toList) :
    env.parse (bracketSource (space :: parts)) unit artifact tolerant =
      ⟨.ok ⟨unit, artifact, [], [], [.expr (.bracket (":".intercalate (space :: parts))
        (.text (":".intercalate (space :: parts))))]⟩, [], env⟩ := by
  have same : ((space :: parts).map String.toList).map restored = space :: parts := by
    rw [List.map_map]
    refine (List.map_congr_left ?_).trans (List.map_id _)
    intro part among
    exact (keepsText_iff.mp (keep part among)).2.trans String.ofList_toList
  have start := start_bracket words
  rw [List.map_cons] at start same
  have named : ∀ part ∈ space.toList :: parts.map String.toList, Parser.Named part := by
    rw [← List.map_cons, List.forall_mem_map]
    exact fun part among => (keep part among).2
  have begun : ((space.toList :: parts.map String.toList).map restored).any String.isEmpty = false := by
    rw [same, List.any_eq_false]
    intro part among
    simpa using (words part among).1
  have resolved : BracketHandler.resolve env.brackets ((space.toList :: parts.map String.toList).map restored) =
      some (.text (":".intercalate (space :: parts))) := by
    rw [same, known]
    exact resolve_namespace filled passed
  let ctx : Parser.Context := ⟨unit, env, tolerant⟩
  have found : BracketHandler.resolve ctx.env.brackets _ = some _ := resolved
  have reads := Parser.reads_bracket named begun found
  have run := (Parser.reads_bracketUnit artifact reads).run
  rw [same, ← start] at run
  exact parse_value run

/-- A bracket expression of a known namespace stands for the text between its brackets exactly where all its parts keep their
text, whatever the unit tolerates; and they do where their numbers are plain and their words are no keywords. -/
theorem parse_bracket {space : String} {earlier later : List BracketHandler}
    (known : env.brackets = earlier ++ BracketHandler.ofNamespace space :: later) (filled : parts ≠ [])
    (words : ∀ part ∈ space :: parts, part ≠ "" ∧ ∀ c ∈ part.toList, isWordChar c = true)
    (passed : ∀ handler ∈ earlier, handler (space :: parts) = none) :
    let path := ":".intercalate (space :: parts)
    (env.parse ("<" ++ path ++ ">;") unit artifact tolerant =
        ⟨.ok ⟨unit, artifact, [], [], [.expr (.bracket path (.text path))]⟩, [], env⟩ ↔
      ∀ part ∈ space :: parts, KeepsText part.toList) ∧
    ((∀ part ∈ space :: parts, PlainPart part.toList) →
      env.parse ("<" ++ path ++ ">;") unit artifact tolerant =
        ⟨.ok ⟨unit, artifact, [], [], [.expr (.bracket path (.text path))]⟩, [], env⟩) := by
  intro path
  have sufficient : (∀ part ∈ space :: parts, KeepsText part.toList) → env.parse ("<" ++ path ++ ">;") unit artifact tolerant =
      ⟨.ok ⟨unit, artifact, [], [], [.expr (.bracket path (.text path))]⟩, [], env⟩ :=
    parse_of_keepsText known filled words passed
  refine ⟨⟨?_, sufficient⟩, fun plain => sufficient fun part among => (plain part among).keepsText⟩
  intro parsed
  obtain ⟨named, same⟩ := path_of_parse words parsed
  have clear : ∀ part ∈ space :: parts, ':' ∉ part.toList :=
    fun part among colon => absurd ((words part among).2 ':' colon) (by decide)
  have texts := intercalate_injective (List.cons_ne_nil space parts) (by simp) clear
    (List.forall_mem_map.mpr fun part among => restored_noColon (words part among).2) same
  intro part among
  have kept : part = restored part.toList := List.map_inj_left.mp ((List.map_id _).trans texts) part among
  exact keepsText_iff.mpr ⟨named part among, kept.symm.trans String.ofList_toList.symm⟩

/-- Letters, and digits before and after them. -/
theorem parse_bracket_logs :
    (initial "group" [] [BracketHandler.ofNamespace "item"]).parse "<item:minecraft:log2:16x_>;" "a.zs" "a" false =
      ⟨.ok ⟨"a.zs", "a", [], [], [.expr (.bracket "item:minecraft:log2:16x_" (.text "item:minecraft:log2:16x_"))]⟩, [],
        initial "group" [] [BracketHandler.ofNamespace "item"]⟩ := by
  have path : ":".intercalate ["item", "minecraft", "log2", "16x_"] = "item:minecraft:log2:16x_" := by decide +kernel
  have source : "<" ++ "item:minecraft:log2:16x_" ++ ">;" = "<item:minecraft:log2:16x_>;" := by decide +kernel
  have plain : ∀ part ∈ ["item", "minecraft", "log2", "16x_"], PlainPart part.toList := by
    unfold PlainPart Parser.Named
    decide +kernel
  have words : ∀ part ∈ ["item", "minecraft", "log2", "16x_"], part ≠ "" ∧ ∀ c ∈ part.toList, isWordChar c = true := by
    simp only [← List.all_eq_true]
    decide +kernel
  let env := initial "group" [] [BracketHandler.ofNamespace "item"]
  have known : env.brackets = [] ++ BracketHandler.ofNamespace "item" :: [] := rfl
  have parsed : env.parse _ "a.zs" "a" false = _ := (parse_bracket known (by decide) words nofun).2 plain
  rwa [path, source] at parsed

/-- The zeros in front of a number are lost, and a keyword ends the path. -/
theorem bracket_loses_text :
    (initial "group" [] [BracketHandler.ofNamespace "item"]).parse "<item:007>;" "a.zs" "a" false =
      ⟨.ok ⟨"a.zs", "a", [], [], [.expr (.bracket "item:7" (.text "item:7"))]⟩, [],
        initial "group" [] [BracketHandler.ofNamespace "item"]⟩ ∧
    (initial "group" [] [BracketHandler.ofNamespace "item"]).parse "<item:if>;" "a.zs" "a" false =
      ⟨.error ⟨1, .bracket (.unclosed "item:")⟩, [], initial "group" [] [BracketHandler.ofNamespace "item"]⟩ := by
  constructor
  · have start : Parser.State.start (.ofSource "<item:007>;") = Parser.on (bracketTokens ["item".toList, "007".toList]) :=
      congrArg Parser.State.start (by decide +kernel)
    have named : ∀ part ∈ ["item".toList, "007".toList], Parser.Named part := by
      unfold Parser.Named
      decide +kernel
    have texts : ["item".toList, "007".toList].map restored = ["item", "7"] := by decide +kernel
    have path : ":".intercalate ["item", "7"] = "item:7" := by decide +kernel
    let ctx : Parser.Context := ⟨"a.zs", initial "group" [] [BracketHandler.ofNamespace "item"], false⟩
    have resolved : BracketHandler.resolve ctx.env.brackets (["item".toList, "007".toList].map restored) =
        some (.text "item:7") := by
      rw [texts]
      rfl
    have reads := Parser.reads_bracket named (by rw [texts]; decide) resolved
    have run := (Parser.reads_bracketUnit "a" reads).run
    rw [texts, path, ← start] at run
    exact parse_value run
  · have tokens : TokenStream.ofSource "<item:if>;" =
        ⟨[⟨.symbol .less, 1⟩, ⟨.name "item", 1⟩, ⟨.symbol .colon, 1⟩, ⟨.keyword .ifWord, 1⟩, ⟨.symbol .greater, 1⟩,
          ⟨.symbol .semicolon, 1⟩], .finish 1⟩ := by
      decide +kernel
    rw [parse, tokens]
    cbv

end Environment

end Scriptorium.Script
