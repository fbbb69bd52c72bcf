import Scriptorium.Proofs.Documents
import Scriptorium.Proofs.Printing
import Scriptorium.Proofs.SourcePieces

/-!
# Spellings

How tokens may be written (`Spells`), and what may stand between them (`Skippable`), said apart from how they are read. Tokens
that are written one after the other, with something skippable between any two of them that begins with a blank, are read back
(`ofSource_pieces`), whatever else is skipped there.
-/
namespace Scriptorium.Script

open Text (isBlank isWordChar)

/-- What may stand between tokens: blanks and comments. A comment after a hash or two slashes ends with its line, and a block
comment ends at the first star and slash in it. -/
inductive Skippable : List Char → Prop
  | nil : Skippable []
  | blank {c : Char} {rest : List Char} (blank : isBlank c = true) (more : Skippable rest) : Skippable (c :: rest)
  | hash {comment rest : List Char} (noFeed : '\n' ∉ comment) (more : Skippable rest) :
    Skippable ('#' :: (comment ++ '\n' :: rest))
  | slashes {comment rest : List Char} (noFeed : '\n' ∉ comment) (more : Skippable rest) :
    Skippable ('/' :: '/' :: (comment ++ '\n' :: rest))
  | block {comment rest : List Char} (noEnd : ¬ ['*', '/'] <:+: comment) (more : Skippable rest) :
    Skippable ('/' :: '*' :: (comment ++ '*' :: '/' :: rest))

private theorem skipTrivia_toEnd {comment : List Char} (noEnd : ¬ ['*', '/'] <:+: comment) (rest : List Char) (start line : Nat) :
    skipTrivia (comment ++ '*' :: '/' :: rest) (.blockComment start false) line =
      skipTrivia rest .blanks (line + comment.count '\n') := by
  obtain ⟨starred, skipped⟩ := skipTrivia_inside noEnd start line false nofun ('*' :: '/' :: rest)
  rw [skipped, skipTrivia_blockComment_cons, skipTrivia_blockComment_cons]
  simp

/-- What is skippable is skipped, whatever follows. -/
theorem Skippable.skip {skipped : List Char} (skippable : Skippable skipped) (rest : List Char) (line : Nat) :
    skipTrivia (skipped ++ rest) .blanks line = skipTrivia rest .blanks (line + skipped.count '\n') := by
  induction skippable generalizing line with
  | nil => rfl
  | @blank c more blank _ ih =>
    rw [List.cons_append, ← line_after]
    by_cases feed : c = '\n'
    · rw [feed, skipTrivia_feed, ih, if_pos rfl]
    · rw [skipTrivia_blank _ _ blank feed, ih, if_neg feed]
  | @hash comment more noFeed _ ih =>
    have feeds : ('#' :: (comment ++ '\n' :: more)).count '\n' = 1 + more.count '\n' := by
      simp [List.count_eq_zero.mpr noFeed, Nat.add_comm]
    rw [feeds, List.cons_append, List.append_assoc, skipTrivia_hash, List.cons_append, skipTrivia_lineComment noFeed,
      skipTrivia_lineComment_feed, ih, Nat.add_assoc]
  | @slashes comment more noFeed _ ih =>
    have feeds : ('/' :: '/' :: (comment ++ '\n' :: more)).count '\n' = 1 + more.count '\n' := by
      simp [List.count_eq_zero.mpr noFeed, Nat.add_comm]
    rw [feeds, List.cons_append, List.cons_append, List.append_assoc, skipTrivia_slash, if_pos rfl, List.cons_append,
      skipTrivia_lineComment noFeed, skipTrivia_lineComment_feed, ih, Nat.add_assoc]
  | @block comment more noEnd _ ih =>
    have feeds : ('/' :: '*' :: (comment ++ '*' :: '/' :: more)).count '\n' = comment.count '\n' + more.count '\n' := by
      simp
    rw [feeds, List.cons_append, List.cons_append, List.append_assoc, skipTrivia_slash, if_neg (by decide), if_pos rfl,
      List.cons_append, List.cons_append, skipTrivia_toEnd noEnd, ih, Nat.add_assoc]

/-- What stands between the quotes of a text, and the characters that it stands for: a character for itself, or after a backslash
for what is escaped. -/
inductive Quoted (quote : Char) : List Char → List Char → Prop
  | nil : Quoted quote [] []
  | plain {c : Char} {written value : List Char} (noQuote : c ≠ quote) (noSlash : c ≠ '\\') (more : Quoted quote written value) :
    Quoted quote (c :: written) (c :: value)
  | escaped (c : Char) {written value : List Char} (more : Quoted quote written value) :
    Quoted quote ('\\' :: c :: written) (unescape c :: value)

/-- How a token may be written: a number as a literal, a text in quotes of either kind, and the others in one way only. -/
inductive Spells : Token → List Char → Prop
  | number (literal : Literal) : Spells (.number literal.value) literal.chars
  | text {quote : Char} {written value : List Char} (kind : quote = '"' ∨ quote = '\'') (inside : Quoted quote written value) :
    Spells (.text (String.ofList value)) (quote :: (written ++ [quote]))
  | name {word : String} (named : IsName word) : Spells (.name word) word.toList
  | keyword (word : Keyword) : Spells (.keyword word) word.spelling.toList
  | symbol (sign : Symbol) : Spells (.symbol sign) sign.spelling.toList

/-- The line feeds after a backslash in what is written of a token. They do not begin a line. -/
def escapedFeeds : List Char → Nat
  | '\\' :: c :: rest => [c].count '\n' + escapedFeeds rest
  | _ :: rest => escapedFeeds rest
  | [] => 0

theorem escapedFeeds_cons {c : Char} (noSlash : c ≠ '\\') (rest : List Char) : escapedFeeds (c :: rest) = escapedFeeds rest := by
  rw [escapedFeeds]
  rintro _ _ rfl
  exact absurd rfl noSlash

private theorem count_escaped (c : Char) (rest : List Char) : ('\\' :: c :: rest).count '\n' = [c].count '\n' + rest.count '\n' := by
  rw [List.count_cons_of_ne (by decide : '\\' ≠ '\n'), ← List.count_append, List.singleton_append]

private theorem escapedFeeds_le (written : List Char) : escapedFeeds written ≤ written.count '\n' := by
  fun_induction escapedFeeds written with
  | case1 c rest ih =>
    rw [count_escaped]
    exact Nat.add_le_add_left ih _
  | case2 c rest _ ih => exact ih.trans (count_tail_le c rest)
  | case3 => exact Nat.le_refl 0

theorem escapedFeeds_of_noFeed {written : List Char} (noFeed : '\n' ∉ written) : escapedFeeds written = written.count '\n' := by
  have none := List.count_eq_zero.mpr noFeed
  have below := escapedFeeds_le written
  omega

/-- Where a token ends: at the end of the source, or at a blank. -/
def Parted (rest : List Char) : Prop := ∀ c ∈ rest.head?, isBlank c = true

theorem Parted.begins {c : Char} {tail : List Char} (parted : Parted (c :: tail)) : isBlank c = true := parted c rfl

/-- The characters of words are not skipped before a token. -/
theorem isWordChar_solid {c : Char} (word : isWordChar c = true) : isBlank c = false ∧ c ≠ '#' ∧ c ≠ '/' := by
  have codes : (0x30 ≤ c.toNat ∧ c.toNat ≤ 0x39) ∨ (0x41 ≤ c.toNat ∧ c.toNat ≤ 0x5A) ∨ (0x61 ≤ c.toNat ∧ c.toNat ≤ 0x7A) ∨
      c.toNat = 0x5F := by
    simp only [isWordChar, Char.isAlphanum, Char.isAlpha, Char.isUpper, Char.isLower, Char.isDigit, Bool.or_eq_true,
      Bool.and_eq_true, decide_eq_true_eq, UInt32.le_iff_toNat_le, beq_iff_eq] at word
    rcases word with ((upper | lower) | digit) | rfl
    · exact .inr (.inl upper)
    · exact .inr (.inr (.inl lower))
    · exact .inl digit
    · exact .inr (.inr (.inr rfl))
  refine ⟨?_, ?_, ?_⟩
  · simp [isBlank]
    omega
  · rintro rfl
    simp at codes
  · rintro rfl
    simp at codes

theorem isWordChar_of_isDigit {c : Char} (digit : c.isDigit = true) : isWordChar c = true := by
  simp [isWordChar, Char.isAlphanum, digit]

/-- A blank belongs to no word. -/
theorem isWordChar_eq_false {c : Char} (blank : isBlank c = true) : isWordChar c = false := by
  by_contra word
  rw [Bool.not_eq_false] at word
  rw [(isWordChar_solid word).1] at blank
  cases blank

theorem Parted.noWord {rest : List Char} (parted : Parted rest) : ∀ c ∈ rest.head?, isWordChar c = false :=
  fun c first => isWordChar_eq_false (parted c first)

theorem Parted.noDigit {rest : List Char} (parted : Parted rest) : Json.NoDigit rest := by
  rintro c tail rfl
  have noWord := parted.noWord c rfl
  by_contra digit
  rw [Bool.not_eq_false] at digit
  rw [isWordChar_of_isDigit digit] at noWord
  cases noWord

private theorem readNumber_chars (written : Literal) {rest : List Char} (noDigit : Json.NoDigit rest)
    (noPoint : rest.head? ≠ some '.') : readNumber (written.chars ++ rest) = (written.value, rest) := by
  obtain ⟨whole, fraction, begun, wholeDigits, fractionDigits⟩ := written
  have follows : Json.NoDigit ((if fraction.isEmpty then [] else '.' :: fraction) ++ rest) := Json.fraction_begins noDigit
  have taken := Json.takeWhile_digits wholeDigits follows
  have dropped := Json.dropWhile_digits wholeDigits follows
  unfold readNumber
  simp only [Literal.chars, Literal.value, List.append_assoc, taken, dropped]
  cases fraction with
  | nil =>
    simp only [List.isEmpty_nil, if_true, List.nil_append]
    split
    · exact absurd rfl noPoint
    · rfl
  | cons d digits =>
    have digit : d.isDigit = true := fractionDigits d List.mem_cons_self
    have taken := Json.takeWhile_digits fractionDigits noDigit
    have dropped := Json.dropWhile_digits fractionDigits noDigit
    rw [List.cons_append] at taken dropped
    simp only [List.isEmpty_cons, if_neg (Bool.false_ne_true), List.cons_append, digit, if_true, taken, dropped]

/-- Characters of one kind are read up to the first that is of another. -/
theorem span_ends {p : Char → Bool} {word rest : List Char} (all : ∀ c ∈ word, p c = true) (ends : ∀ c ∈ rest.head?, p c = false) :
    (word ++ rest).takeWhile p = word ∧ (word ++ rest).dropWhile p = rest := by
  rw [List.takeWhile_append_of_pos all, List.dropWhile_append_of_pos all]
  cases rest with
  | nil => simp
  | cons c tail => simp [ends c rfl]

private theorem exists_of_isWord {word : List Char} (made : isWord word = true) : ∃ c rest, word = c :: rest ∧
    (c.isAlpha || c == '_') = true ∧ ∀ d ∈ rest, isWordChar d = true := by
  cases word with
  | nil => cases made
  | cons c rest =>
    rw [isWord, Bool.and_eq_true, List.all_eq_true] at made
    exact ⟨c, rest, rfl, made⟩

private theorem isWordChar_of_begins {c : Char} (begun : (c.isAlpha || c == '_') = true) : isWordChar c = true := by
  simp only [isWordChar, Char.isAlphanum, Bool.or_eq_true] at begun ⊢
  tauto

theorem isDigit_eq_false {c : Char} (begun : (c.isAlpha || c == '_') = true) : c.isDigit = false := by
  by_contra digit
  simp only [Bool.not_eq_false, Char.isDigit, Char.isAlpha, Char.isUpper, Char.isLower, Bool.or_eq_true, Bool.and_eq_true,
    decide_eq_true_eq, UInt32.le_iff_toNat_le, beq_iff_eq] at digit begun
  rcases begun with (upper | lower) | rfl
  · exact absurd (upper.1.trans digit.2) (by decide)
  · exact absurd (lower.1.trans digit.2) (by decide)
  · exact absurd digit.2 (by decide)

theorem readToken_word {word rest : List Char} (made : isWord word = true) (ends : ∀ c ∈ rest.head?, isWordChar c = false)
    (line : Nat) :
    readToken line (word ++ rest) = (.token ⟨wordToken word, line⟩, ⟨line, rest⟩) := by
  obtain ⟨c, word, rfl, begun, all⟩ := exists_of_isWord made
  have noDigit := isDigit_eq_false begun
  obtain ⟨taken, dropped⟩ := span_ends all ends
  rw [List.cons_append, readToken]
  simp only [noDigit, if_neg (Bool.false_ne_true), begun, if_true, taken, dropped]

theorem readToken_literal (written : Literal) {rest : List Char} (noDigit : Json.NoDigit rest) (noPoint : rest.head? ≠ some '.')
    (line : Nat) :
    readToken line (written.chars ++ rest) = (.token ⟨.number written.value, line⟩, ⟨line, rest⟩) := by
  have read := readNumber_chars written noDigit noPoint
  obtain ⟨c, tail, whole⟩ := List.exists_cons_of_ne_nil written.begun
  have digit : c.isDigit = true := written.wholeDigits c (whole ▸ List.mem_cons_self)
  have begins : written.chars ++ rest = c :: (written.chars ++ rest).tail := by
    rw [Literal.chars, whole]
    rfl
  rw [begins, readToken]
  simp only [digit, if_true, ← begins, read]

/-- A quote is neither escaped nor a line feed, and begins no other token. -/
theorem quote_plain {quote : Char} (kind : quote = '"' ∨ quote = '\'') :
    quote ≠ '\\' ∧ quote ≠ '\n' ∧ quote.isDigit = false ∧ (quote.isAlpha || quote == '_') = false := by
  rcases kind with rfl | rfl <;> decide

/-- A text is read up to its closing quote. -/
theorem Quoted.readText {quote : Char} {written value : List Char} (inside : Quoted quote written value) (noSlash : quote ≠ '\\')
    (noFeed : quote ≠ '\n') (rest done : List Char) (line : Nat) : ∃ n,
      n + escapedFeeds (written ++ [quote]) = line + (written ++ [quote]).count '\n' ∧
        readText quote (written ++ quote :: rest) done line = (some (String.ofList (done.reverse ++ value)), ⟨n, rest⟩) := by
  induction inside generalizing done line with
  | nil =>
    refine ⟨line, ?_, ?_⟩
    · rw [List.nil_append, escapedFeeds_cons noSlash, List.count_cons_of_ne noFeed]
      rfl
    · rw [List.nil_append, readText.eq_def, List.append_nil]
      simp only [if_true]
  | @plain c written value noQuote noEscape _ ih =>
    obtain ⟨n, lines, read⟩ := ih (c :: done) (if c = '\n' then line + 1 else line)
    refine ⟨n, ?_, ?_⟩
    · rw [List.cons_append, escapedFeeds_cons noEscape, lines, line_after]
    · rw [List.cons_append, readText.eq_def]
      simp only [if_neg noQuote, if_neg noEscape]
      rw [read, List.reverse_cons, List.append_assoc, List.singleton_append]
  | @escaped c written value _ ih =>
    obtain ⟨n, lines, read⟩ := ih (unescape c :: done) line
    refine ⟨n, ?_, ?_⟩
    · rw [List.cons_append, List.cons_append, escapedFeeds, count_escaped]
      omega
    · rw [List.cons_append, List.cons_append, readText.eq_def]
      simp only [if_neg (Ne.symm noSlash), if_true]
      rw [read, List.reverse_cons, List.append_assoc, List.singleton_append]

private theorem wordToken_name {word : String} (named : IsName word) : wordToken word.toList = .name word := by
  simp only [wordToken, String.ofList_toList, named.noKeyword]

private theorem wordToken_keyword (keyword : Keyword) : wordToken keyword.spelling.toList = .keyword keyword := by
  have found : Keyword.ofSpelling? keyword.spelling = some keyword := by
    cases keyword <;> decide
  simp only [wordToken, String.ofList_toList, found]

private theorem isWord_spelling (keyword : Keyword) : isWord keyword.spelling.toList = true := by
  cases keyword <;> decide +kernel

private theorem read?_spelling (sign : Symbol) {rest : List Char} (parted : Parted rest) :
    Symbol.read? (sign.spelling.toList ++ rest) = some (sign, rest) := by
  cases rest with
  | nil => cases sign <;> rfl
  | cons c tail =>
    have other : c ≠ '=' := by
      rintro rfl
      exact absurd parted.begins (by decide)
    cases sign <;> simp [Symbol.spelling, Symbol.read?, other]

/-- What a symbol begins with, begins no other token. -/
theorem spelling_begins (sign : Symbol) : ∃ c rest, sign.spelling.toList = c :: rest ∧ c.isDigit = false ∧
    (c.isAlpha || c == '_') = false ∧ ¬ (c = '"' ∨ c = '\'') ∧ isBlank c = false ∧ c ≠ '#' ∧ (c = '/' → rest = []) := by
  cases sign <;> exact ⟨_, _, rfl, by decide⟩

theorem Literal.chars_digits (literal : Literal) {c : Char} (inside : c ∈ literal.chars) : c.isDigit = true ∨ c = '.' := by
  rw [Literal.chars, List.mem_append] at inside
  rcases inside with whole | fraction
  · exact .inl (literal.wholeDigits c whole)
  · split at fraction
    · cases fraction
    · rcases List.mem_cons.mp fraction with rfl | digit
      · exact .inr rfl
      · exact .inl (literal.fractionDigits c digit)

private theorem isWordChar_of_isWord {word : List Char} (made : isWord word = true) {c : Char} (inside : c ∈ word) :
    isWordChar c = true := by
  obtain ⟨first, rest, rfl, begun, all⟩ := exists_of_isWord made
  rcases List.mem_cons.mp inside with rfl | later
  · exact isWordChar_of_begins begun
  · exact all c later

/-- Only what is written of a text has line feeds in it. -/
theorem Spells.noFeed {token : Token} {written : List Char} (spells : Spells token written)
    (other : ∀ value, token ≠ .text value) : '\n' ∉ written := by
  have ofWord {word : List Char} (made : isWord word = true) : '\n' ∉ word :=
    fun inside => absurd (isWordChar_of_isWord made inside) (by decide)
  cases spells with
  | number literal => exact fun inside => absurd (literal.chars_digits inside) (by decide)
  | text => exact absurd rfl (other _)
  | name named => exact ofWord named.word
  | keyword word => exact ofWord (isWord_spelling word)
  | symbol sign => cases sign <;> decide

/-- A token that ends where the source ends or at a blank is read back from what is written of it. The line goes on with the line
feeds that are not escaped. -/
theorem Spells.readToken {token : Token} {written rest : List Char} (spells : Spells token written) (parted : Parted rest)
    (line : Nat) : ∃ n, n + escapedFeeds written = line + written.count '\n' ∧
      readToken line (written ++ rest) = (.token ⟨token, line⟩, ⟨n, rest⟩) := by
  -- all tokens but texts leave the line as it is
  have ofPlain (other : ∀ value, token ≠ .text value)
      (read : Script.readToken line (written ++ rest) = (.token ⟨token, line⟩, ⟨line, rest⟩)) :
      ∃ n, n + escapedFeeds written = line + written.count '\n' ∧
        Script.readToken line (written ++ rest) = (.token ⟨token, line⟩, ⟨n, rest⟩) := by
    exact ⟨line, by rw [escapedFeeds_of_noFeed (spells.noFeed other)], read⟩
  cases spells with
  | number literal =>
    have noPoint : rest.head? ≠ some '.' := fun point => absurd (parted '.' point) (by decide)
    exact ofPlain (by simp) (readToken_literal literal parted.noDigit noPoint line)
  | @text quote inner value kind inside =>
    obtain ⟨noSlash, noFeed, noDigit, noWord⟩ := quote_plain kind
    obtain ⟨n, lines, read⟩ := inside.readText noSlash noFeed rest [] line
    refine ⟨n, ?_, ?_⟩
    · rw [escapedFeeds_cons noSlash, List.count_cons_of_ne noFeed, lines]
    · rw [List.cons_append, List.append_assoc, List.singleton_append, Script.readToken]
      simp only [noDigit, noWord, if_neg Bool.false_ne_true, if_pos kind, read]
      rfl
  | @name word named =>
    refine ofPlain (by simp) ?_
    rw [readToken_word named.word parted.noWord, wordToken_name named]
  | keyword word =>
    refine ofPlain (by simp) ?_
    rw [readToken_word (isWord_spelling word) parted.noWord, wordToken_keyword]
  | symbol sign =>
    refine ofPlain (by simp) ?_
    have read := read?_spelling sign parted
    obtain ⟨c, tail, begins, noDigit, noWord, noQuote, -⟩ := spelling_begins sign
    rw [begins, List.cons_append] at read
    rw [begins, List.cons_append, Script.readToken]
    simp only [noDigit, noWord, if_neg noQuote, if_neg (Bool.false_ne_true), read]

/-- What is written of a token is not skipped, not even in part. -/
theorem Spells.begins {token : Token} {written : List Char} (spells : Spells token written) : ∃ c rest, written = c :: rest ∧
    isBlank c = false ∧ c ≠ '#' ∧ (c = '/' → rest = []) := by
  have ofWordChar {c : Char} {rest : List Char} (same : written = c :: rest) (word : isWordChar c = true) :
      ∃ c rest, written = c :: rest ∧ isBlank c = false ∧ c ≠ '#' ∧ (c = '/' → rest = []) := by
    obtain ⟨solid, noHash, noSlash⟩ := isWordChar_solid word
    exact ⟨c, rest, same, solid, noHash, fun slash => absurd slash noSlash⟩
  have ofWord (made : isWord written = true) :
      ∃ c rest, written = c :: rest ∧ isBlank c = false ∧ c ≠ '#' ∧ (c = '/' → rest = []) := by
    obtain ⟨c, rest, same, begun, -⟩ := exists_of_isWord made
    exact ofWordChar same (isWordChar_of_begins begun)
  cases spells with
  | number literal =>
    obtain ⟨c, tail, whole⟩ := List.exists_cons_of_ne_nil literal.begun
    have digit : c.isDigit = true := literal.wholeDigits c (whole ▸ List.mem_cons_self)
    have same : literal.chars = c :: (tail ++ if literal.fraction.isEmpty then [] else '.' :: literal.fraction) := by
      rw [Literal.chars, whole, List.cons_append]
    exact ofWordChar same (isWordChar_of_isDigit digit)
  | text kind inside =>
    refine ⟨_, _, rfl, ?_⟩
    rcases kind with rfl | rfl <;> exact ⟨by decide, by decide, fun slash => absurd slash (by decide)⟩
  | name named => exact ofWord named.word
  | keyword word => exact ofWord (isWord_spelling word)
  | symbol sign =>
    obtain ⟨c, tail, same, -, -, -, solid⟩ := spelling_begins sign
    exact ⟨c, tail, same, solid⟩

theorem Spells.skip {token : Token} {written rest : List Char} (spells : Spells token written) (parted : Parted rest)
    (line : Nat) : skipTrivia (written ++ rest) .blanks line = (none, ⟨line, written ++ rest⟩) := by
  obtain ⟨c, tail, rfl, solid, noHash, slash⟩ := spells.begins
  rw [List.cons_append]
  by_cases here : c = '/'
  · obtain rfl := slash here
    subst here
    cases rest with
    | nil =>
      rw [List.append_nil, skipTrivia.eq_def]
      rfl
    | cons d rest =>
      have noSlash : d ≠ '/' := by
        rintro rfl
        exact absurd parted.begins (by decide)
      have noStar : d ≠ '*' := by
        rintro rfl
        exact absurd parted.begins (by decide)
      rw [List.nil_append, skipTrivia_slash, if_neg noSlash, if_neg noStar]
  · exact skipTrivia_other (tail ++ rest) line solid noHash here

/-! ## Sources in pieces -/

/-- A token of a source, how it is written, and what is skipped in front of it. -/
structure Piece where
  skipped : List Char
  token : Token
  written : List Char
  skippable : Skippable skipped
  spells : Spells token written

namespace Piece

/-- A piece as it stands in the source. -/
def chars (piece : Piece) : List Char := piece.skipped ++ piece.written

/-- A piece whose token ends where the source ends or at a blank is read back. -/
theorem next (piece : Piece) {rest : List Char} (parted : Parted rest) (line : Nat) : ∃ n,
    n + escapedFeeds piece.written = line + piece.chars.count '\n' ∧
      Cursor.next ⟨line, piece.chars ++ rest⟩ = (.token ⟨piece.token, line + piece.skipped.count '\n'⟩, ⟨n, rest⟩) := by
  obtain ⟨n, lines, read⟩ := piece.spells.readToken parted (line + piece.skipped.count '\n')
  refine ⟨n, ?_, ?_⟩
  · rw [lines, chars, List.count_append, Nat.add_assoc]
  · rw [Cursor.next, chars, List.append_assoc, piece.skippable.skip, piece.spells.skip parted]
    exact read

/-- Pieces one after the other. -/
def text (pieces : List Piece) : List Char := pieces.flatMap chars

theorem text_cons (piece : Piece) (pieces : List Piece) : text (piece :: pieces) = piece.chars ++ text pieces :=
  List.flatMap_cons

end Piece

theorem Parted.append {s t : List Char} (parted : Parted s) (after : s = [] → Parted t) : Parted (s ++ t) := by
  cases s with
  | nil => exact after rfl
  | cons c s => exact parted

/-- The end of a source. -/
theorem Skippable.finish {last : List Char} (skippable : Skippable last) (line : Nat) :
    Cursor.next ⟨line, last⟩ = (.finish (line + last.count '\n'), ⟨line + last.count '\n', []⟩) := by
  have skipped := skippable.skip [] line
  rw [List.append_nil, skipTrivia_nil] at skipped
  rw [Cursor.next, skipped]
  rfl

private theorem ofCursor_pieces {pieces : List Piece} {last : List Char} (skippable : Skippable last)
    (between : ∀ piece ∈ pieces.tail, piece.skipped ≠ [] ∧ Parted piece.skipped) (after : pieces ≠ [] → Parted last)
    (line : Nat) : ∃ lexemes n, TokenStream.ofCursor ⟨line, Piece.text pieces ++ last⟩ = ⟨lexemes, .finish n⟩ ∧
      lexemes.map Lexeme.token = pieces.map Piece.token := by
  induction pieces generalizing line with
  | nil => exact ⟨[], line + last.count '\n', TokenStream.ofCursor_finish (skippable.finish line), rfl⟩
  | cons piece pieces ih =>
    have ends : Parted last := after (List.cons_ne_nil piece pieces)
    rw [List.tail_cons] at between
    have parted : Parted (Piece.text pieces ++ last) := by
      cases pieces with
      | nil => exact ends
      | cons next pieces =>
        obtain ⟨filled, begins⟩ := between next List.mem_cons_self
        rw [Piece.text_cons, Piece.chars, List.append_assoc, List.append_assoc]
        exact begins.append fun empty => absurd empty filled
    obtain ⟨n, -, next⟩ := piece.next parted line
    obtain ⟨lexemes, m, read, same⟩ := ih (fun other among => between other (List.mem_of_mem_tail among)) (fun _ => ends) n
    refine ⟨⟨piece.token, line + piece.skipped.count '\n'⟩ :: lexemes, m, ?_, ?_⟩
    · rw [Piece.text_cons, List.append_assoc, TokenStream.ofCursor_token next, read]
    · rw [List.map_cons, List.map_cons, same]

/-- Tokens that are written one after the other are read back, and then the source ends. Anything that can be skipped may stand
before them, between them and after them, as long as it begins with a blank where it follows a token, and there is some between
any two. -/
theorem ofSource_pieces (pieces : List Piece) {last : List Char} (skippable : Skippable last)
    (between : ∀ piece ∈ pieces.tail, piece.skipped ≠ [] ∧ Parted piece.skipped) (after : pieces ≠ [] → Parted last) :
    ∃ lexemes line, TokenStream.ofSource (String.ofList (Piece.text pieces ++ last)) = ⟨lexemes, .finish line⟩ ∧
      lexemes.map Lexeme.token = pieces.map Piece.token := by
  rw [TokenStream.ofSource, Cursor.start, String.toList_ofList]
  exact ofCursor_pieces skippable between after 1

/-- A text with raw and escaped characters, a comparison, a number and a keyword, with comments of each kind around them. -/
def samplePieces : List Piece :=
  [{ skipped := '#' :: (['"'] ++ ['\n'])
     token := .text (String.ofList ['a', '\n', '\'', '\\'])
     written := '\'' :: (['a', '\n', '\\', '\'', '\\', '\\'] ++ ['\''])
     skippable := .hash (by decide) .nil
     spells := .text (.inr rfl) (.plain (by decide) (by decide) (.plain (by decide) (by decide)
        (.escaped '\'' (.escaped '\\' .nil)))) },
   { skipped := ' ' :: '/' :: '*' :: (['/', ' ', '#', '*'] ++ ['*', '/'])
     token := .symbol .lessEqual
     written := Symbol.lessEqual.spelling.toList
     skippable := .blank (by decide) (.block (by decide) .nil)
     spells := .symbol .lessEqual },
   { skipped := ['\n']
     token := .number (Decimal.ofParts ['0', '7'] ['5', '0'])
     written := ['0', '7', '.', '5', '0']
     skippable := .blank (by decide) .nil
     spells := .number ⟨['0', '7'], ['5', '0'], by decide, by simp, by simp⟩ },
   { skipped := '\t' :: '/' :: '/' :: ([' ', 'i', 'f'] ++ ['\n'])
     token := .keyword .ifWord
     written := Keyword.ifWord.spelling.toList
     skippable := .blank (by decide) (.slashes (by decide) .nil)
     spells := .keyword .ifWord }]

theorem ofSource_samplePieces : ∃ lexemes line,
    TokenStream.ofSource "#\"\n'a\n\\'\\\\' /*/ #**/<=\n07.50\t// if\nif " = ⟨lexemes, .finish line⟩ ∧
      lexemes.map Lexeme.token =
        [.text "a\n'\\", .symbol .lessEqual, .number (Decimal.ofParts ['0', '7'] ['5', '0']), .keyword .ifWord] := by
  have source : "#\"\n'a\n\\'\\\\' /*/ #**/<=\n07.50\t// if\nif " = String.ofList (Piece.text samplePieces ++ [' ']) := by
    decide +kernel
  have between : ∀ piece ∈ samplePieces.tail, piece.skipped ≠ [] ∧ Parted piece.skipped := by
    simp [samplePieces, Parted, isBlank]
  have ends : Parted [' '] := by
    simp [Parted, isBlank]
  rw [source]
  exact ofSource_pieces samplePieces (.blank (by decide) .nil) between fun _ => ends

end Scriptorium.Script
