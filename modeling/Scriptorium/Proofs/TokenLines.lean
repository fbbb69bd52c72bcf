import Scriptorium.Proofs.Spellings

/-!
# Lines of tokens

Whatever is read of a source falls into pieces: what is skipped before a token, and how the token is written. A token bears the
number of the line that it begins on, less one for each line feed after a backslash in the texts before it (`token_lines`), since
such a line feed belongs to its text without beginning a line (`escaped_feed_begins_no_line`).
-/
namespace Scriptorium.Script

open Text (isBlank isWordChar)

private theorem noEnd_cons {c : Char} {comment : List Char} (noEnd : ¬ ['*', '/'] <:+: comment)
    (starred : c = '*' → comment.head? ≠ some '/') : ¬ ['*', '/'] <:+: c :: comment := by
  rw [List.infix_cons_iff, not_or]
  refine ⟨?_, noEnd⟩
  intro begins
  obtain ⟨star, tail, rfl⟩ := List.cons_prefix_cons.mp begins
  exact starred star.symm rfl

/-- What is skipped up to a token, by what is being skipped at its beginning. -/
def Trivia.Covers : Trivia → List Char → Prop
  | .blanks, skipped => Skippable skipped
  | .lineComment, skipped => ∃ comment more, skipped = comment ++ '\n' :: more ∧ '\n' ∉ comment ∧ Skippable more
  | .blockComment _ starred, skipped => ∃ comment more, (if starred then '*' :: skipped else skipped) =
      comment ++ '*' :: '/' :: more ∧ ¬ ['*', '/'] <:+: comment ∧ Skippable more

/-- A character that does not end a block comment is inside it. -/
theorem covers_inside {start : Nat} {starred : Bool} {c : Char} {skipped : List Char} (goesOn : ¬ (starred && c == '/') = true)
    (covers : (Trivia.blockComment start (c == '*')).Covers skipped) :
    (Trivia.blockComment start starred).Covers (c :: skipped) := by
  -- what begins with the character itself, whether or not it is a star
  have here : ∃ comment more, c :: skipped = comment ++ '*' :: '/' :: more ∧ ¬ ['*', '/'] <:+: comment ∧ Skippable more := by
    obtain ⟨comment, more, same, noEnd, skippable⟩ := covers
    by_cases star : c = '*'
    · rw [if_pos (by simpa using star)] at same
      exact ⟨comment, more, by rw [star, same], noEnd, skippable⟩
    · rw [if_neg (by simpa using star)] at same
      exact ⟨c :: comment, more, by rw [same, List.cons_append], noEnd_cons noEnd (absurd · star), skippable⟩
  obtain ⟨comment, more, same, noEnd, skippable⟩ := here
  cases starred with
  | false => exact ⟨comment, more, same, noEnd, skippable⟩
  | true =>
    refine ⟨'*' :: comment, more, congrArg ('*' :: ·) same, noEnd_cons noEnd ?_, skippable⟩
    intro _ slash
    obtain ⟨tail, rfl⟩ := List.head?_eq_some_iff.mp slash
    rw [List.cons_append] at same
    exact goesOn (by simp [List.head_eq_of_cons_eq same])

/-- What is in front of a place was skipped on the way to it: its line feeds are counted, and if there is anything left, they are
all that was skipped up to a token. -/
def SkippedTo (s : List Char) (mode : Trivia) (line : Nat) (after : Cursor) : Prop :=
  ∃ before, s = before ++ after.rest ∧ after.line = line + before.count '\n' ∧ (after.rest ≠ [] → mode.Covers before)

theorem SkippedTo.extend {rest : List Char} {mode mode' : Trivia} {line line' : Nat} {after : Cursor}
    (later : SkippedTo rest mode' line' after) (front : List Char) (lines : line' = line + front.count '\n')
    (covers : ∀ skipped, mode'.Covers skipped → mode.Covers (front ++ skipped)) : SkippedTo (front ++ rest) mode line after := by
  obtain ⟨before, rfl, counted, covered⟩ := later
  refine ⟨front ++ before, by rw [List.append_assoc], ?_, fun more => covers before (covered more)⟩
  rw [counted, lines, List.count_append, Nat.add_assoc]

private theorem skipTrivia_skippedTo {s : List Char} {mode : Trivia} {line : Nat} {after : Cursor}
    (skipped : skipTrivia s mode line = (none, after)) : SkippedTo s mode line after := by
  fun_induction skipTrivia s mode line with
  | case1 mode line =>
    obtain ⟨-, rfl⟩ := Prod.mk.inj skipped
    exact ⟨[], rfl, rfl, fun more => absurd rfl more⟩
  | case2 line rest ih => exact (ih skipped).extend ['\n'] rfl fun _ more => .blank (by decide) more
  | case3 line c rest other blank ih => exact (ih skipped).extend [c] (by simp [other]) fun _ more => .blank blank more
  | case4 line rest =>
    rename_i ih
    refine (ih skipped).extend ['#'] rfl ?_
    rintro _ ⟨comment, more, rfl, noFeed, skippable⟩
    exact .hash noFeed skippable
  | case5 line =>
    obtain ⟨-, rfl⟩ := Prod.mk.inj skipped
    exact ⟨[], rfl, rfl, fun _ => .nil⟩
  | case6 line rest =>
    rename_i ih
    refine (ih skipped).extend ['/', '/'] rfl ?_
    rintro _ ⟨comment, more, rfl, noFeed, skippable⟩
    exact .slashes noFeed skippable
  | case7 line rest =>
    rename_i ih
    refine (ih skipped).extend ['/', '*'] rfl ?_
    rintro _ ⟨comment, more, rfl, noEnd, skippable⟩
    exact .block noEnd skippable
  | case8 | case9 =>
    obtain ⟨-, rfl⟩ := Prod.mk.inj skipped
    exact ⟨[], rfl, rfl, fun _ => .nil⟩
  | case10 line rest ih =>
    exact (ih skipped).extend ['\n'] rfl fun skippable more => ⟨[], skippable, rfl, List.not_mem_nil, more⟩
  | case11 line c rest other ih =>
    refine (ih skipped).extend [c] (by simp [other]) ?_
    rintro _ ⟨comment, more, rfl, noFeed, skippable⟩
    exact ⟨c :: comment, more, rfl, by simp [Ne.symm other, noFeed], skippable⟩
  | case12 line c rest start starred closes ih =>
    rw [Bool.and_eq_true, beq_iff_eq] at closes
    obtain ⟨rfl, rfl⟩ := closes
    exact (ih skipped).extend ['/'] rfl fun skippable more => ⟨[], skippable, rfl, by simp, more⟩
  | case13 line c rest start starred goesOn ih =>
    exact (ih skipped).extend [c] (line_after c [] line) fun _ covers => covers_inside goesOn covers

private theorem readText_quoted {quote : Char} {s done : List Char} {line : Nat} {value : String} {after : Cursor}
    (read : readText quote s done line = (some value, after)) : ∃ written inside, s = written ++ quote :: after.rest ∧
      Quoted quote written inside ∧ value = String.ofList (done.reverse ++ inside) := by
  fun_induction readText quote s done line with
  | case1 => cases read
  | case2 done line rest =>
    cases read
    exact ⟨[], [], rfl, .nil, by rw [List.append_nil]⟩
  | case3 => cases read
  | case4 done line d rest noQuote ih =>
    obtain ⟨written, inside, rfl, quoted, rfl⟩ := ih read
    exact ⟨'\\' :: d :: written, unescape d :: inside, rfl, .escaped d quoted, by simp⟩
  | case5 done line c rest noQuote noSlash ih =>
    obtain ⟨written, inside, rfl, quoted, rfl⟩ := ih read
    exact ⟨c :: written, c :: inside, rfl, .plain noQuote noSlash quoted, by simp⟩

private theorem readNumber_literal {c : Char} (digit : c.isDigit = true) (rest : List Char) : ∃ literal : Literal,
    c :: rest = literal.chars ++ (readNumber (c :: rest)).2 ∧ (readNumber (c :: rest)).1 = literal.value := by
  have begun : (c :: rest).takeWhile Char.isDigit ≠ [] := by simp [digit]
  have allDigits (s : List Char) : ∀ d ∈ s.takeWhile Char.isDigit, d.isDigit = true :=
    fun d inside => List.mem_takeWhile_imp inside
  have parts := List.takeWhile_append_dropWhile (p := Char.isDigit) (l := c :: rest)
  have noFraction : ∃ literal : Literal, c :: rest = literal.chars ++ (c :: rest).dropWhile Char.isDigit ∧
      Decimal.ofParts ((c :: rest).takeWhile Char.isDigit) [] = literal.value :=
    ⟨⟨_, [], begun, allDigits _, nofun⟩, by simp [Literal.chars, parts], rfl⟩
  unfold readNumber
  simp only
  split
  · rename_i d more left
    split
    · rename_i fraction
      have filled : (d :: more).takeWhile Char.isDigit ≠ [] := by simp [fraction]
      refine ⟨⟨_, _, begun, allDigits _, allDigits (d :: more)⟩, ?_, rfl⟩
      rw [Literal.chars, if_neg (by simpa using filled), List.append_assoc, List.cons_append, List.takeWhile_append_dropWhile,
        ← left, parts]
    · rw [← left]
      exact noFraction
  · exact noFraction

private theorem wordToken_spells {word : List Char} (made : isWord word = true) : Spells (wordToken word) word := by
  unfold wordToken
  simp only
  split
  · rename_i keyword found
    have spelled : keyword.spelling = String.ofList word := by
      simpa using List.find?_some found
    have spells := Spells.keyword keyword
    rwa [spelled, String.toList_ofList] at spells
  · rename_i noKeyword
    have spells : Spells (.name (String.ofList word)) (String.ofList word).toList :=
      .name ⟨by rwa [String.toList_ofList], noKeyword⟩
    rwa [String.toList_ofList] at spells

/-- A token that is read is written in front of what is left, and the line goes on with its line feeds that are not escaped. -/
theorem readToken_spells {line : Nat} {s : List Char} {lexeme : Lexeme} {after : Cursor}
    (read : readToken line s = (.token lexeme, after)) : lexeme.line = line ∧ ∃ written, s = written ++ after.rest ∧
      Spells lexeme.token written ∧ after.line + escapedFeeds written = line + written.count '\n' := by
  -- all tokens but texts leave the line as it is
  have ofPlain {token : Token} {written left : List Char} (same : s = written ++ left) (spells : Spells token written)
      (other : ∀ value, token ≠ .text value) : ∃ written, s = written ++ left ∧ Spells token written ∧
        line + escapedFeeds written = line + written.count '\n' := by
    exact ⟨written, same, spells, by rw [escapedFeeds_of_noFeed (spells.noFeed other)]⟩
  cases s with
  | nil => cases read
  | cons c rest =>
    unfold readToken at read
    simp only at read
    split at read
    · rename_i digit
      obtain ⟨literal, parts, value⟩ := readNumber_literal digit rest
      cases read
      refine ⟨rfl, ofPlain parts ?_ (by simp)⟩
      rw [value]
      exact .number literal
    split at read
    · rename_i begun
      cases read
      have made : isWord (c :: rest.takeWhile isWordChar) = true := by
        rw [isWord, Bool.and_eq_true, List.all_eq_true]
        exact ⟨begun, fun d inside => List.mem_takeWhile_imp inside⟩
      have spells := wordToken_spells made
      refine ⟨rfl, ofPlain ?_ spells ?_⟩
      · rw [List.cons_append, List.takeWhile_append_dropWhile]
      · unfold wordToken
        simp only
        split <;> simp
    split at read
    · rename_i kind
      split at read
      · rename_i value cursor inner
        cases read
        obtain ⟨written, inside, rfl, quoted, rfl⟩ := readText_quoted inner
        obtain ⟨noSlash, noFeed, -⟩ := quote_plain kind
        -- what is written is read again, which tells the line after it
        obtain ⟨n, lines, again⟩ := quoted.readText noSlash noFeed after.rest [] line
        obtain ⟨-, same⟩ := Prod.mk.inj (inner.symm.trans again)
        refine ⟨rfl, c :: (written ++ [c]), by simp, .text kind quoted, ?_⟩
        rw [escapedFeeds_cons noSlash, List.count_cons_of_ne noFeed, same, lines]
      · cases read
    split at read
    · rename_i symbol left found
      cases read
      exact ⟨rfl, ofPlain (Symbol.read?_split found) (.symbol symbol) (by simp)⟩
    · cases read

theorem Cursor.next_piece {cursor after : Cursor} {lexeme : Lexeme} (next : cursor.next = (.token lexeme, after)) :
    ∃ piece : Piece, cursor.rest = piece.chars ++ after.rest ∧ lexeme = ⟨piece.token, cursor.line + piece.skipped.count '\n'⟩ ∧
      after.line + escapedFeeds piece.written = cursor.line + piece.chars.count '\n' := by
  unfold Cursor.next at next
  split at next
  · cases next
  · rename_i start skipped
    obtain ⟨before, parts, lines, covers⟩ := skipTrivia_skippedTo skipped
    obtain ⟨same, written, rest, spells, ends⟩ := readToken_spells next
    have left : start.rest ≠ [] := by
      obtain ⟨c, more, begun, -⟩ := spells.begins
      rw [rest, begun]
      simp
    refine ⟨⟨before, lexeme.token, written, covers left, spells⟩, ?_, ?_, ?_⟩
    · rw [Piece.chars, List.append_assoc, parts, rest]
    · rw [← lines, ← same]
    · rw [Piece.chars, List.count_append, ← Nat.add_assoc, ← lines, ends]

theorem readToken_finish {line n : Nat} {s : List Char} {after : Cursor} (read : readToken line s = (.finish n, after)) :
    s = [] ∧ n = line := by
  cases s with
  | nil =>
    cases read
    exact ⟨rfl, rfl⟩
  | cons c rest =>
    unfold readToken at read
    simp only at read
    split at read
    · cases read
    split at read
    · cases read
    split at read
    · split at read <;> cases read
    split at read <;> cases read

theorem Cursor.next_finish {cursor after : Cursor} {n : Nat} (next : cursor.next = (.finish n, after)) :
    n = cursor.line + cursor.rest.count '\n' := by
  unfold Cursor.next at next
  split at next
  · cases next
  · rename_i start skipped
    obtain ⟨before, parts, lines, -⟩ := skipTrivia_skippedTo skipped
    obtain ⟨empty, rfl⟩ := readToken_finish next
    rw [parts, empty, List.append_nil, lines]

/-- The line feeds after backslashes in the texts among pieces. -/
def Piece.escaped (pieces : List Piece) : Nat := (pieces.map fun piece => escapedFeeds piece.written).sum

theorem Piece.escaped_cons (piece : Piece) (pieces : List Piece) :
    escaped (piece :: pieces) = escapedFeeds piece.written + escaped pieces := by
  rw [escaped, List.map_cons, List.sum_cons, escaped]

theorem Piece.escaped_append (before after : List Piece) : escaped (before ++ after) = escaped before + escaped after := by
  rw [escaped, List.map_append, List.sum_append, escaped, escaped]

/-- Tokens that are read off pieces of a source, from a line on: one from each piece. A token bears the line that it begins on,
less the line feeds that are escaped before it, and so does the end of the source. -/
structure TokenStream.ReadOff (line : Nat) (source : List Char) (tokens : TokenStream) (pieces : List Piece) : Prop where
  begins : Piece.text pieces <+: source
  length : tokens.lexemes.length = pieces.length
  lines : ∀ before piece after, pieces = before ++ piece :: after → ∃ n, tokens.lexemes[before.length]? = some ⟨piece.token, n⟩ ∧
    n + Piece.escaped before = line + (Piece.text before ++ piece.skipped).count '\n'
  finish : ∀ n, tokens.stop = .finish n → n + Piece.escaped pieces = line + source.count '\n'

theorem TokenStream.ReadOff.cons {line n : Nat} {piece : Piece} {rest : List Char} {tokens : TokenStream} {pieces : List Piece}
    (later : TokenStream.ReadOff n rest tokens pieces) (next : n + escapedFeeds piece.written = line + piece.chars.count '\n') :
    TokenStream.ReadOff line (piece.chars ++ rest)
      ⟨⟨piece.token, line + piece.skipped.count '\n'⟩ :: tokens.lexemes, tokens.stop⟩ (piece :: pieces) where
  begins := by
    rw [Piece.text_cons]
    exact (List.prefix_append_right_inj _).mpr later.begins
  length := by rw [List.length_cons, List.length_cons, later.length]
  lines := by
    rintro (_ | ⟨first, before⟩) other after same
    · cases same
      exact ⟨_, rfl, by rw [Piece.escaped, Piece.text]; rfl⟩
    · obtain ⟨rfl, rfl⟩ := List.cons.inj same
      obtain ⟨m, found, lines⟩ := later.lines before other after rfl
      refine ⟨m, found, ?_⟩
      rw [Piece.text_cons, List.append_assoc, List.count_append, Piece.escaped_cons]
      omega
  finish := by
    intro m ends
    have lines := later.finish m ends
    rw [Piece.escaped_cons, List.count_append]
    omega

theorem TokenStream.ofCursor_readOff (cursor : Cursor) :
    ∃ pieces, ReadOff cursor.line cursor.rest (ofCursor cursor) pieces := by
  induction size : cursor.rest.length using Nat.strong_induction_on generalizing cursor with
  | _ size ih =>
    subst size
    have shorter := cursor.next_shorter
    rcases next : cursor.next with ⟨lexeme | line | fault, after⟩
    · obtain ⟨piece, parts, rfl, lines⟩ := Cursor.next_piece next
      rw [next] at shorter
      obtain ⟨pieces, later⟩ := ih _ (shorter (by simp)) after rfl
      rw [ofCursor_token next, parts]
      exact ⟨piece :: pieces, later.cons lines⟩
    · rw [ofCursor_finish next]
      refine ⟨[], List.nil_prefix, rfl, by simp, ?_⟩
      rintro _ ⟨⟩
      exact Cursor.next_finish next
    · rw [ofCursor_fault next]
      exact ⟨[], List.nil_prefix, rfl, by simp, nofun⟩

/-- The tokens of a source are read off its pieces. They bear the lines that they begin on if and only if no line feed is escaped
in a text that another token follows. -/
theorem token_lines (source : String) : ∃ pieces,
    TokenStream.ReadOff 1 source.toList (.ofSource source) pieces ∧
    ((∀ before piece after, pieces = before ++ piece :: after → (TokenStream.ofSource source).lexemes[before.length]? =
        some ⟨piece.token, 1 + (Piece.text before ++ piece.skipped).count '\n'⟩) ↔
      Piece.escaped pieces.dropLast = 0) := by
  obtain ⟨pieces, readOff⟩ : ∃ pieces, TokenStream.ReadOff 1 source.toList (.ofSource source) pieces :=
    TokenStream.ofCursor_readOff (Cursor.start source)
  refine ⟨pieces, readOff, ?_, ?_⟩
  · intro right
    rcases List.eq_nil_or_concat pieces with rfl | ⟨before, piece, rfl⟩
    · rfl
    · rw [List.concat_eq_append] at readOff right
      obtain ⟨n, found, lines⟩ := readOff.lines before piece [] rfl
      have same := found.symm.trans (right before piece [] rfl)
      simp only [Option.some.injEq, Lexeme.mk.injEq, true_and] at same
      rw [List.concat_eq_append, List.dropLast_concat]
      omega
  · intro none before piece after parts
    obtain ⟨n, found, lines⟩ := readOff.lines before piece after parts
    rw [parts, List.dropLast_append_of_ne_nil (List.cons_ne_nil piece after), Piece.escaped_append] at none
    rw [found, ← lines, (Nat.add_eq_zero_iff.mp none).1, Nat.add_zero]

/-- The line feed after a backslash is part of a text. The name after the text stands on the second line, and bears the first. -/
theorem escaped_feed_begins_no_line :
    TokenStream.ofSource "\"a\\\nb\" x" = ⟨[⟨.text "a\nb", 1⟩, ⟨.name "x", 1⟩], .finish 1⟩ ∧
      1 + "\"a\\\nb\" ".toList.count '\n' = 2 := by
  decide +kernel

end Scriptorium.Script
