import Mathlib
import Scriptorium.Proofs.SourceLines

/-!
# Sources in pieces

Where a source is cut after a line feed, the tokens of its first part are read as if nothing followed, unless a text or a block
comment is left open there (`next_cases`). So two continuations of a part that are skipped in the same way make no difference to
the readings of the whole (`readings_append_congr`).
-/
namespace Scriptorium.Script

namespace Cursor

private theorem readings_go (done : List Reading) (cursor : Cursor) :
    readings.go done cursor =
      match cursor.next with
      | (.finish line, _) => (.finish line :: done).reverse
      | (.token lexeme, after) => readings.go (.token lexeme :: done) after
      | (.fault fault, after) => readings.go (.fault fault :: done) after := by
  rw [readings.go]
  split
  all_goals
    rename_i next
    simp only [next]

private theorem readings_go_eq (done : List Reading) (cursor : Cursor) :
    readings.go done cursor = done.reverse ++ cursor.readings := by
  unfold readings
  induction size : cursor.rest.length using Nat.strong_induction_on generalizing done cursor with
  | _ size ih =>
    subst size
    rw [readings_go, readings_go []]
    have shorter := cursor.next_shorter
    rcases next : cursor.next with ⟨lexeme | line | fault, after⟩
    · rw [next] at shorter
      simp only
      rw [ih _ (shorter (by simp)) (.token lexeme :: done) after rfl, ih _ (shorter (by simp)) [.token lexeme] after rfl]
      simp
    · simp
    · rw [next] at shorter
      simp only
      rw [ih _ (shorter (by simp)) (.fault fault :: done) after rfl, ih _ (shorter (by simp)) [.fault fault] after rfl]
      simp

theorem readings_finish {cursor after : Cursor} {line : Nat} (next : cursor.next = (.finish line, after)) :
    cursor.readings = [.finish line] := by
  rw [readings, readings_go, next]
  rfl

/-- A reading that is not the end of the source is followed by those from where it ends. -/
theorem readings_cons {cursor after : Cursor} {reading : Reading} (next : cursor.next = (reading, after))
    (goesOn : ∀ line, reading ≠ .finish line) : cursor.readings = reading :: after.readings := by
  rw [readings, readings_go, next]
  cases reading with
  | token lexeme => exact readings_go_eq [.token lexeme] after
  | finish line => exact absurd rfl (goesOn line)
  | fault fault => exact readings_go_eq [.fault fault] after

private theorem mem_readings {cursor after : Cursor} {reading : Reading} (next : cursor.next = (reading, after))
    (goesOn : ∀ line, reading ≠ .finish line) : reading ∈ cursor.readings := by
  rw [readings_cons next goesOn]
  exact List.mem_cons_self

private theorem readings_congr {cursor cursor' : Cursor} (same : cursor.next = cursor'.next) :
    cursor.readings = cursor'.readings := by
  rw [readings, readings, readings_go, readings_go, same]

end Cursor

/-- Why a reading is a fault. -/
def Reading.cause? : Reading → Option LexCause
  | .fault ⟨_, cause⟩ => some cause
  | .token _ | .finish _ => none

/-- There is a fault of this cause from here on. An open text or comment is the last fault that there is. -/
def Cursor.Has (cursor : Cursor) (cause : LexCause) : Prop := ∃ reading ∈ cursor.readings, reading.cause? = some cause

instance (cursor : Cursor) (cause : LexCause) : Decidable (cursor.Has cause) :=
  inferInstanceAs (Decidable (∃ reading ∈ cursor.readings, reading.cause? = some cause))

/-- The tokens among readings, up to the first that is none. -/
def TokenStream.ofReadings : List Reading → TokenStream
  | .token lexeme :: readings => let rest := ofReadings readings; ⟨lexeme :: rest.lexemes, rest.stop⟩
  | .fault fault :: _ => ⟨[], .fault fault⟩
  | .finish line :: _ => ⟨[], .finish line⟩
  | [] => ⟨[], .finish 1⟩

/-- The tokens of a source are its readings up to the first fault. -/
theorem TokenStream.ofCursor_eq (cursor : Cursor) : ofCursor cursor = ofReadings cursor.readings := by
  suffices all : ∀ done, ofCursor.go done cursor =
      ⟨done.reverse ++ (ofReadings cursor.readings).lexemes, (ofReadings cursor.readings).stop⟩ from all []
  intro done
  fun_induction ofCursor.go done cursor with
  | case1 done cursor line after next =>
    rw [Cursor.readings_finish next]
    simp [ofReadings]
  | case2 done cursor fault after next =>
    rw [Cursor.readings_cons next (by simp)]
    simp [ofReadings]
  | case3 done cursor lexeme after next shorter ih =>
    rw [ih, Cursor.readings_cons next (by simp)]
    simp [ofReadings]

theorem TokenStream.ofCursor_token {cursor after : Cursor} {lexeme : Lexeme} (next : cursor.next = (.token lexeme, after)) :
    ofCursor cursor = ⟨lexeme :: (ofCursor after).lexemes, (ofCursor after).stop⟩ := by
  rw [ofCursor_eq, ofCursor_eq, Cursor.readings_cons next (by simp), ofReadings]

theorem TokenStream.ofCursor_finish {cursor after : Cursor} {line : Nat} (next : cursor.next = (.finish line, after)) :
    ofCursor cursor = ⟨[], .finish line⟩ := by
  rw [ofCursor_eq, Cursor.readings_finish next, ofReadings]

theorem TokenStream.ofCursor_fault {cursor after : Cursor} {fault : LexFault} (next : cursor.next = (.fault fault, after)) :
    ofCursor cursor = ⟨[], .fault fault⟩ := by
  rw [ofCursor_eq, Cursor.readings_cons next (by simp), ofReadings]

/-- A text of whole lines: what is not empty ends in a line feed. -/
def WholeLines (s : List Char) : Prop := ∀ c ∈ s.getLast?, c = '\n'

theorem WholeLines.suffix {s t : List Char} (whole : WholeLines s) (inside : t <:+ s) : WholeLines t := by
  obtain ⟨before, rfl⟩ := inside
  intro c last
  rcases List.eq_nil_or_concat t with rfl | ⟨start, d, rfl⟩
  · cases last
  · apply whole
    simpa using last

/-- What a property that no line feed has stops at, in a text of whole lines, does not depend on what follows the text. -/
theorem WholeLines.span_append {s : List Char} (whole : WholeLines s) (begun : s ≠ []) {p : Char → Bool} (feed : p '\n' = false)
    (x : List Char) : (s ++ x).takeWhile p = s.takeWhile p ∧ (s ++ x).dropWhile p = s.dropWhile p ++ x ∧ s.dropWhile p ≠ [] := by
  have stops : s.dropWhile p ≠ [] := by
    intro all
    rw [List.dropWhile_eq_nil_iff] at all
    have holds := all _ (List.getLast_mem begun)
    rw [whole _ (List.getLast?_eq_getLast_of_ne_nil begun), feed] at holds
    cases holds
  have parts := congrArg List.length (List.takeWhile_append_dropWhile (p := p) (l := s))
  have positive := List.length_pos_iff.mpr stops
  rw [List.length_append] at parts
  refine ⟨?_, ?_, stops⟩
  · rw [List.takeWhile_append, if_neg (by omega)]
  · rw [List.dropWhile_append, if_neg (by simpa using stops)]

theorem WholeLines.tail {c : Char} {rest : List Char} (whole : WholeLines (c :: rest)) : WholeLines rest :=
  whole.suffix (List.suffix_cons c rest)

theorem WholeLines.tail_ne_nil {c : Char} {rest : List Char} (whole : WholeLines (c :: rest)) (other : c ≠ '\n') : rest ≠ [] := by
  rintro rfl
  exact other (whole c rfl)

/-! ## What is skipped -/

section
variable (s : List Char) (line : Nat)

theorem skipTrivia_nil (mode : Trivia) : skipTrivia [] mode line = (mode.faultAtEnd, ⟨line, []⟩) := by
  rw [skipTrivia.eq_def]

theorem skipTrivia_feed : skipTrivia ('\n' :: s) .blanks line = skipTrivia s .blanks (line + 1) := by
  rw [skipTrivia.eq_def]
  rfl

theorem skipTrivia_blank {c : Char} (blank : Text.isBlank c = true) (other : c ≠ '\n') :
    skipTrivia (c :: s) .blanks line = skipTrivia s .blanks line := by
  rw [skipTrivia.eq_def]
  simp [blank, other]

theorem skipTrivia_hash : skipTrivia ('#' :: s) .blanks line = skipTrivia s .lineComment line := by
  rw [skipTrivia.eq_def]
  rfl

theorem skipTrivia_slash (d : Char) : skipTrivia ('/' :: d :: s) .blanks line =
    if d = '/' then skipTrivia s .lineComment line
    else if d = '*' then skipTrivia s (.blockComment line false) line
    else (none, ⟨line, '/' :: d :: s⟩) := by
  rw [skipTrivia.eq_def]
  rfl

/-- Skipping stops at a character that is no blank and begins no comment. -/
theorem skipTrivia_other {c : Char} (solid : Text.isBlank c = false) (noHash : c ≠ '#') (noSlash : c ≠ '/') :
    skipTrivia (c :: s) .blanks line = (none, ⟨line, c :: s⟩) := by
  have noFeed : c ≠ '\n' := by
    rintro rfl
    exact absurd solid (by decide)
  rw [skipTrivia.eq_def]
  simp [solid, noHash, noSlash, noFeed]

theorem skipTrivia_lineComment_feed : skipTrivia ('\n' :: s) .lineComment line = skipTrivia s .blanks (line + 1) := by
  rw [skipTrivia.eq_def]
  rfl

private theorem skipTrivia_lineComment_cons {c : Char} (other : c ≠ '\n') :
    skipTrivia (c :: s) .lineComment line = skipTrivia s .lineComment line := by
  rw [skipTrivia.eq_def]
  simp [other]

theorem skipTrivia_blockComment_cons (c : Char) (start : Nat) (starred : Bool) :
    skipTrivia (c :: s) (.blockComment start starred) line =
      if starred && c == '/' then skipTrivia s .blanks line
      else skipTrivia s (.blockComment start (c == '*')) (if c = '\n' then line + 1 else line) := by
  rw [skipTrivia.eq_def]

end

/-- In a comment of one line all characters are skipped that do not end the line. -/
theorem skipTrivia_lineComment {comment : List Char} (noFeed : '\n' ∉ comment) (rest : List Char) (line : Nat) :
    skipTrivia (comment ++ rest) .lineComment line = skipTrivia rest .lineComment line := by
  induction comment with
  | nil => rfl
  | cons c comment ih =>
    rw [List.mem_cons, not_or] at noFeed
    rw [List.cons_append, skipTrivia_lineComment_cons _ _ (Ne.symm noFeed.1), ih noFeed.2]

/-- Inside a block comment all characters are skipped that do not end it. The star before them, if there is one, is not followed
by a slash either. -/
theorem skipTrivia_inside {comment : List Char} (noEnd : ¬ ['*', '/'] <:+: comment) (start line : Nat) (starred : Bool)
    (first : starred = true → comment.head? ≠ some '/') (rest : List Char) : ∃ starred',
      skipTrivia (comment ++ rest) (.blockComment start starred) line =
        skipTrivia rest (.blockComment start starred') (line + comment.count '\n') := by
  induction comment generalizing line starred with
  | nil => exact ⟨starred, rfl⟩
  | cons c comment ih =>
    have goesOn : (starred && c == '/') = false := by
      cases starred with
      | false => rfl
      | true => simpa using first rfl
    have later : (c == '*') = true → comment.head? ≠ some '/' := by
      intro star slash
      obtain ⟨tail, rfl⟩ := List.head?_eq_some_iff.mp slash
      rw [beq_iff_eq] at star
      subst star
      exact noEnd ⟨[], tail, rfl⟩
    obtain ⟨starred', skipped⟩ := ih (fun inside => noEnd (inside.trans (List.suffix_cons _ _).isInfix))
      (if c = '\n' then line + 1 else line) (c == '*') later
    refine ⟨starred', ?_⟩
    rw [List.cons_append, skipTrivia_blockComment_cons, goesOn, if_neg Bool.false_ne_true, skipped, line_after]

/-- What skipping comes to in a text of whole lines: it stops at a character, it goes on after the text as at the beginning of a
line, or a block comment is open there. -/
inductive Skips (s : List Char) (mode : Trivia) (line : Nat) : Prop
  | stops (n : Nat) (c : Char) (rest : List Char) (inside : c :: rest <:+ s) (solid : Text.isBlank c = false)
      (skipped : ∀ x, skipTrivia (s ++ x) mode line = (none, ⟨n, c :: (rest ++ x)⟩))
  | goesOn (n : Nat) (skipped : ∀ x, skipTrivia (s ++ x) mode line = skipTrivia x .blanks n)
  | comment (start n : Nat) (skipped : ∀ x, skipTrivia (s ++ x) mode line = skipTrivia x (.blockComment start false) n)

/-- Characters that are skipped make no difference to what skipping comes to. -/
theorem Skips.extend {s rest : List Char} {mode mode' : Trivia} {line line' : Nat} (skips : Skips rest mode' line')
    (inside : rest <:+ s) (same : ∀ x, skipTrivia (s ++ x) mode line = skipTrivia (rest ++ x) mode' line') :
    Skips s mode line := by
  cases skips with
  | stops n c more within solid skipped => exact .stops n c more (within.trans inside) solid fun x => (same x).trans (skipped x)
  | goesOn n skipped => exact .goesOn n fun x => (same x).trans (skipped x)
  | comment start n skipped => exact .comment start n fun x => (same x).trans (skipped x)

theorem WholeLines.skips {s : List Char} (whole : WholeLines s) (mode : Trivia) (line : Nat)
    (fresh : s = [] → mode = .blanks ∨ ∃ start, mode = .blockComment start false) : Skips s mode line := by
  fun_induction skipTrivia s mode line with
  | case1 mode line =>
    rcases fresh rfl with rfl | ⟨start, rfl⟩
    · exact .goesOn line fun x => rfl
    · exact .comment start line fun x => rfl
  | case2 line rest ih =>
    exact (ih whole.tail fun _ => .inl rfl).extend (List.suffix_cons _ _) fun x => skipTrivia_feed (rest ++ x) line
  | case3 line c rest other blank ih =>
    exact (ih whole.tail fun _ => .inl rfl).extend (List.suffix_cons _ _) fun x => skipTrivia_blank (rest ++ x) line blank other
  | case4 line rest =>
    rename_i other blank ih
    have more := whole.tail_ne_nil other
    exact (ih whole.tail fun empty => absurd empty more).extend (List.suffix_cons _ _) fun x => skipTrivia_hash (rest ++ x) line
  | case5 => exact absurd rfl (whole.tail_ne_nil (by decide))
  | case6 line rest =>
    rename_i ih
    have more := whole.tail.tail_ne_nil (by decide)
    refine (ih whole.tail.tail fun empty => absurd empty more).extend ?_ ?_
    · exact (List.suffix_cons _ _).trans (List.suffix_cons _ _)
    · intro x
      exact skipTrivia_slash (rest ++ x) line '/'
  | case7 line rest =>
    rename_i ih
    refine (ih whole.tail.tail fun _ => .inr ⟨line, rfl⟩).extend ?_ ?_
    · exact (List.suffix_cons _ _).trans (List.suffix_cons _ _)
    · intro x
      exact skipTrivia_slash (rest ++ x) line '*'
  | case8 line d rest noSlash noStar =>
    refine .stops line '/' (d :: rest) (List.suffix_refl _) (by decide) ?_
    intro x
    rw [List.cons_append, List.cons_append, skipTrivia_slash, if_neg noSlash, if_neg noStar]
  | case9 line c rest =>
    rename_i noFeed solid noHash noSlash
    rw [Bool.not_eq_true] at solid
    refine .stops line c rest (List.suffix_refl _) solid ?_
    intro x
    exact skipTrivia_other (rest ++ x) line solid noHash noSlash
  | case10 line rest ih =>
    exact (ih whole.tail fun _ => .inl rfl).extend (List.suffix_cons _ _) fun x => skipTrivia_lineComment_feed (rest ++ x) line
  | case11 line c rest other ih =>
    have more := whole.tail_ne_nil other
    exact (ih whole.tail fun empty => absurd empty more).extend (List.suffix_cons _ _)
      fun x => skipTrivia_lineComment_cons (rest ++ x) line other
  | case12 line c rest start starred closes ih =>
    refine (ih whole.tail fun _ => .inl rfl).extend (List.suffix_cons _ _) ?_
    intro x
    rw [List.cons_append, skipTrivia_blockComment_cons, if_pos closes]
  | case13 line c rest start starred open_ ih =>
    have last : rest = [] → c = '\n' := by
      rintro rfl
      exact whole c rfl
    refine (ih whole.tail ?_).extend (List.suffix_cons _ _) ?_
    · intro empty
      rw [last empty]
      exact .inr ⟨start, rfl⟩
    · intro x
      rw [List.cons_append, skipTrivia_blockComment_cons, if_neg open_]
      rfl

private theorem readText_append {quote : Char} {s done : List Char} {line : Nat} {value : String} {after : Cursor}
    (read : readText quote s done line = (some value, after)) (x : List Char) :
    readText quote (s ++ x) done line = (some value, ⟨after.line, after.rest ++ x⟩) ∧ after.rest <:+ s := by
  fun_induction readText quote s done line with
  | case1 => cases read
  | case2 done line rest =>
    cases read
    rw [List.cons_append, readText.eq_def]
    simp
  | case3 => cases read
  | case4 done line d rest noQuote ih =>
    rw [List.cons_append, List.cons_append, readText.eq_def]
    simp only [noQuote, if_false, if_true]
    obtain ⟨same, inside⟩ := ih read
    exact ⟨same, inside.trans ((List.suffix_cons _ _).trans (List.suffix_cons _ _))⟩
  | case5 done line c rest noQuote noSlash ih =>
    rw [List.cons_append, readText.eq_def]
    simp only [noQuote, noSlash, if_false]
    obtain ⟨same, inside⟩ := ih read
    exact ⟨same, inside.trans (List.suffix_cons _ _)⟩

theorem WholeLines.readNumber_append {c : Char} {rest : List Char} (whole : WholeLines (c :: rest)) (x : List Char) :
    readNumber (c :: (rest ++ x)) = ((readNumber (c :: rest)).1, (readNumber (c :: rest)).2 ++ x) ∧
      (readNumber (c :: rest)).2 <:+ c :: rest := by
  have noDigit : Char.isDigit '\n' = false := rfl
  obtain ⟨taken, dropped, stops⟩ := whole.span_append (List.cons_ne_nil c rest) noDigit x
  have inside : (c :: rest).dropWhile Char.isDigit <:+ c :: rest := List.dropWhile_suffix _
  have left : WholeLines ((c :: rest).dropWhile Char.isDigit) := whole.suffix inside
  rw [List.cons_append] at taken dropped
  unfold readNumber
  simp only [taken, dropped]
  generalize (c :: rest).dropWhile Char.isDigit = tail at stops left inside
  rcases tail with _ | ⟨a, more⟩
  · exact absurd rfl stops
  by_cases dot : a = '.'
  · subst dot
    rcases more with _ | ⟨d, more⟩
    · exact absurd (left '.' rfl) (by decide)
    · obtain ⟨taken, dropped, -⟩ := left.tail.span_append (List.cons_ne_nil d more) noDigit x
      rw [List.cons_append] at taken dropped
      simp only [List.cons_append, taken, dropped]
      split
      · exact ⟨rfl, (List.dropWhile_suffix _).trans ((List.suffix_cons _ _).trans inside)⟩
      · exact ⟨rfl, inside⟩
  · constructor
    · split
      · simp_all
      · split
        · simp_all
        · rfl
    · split
      · simp_all
      · exact inside

theorem Symbol.read?_append (c d : Char) (rest x : List Char) :
    Symbol.read? (c :: d :: (rest ++ x)) = (Symbol.read? (c :: d :: rest)).map fun read => (read.1, read.2 ++ x) := by
  generalize same : c :: d :: rest = s
  fun_cases Symbol.read? s
  case case27 =>
    subst same
    rw [Symbol.read?]
    · rfl
    all_goals
      intro more same
      injection same with first tail
      subst first
      first
      | solve_by_elim [rfl]
      | injection tail with second last
        subst second
        solve_by_elim [rfl]
  all_goals
    injection same with first tail
    subst first
  case case1 | case2 | case3 | case4 | case5 | case6 | case7 | case8 =>
    injection tail with second last
    subst second last
    rfl
  case case9 | case10 | case11 | case12 | case13 | case14 =>
    subst tail
    rw [Symbol.read?]
    · rfl
    · intro more same
      injection same with second last
      subst second
      solve_by_elim [rfl]
  all_goals
    subst tail
    rfl
/-- A token that begins in a text of whole lines is read as if nothing followed, unless it is a text that does not end there. -/
theorem WholeLines.readToken_append {c : Char} {rest : List Char} (whole : WholeLines (c :: rest))
    (solid : Text.isBlank c = false) (line : Nat) :
    (∃ after, readToken line (c :: rest) = (.fault ⟨line, .unterminatedText⟩, after)) ∨
    ∃ (reading : Reading) (after : Cursor), (∀ n, reading ≠ .finish n) ∧ after.rest <:+ c :: rest ∧
      after.rest.length ≤ rest.length ∧
      ∀ x, readToken line (c :: (rest ++ x)) = (reading, ⟨after.line, after.rest ++ x⟩) := by
  have begun : rest ≠ [] := whole.tail_ne_nil (by rintro rfl; exact absurd solid (by decide))
  by_cases digit : c.isDigit = true
  · right
    refine ⟨.token ⟨.number (readNumber (c :: rest)).1, line⟩, ⟨line, (readNumber (c :: rest)).2⟩, by simp,
      (whole.readNumber_append []).2, readNumber_shorter rest digit, ?_⟩
    intro x
    rw [readToken, if_pos digit, (whole.readNumber_append x).1]
  by_cases word : (c.isAlpha || c == '_') = true
  · right
    refine ⟨.token ⟨wordToken (c :: rest.takeWhile Text.isWordChar), line⟩, ⟨line, rest.dropWhile Text.isWordChar⟩, by simp,
      (List.dropWhile_suffix _).trans (List.suffix_cons _ _), (List.dropWhile_suffix _).length_le, ?_⟩
    intro x
    obtain ⟨taken, dropped, -⟩ := whole.tail.span_append begun (by decide : Text.isWordChar '\n' = false) x
    rw [readToken, if_neg digit, if_pos word, taken, dropped]
  by_cases quote : c = '"' ∨ c = '\''
  · rcases read : readText c rest [] line with ⟨_ | value, after⟩
    · left
      refine ⟨after, ?_⟩
      rw [readToken, if_neg digit, if_neg word, if_pos quote, read]
    · right
      have inside := (readText_append read []).2
      refine ⟨.token ⟨.text value, line⟩, after, by simp, inside.trans (List.suffix_cons _ _), inside.length_le, ?_⟩
      intro x
      rw [readToken, if_neg digit, if_neg word, if_pos quote, (readText_append read x).1]
  · right
    obtain ⟨d, rest, rfl⟩ := List.exists_cons_of_ne_nil begun
    have extended := Symbol.read?_append c d rest
    rcases read : Symbol.read? (c :: d :: rest) with _ | ⟨symbol, after⟩
    · refine ⟨.fault ⟨line, .unexpected c⟩, ⟨line, d :: rest⟩, by simp, List.suffix_cons _ _, le_rfl, ?_⟩
      intro x
      rw [List.cons_append, readToken, if_neg digit, if_neg word, if_neg quote, extended, read]
      rfl
    · refine ⟨.token ⟨.symbol symbol, line⟩, ⟨line, after⟩, by simp, ⟨_, (Symbol.read?_split read).symm⟩, ?_, ?_⟩
      · have shorter := Symbol.read?_shorter read
        simp only [List.length_cons] at shorter ⊢
        omega
      · intro x
        rw [List.cons_append, readToken, if_neg digit, if_neg word, if_neg quote, extended, read]
        rfl

/-- What the next reading comes to in a text of whole lines: it ends in the text, nothing of the text is left to read, or a block
comment or a text is open at its end. -/
inductive Next (s : List Char) (line : Nat) : Prop
  | reads (reading : Reading) (after : Cursor) (goesOn : ∀ n, reading ≠ .finish n) (inside : after.rest <:+ s)
      (shorter : after.rest.length < s.length)
      (next : ∀ x, Cursor.next ⟨line, s ++ x⟩ = (reading, ⟨after.line, after.rest ++ x⟩))
  | goesOn (n : Nat) (skipped : ∀ x, skipTrivia (s ++ x) .blanks line = skipTrivia x .blanks n)
  | comment (start n : Nat) (skipped : ∀ x, skipTrivia (s ++ x) .blanks line = skipTrivia x (.blockComment start false) n)
  | text (n : Nat) (after : Cursor) (next : Cursor.next ⟨line, s⟩ = (.fault ⟨n, .unterminatedText⟩, after))

theorem WholeLines.next {s : List Char} (whole : WholeLines s) (line : Nat) : Next s line := by
  cases whole.skips .blanks line fun _ => .inl rfl with
  | goesOn n skipped => exact .goesOn n skipped
  | comment start n skipped => exact .comment start n skipped
  | stops n c rest inside solid skipped =>
    have left := inside.length_le
    rw [List.length_cons] at left
    rcases (whole.suffix inside).readToken_append solid n with ⟨after, read⟩ | ⟨reading, after, goesOn, within, shorter, read⟩
    · refine .text n after ?_
      have here := skipped []
      rw [List.append_nil, List.append_nil] at here
      rw [Cursor.next, here]
      exact read
    · refine .reads reading after goesOn (within.trans inside) (by omega) ?_
      intro x
      rw [Cursor.next, skipped]
      exact read x

/-- What follows a text of whole lines makes no difference to the readings, as long as it is skipped in the same way where a
blank may stand and, if a block comment is open at the end of the text, inside a comment; unless a text is open there. -/
theorem WholeLines.readings_congr {s x y : List Char} (whole : WholeLines s) (line : Nat)
    (closed : ¬ Cursor.Has ⟨line, s⟩ .unterminatedText)
    (blanks : ∀ n, skipTrivia x .blanks n = skipTrivia y .blanks n)
    (comment : Cursor.Has ⟨line, s⟩ .unterminatedComment →
      ∀ start n, skipTrivia x (.blockComment start false) n = skipTrivia y (.blockComment start false) n) :
    Cursor.readings ⟨line, s ++ x⟩ = Cursor.readings ⟨line, s ++ y⟩ := by
  induction size : s.length using Nat.strong_induction_on generalizing s line with
  | _ size ih =>
    subst size
    cases whole.next line with
    | goesOn n skipped =>
      apply Cursor.readings_congr
      rw [Cursor.next, Cursor.next, skipped, skipped, blanks]
    | comment start n skipped =>
      have here := skipped []
      rw [List.append_nil, skipTrivia_nil] at here
      have next : Cursor.next ⟨line, s⟩ = (.fault ⟨start, .unterminatedComment⟩, ⟨n, []⟩) := by
        rw [Cursor.next, here]
        rfl
      have unfinished : Cursor.Has ⟨line, s⟩ .unterminatedComment := ⟨_, Cursor.mem_readings next (by simp), rfl⟩
      apply Cursor.readings_congr
      rw [Cursor.next, Cursor.next, skipped, skipped, comment unfinished]
    | text n after next => exact absurd ⟨_, Cursor.mem_readings next (by simp), rfl⟩ closed
    | reads reading after goesOn inside shorter next =>
      have here := next []
      rw [List.append_nil, List.append_nil] at here
      have later {cause : LexCause} (has : after.Has cause) : Cursor.Has ⟨line, s⟩ cause := by
        obtain ⟨fault, found, same⟩ := has
        refine ⟨fault, ?_, same⟩
        rw [Cursor.readings_cons here goesOn]
        exact List.mem_cons_of_mem _ found
      have same := ih _ shorter (whole.suffix inside) after.line (fun has => closed (later has))
        (fun has => comment (later has)) rfl
      rw [Cursor.readings_cons (next x) goesOn, Cursor.readings_cons (next y) goesOn, same]

end Scriptorium.Script
