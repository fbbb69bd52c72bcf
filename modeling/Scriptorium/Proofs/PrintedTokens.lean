import Mathlib
import Scriptorium.Proofs.Spellings

/-!
# Reading printed tokens

A printed token is one way to write it (`Token.Spelled.spells`), without a line feed, so it is read back if nothing or a space
follows it (`next_chars`); and the tokens of a printed unit are the tokens that it was printed from, all on the first line
(`ofSource_print`).
-/
namespace Scriptorium.Script

variable {literal : Literal} {literals : Nat → Literal}

/-- The text after a printed token: nothing, or a space and more. -/
def Apart (rest : List Char) : Prop := rest = [] ∨ ∃ tail, rest = ' ' :: tail

theorem Apart.parted {rest : List Char} (apart : Apart rest) : Parted rest := by
  rcases apart with rfl | ⟨tail, rfl⟩
  · nofun
  · rintro c ⟨⟩
    decide

/-- The escapes of a character stand for it. -/
theorem quoted_escape (c : Char) {written value : List Char} (more : Quoted '"' written value) :
    Quoted '"' (escape c ++ written) (c :: value) := by
  unfold escape
  split
  case h_6 quote slash feed tab back => exact .plain quote slash more
  all_goals exact .escaped _ more

private theorem quoted_flatMap (chars : List Char) : Quoted '"' (chars.flatMap escape) chars := by
  induction chars with
  | nil => exact .nil
  | cons c chars ih => exact quoted_escape c ih

private theorem escape_noFeed (c : Char) : '\n' ∉ escape c := by
  unfold escape
  split
  case h_6 quote slash feed tab back => simpa using Ne.symm feed
  all_goals decide

theorem Token.Spelled.spells {token : Token} (spelled : token.Spelled literal) : Spells token (token.chars literal) := by
  cases token with
  | number value =>
    have same : literal.value = value := spelled
    have spells := Spells.number literal
    rwa [same] at spells
  | text value =>
    have spells := Spells.text (.inl rfl) (quoted_flatMap value.toList)
    rwa [String.ofList_toList] at spells
  | name word => exact .name spelled
  | keyword word => exact .keyword word
  | symbol sign => exact .symbol sign

/-- Nothing that is printed of a token is a line feed. -/
theorem Token.Spelled.noFeed {token : Token} (spelled : token.Spelled literal) : '\n' ∉ token.chars literal := by
  cases token with
  | text value =>
    have inside : '\n' ∉ value.toList.flatMap escape := by
      simpa using fun c _ => escape_noFeed c
    simp [Token.chars, inside]
  | number | name | keyword | symbol => exact spelled.spells.noFeed (by simp)

theorem next_chars {token : Token} (spelled : token.Spelled literal) {rest : List Char} (apart : Apart rest) (line : Nat) :
    Cursor.next ⟨line, token.chars literal ++ rest⟩ = (.token ⟨token, line⟩, ⟨line, rest⟩) := by
  obtain ⟨n, lines, read⟩ := spelled.spells.readToken apart.parted line
  rw [escapedFeeds_of_noFeed spelled.noFeed, Nat.add_right_cancel_iff] at lines
  subst lines
  rw [Cursor.next, spelled.spells.skip apart.parted]
  exact read

private theorem next_space (rest : List Char) (line : Nat) : Cursor.next ⟨line, ' ' :: rest⟩ = Cursor.next ⟨line, rest⟩ := by
  rw [Cursor.next, Cursor.next, skipTrivia_blank rest line (by decide) (by decide)]

/-- Tokens with a space in front of each. -/
def spaced (literals : Nat → Literal) (tokens : List Token) : List Char :=
  (tokens.mapIdx fun i token => ' ' :: token.chars (literals i)).flatten

private theorem spaced_cons (token : Token) (tokens : List Token) :
    spaced literals (token :: tokens) = ' ' :: (token.chars (literals 0) ++ spaced (fun i => literals (i + 1)) tokens) := by
  rw [spaced, List.mapIdx_cons, List.flatten_cons, List.cons_append, spaced]

private theorem spaced_apart (tokens : List Token) : Apart (spaced literals tokens) := by
  cases tokens with
  | nil => exact .inl rfl
  | cons token tokens => exact .inr ⟨_, spaced_cons token tokens⟩

private theorem intercalate_chars (token : Token) (tokens : List Token) :
    [' '].intercalate ((token :: tokens).mapIdx fun i => Token.chars (literals i)) =
      token.chars (literals 0) ++ spaced (fun i => literals (i + 1)) tokens := by
  induction tokens generalizing token literals with
  | nil => simp [spaced]
  | cons next tokens ih =>
    -- behind the first token the places, and with them the literals, begin one further on
    have later := @ih (fun i => literals (i + 1)) next
    rw [List.mapIdx_cons] at later
    rw [List.mapIdx_cons, List.mapIdx_cons, List.intercalate_cons_cons, later, spaced_cons]
    simp

private theorem ofCursor_spaced {tokens : List Token}
    (spelled : ∀ (i : Nat) (token : Token), tokens[i]? = some token → token.Spelled (literals i)) (line : Nat) :
    TokenStream.ofCursor ⟨line, spaced literals tokens⟩ = ⟨tokens.map (⟨·, line⟩), .finish line⟩ := by
  induction tokens generalizing literals with
  | nil => exact TokenStream.ofCursor_finish (Skippable.nil.finish line)
  | cons token tokens ih =>
    have next : Cursor.next ⟨line, spaced literals (token :: tokens)⟩ =
        (.token ⟨token, line⟩, ⟨line, spaced (fun i => literals (i + 1)) tokens⟩) := by
      rw [spaced_cons, next_space]
      exact next_chars (spelled 0 token rfl) (spaced_apart tokens) line
    rw [TokenStream.ofCursor_token next, ih fun i => spelled (i + 1), List.map_cons]

/-- The tokens of a printed unit. -/
theorem ofSource_print {unit : ParsedUnit}
    (spelled : ∀ (i : Nat) (token : Token), unit.tokens[i]? = some token → token.Spelled (literals i)) :
    TokenStream.ofSource (unit.print literals) = ⟨unit.tokens.map (⟨·, 1⟩), .finish 1⟩ := by
  rw [TokenStream.ofSource, Cursor.start, ParsedUnit.print, String.toList_ofList]
  generalize unit.tokens = tokens at spelled
  cases tokens with
  | nil => exact ofCursor_spaced spelled 1
  | cons token tokens =>
    have apart : Apart (spaced (fun i => literals (i + 1)) tokens) := spaced_apart tokens
    have next := next_chars (spelled 0 token rfl) apart 1
    rw [intercalate_chars, TokenStream.ofCursor_token next, ofCursor_spaced fun i => spelled (i + 1), List.map_cons]

end Scriptorium.Script
