import Mathlib
import Scriptorium.Proofs.Tolerance

/-!
# Parts of bracket expressions

The path of a bracket expression is read off the tokens that may stand in it, up to the first that may not, and its parts are
what stands between two colons (`bracketParts_leftAt`).
-/
namespace Scriptorium.Script.Parser

/-- The parts that tokens are put together to, after a part that is being read and those before it, last first; and the tokens
that are left. -/
def scanParts : String × List String → List Token → (String × List String) × List Token
  | done, [] => (done, [])
  | (part, parts), token :: rest =>
    if token = .symbol .colon then scanParts ("", part :: parts) rest
    else
      match partText? token with
      | some text => scanParts (part ++ text, parts) rest
      | none => ((part, parts), token :: rest)

/-- One pass of reading parts. -/
def partsPass (done : String × List String) : Parser ((String × List String) × Bool) := do
  match ← peek with
  | none => return (done, false)
  | some token =>
    if token = .symbol .colon then
      advance
      return (("", done.1 :: done.2), true)
    match partText? token with
    | some text =>
      advance
      return ((done.1 ++ text, done.2), true)
    | none => return (done, false)

theorem bracketParts_eq :
    bracketParts = do let done ← iterate partsPass ("", []); return (done.1 :: done.2).reverse := rfl

/-- Whether a token may stand in the path of a bracket expression. -/
def ofPath (token : Token) : Bool := token == .symbol .colon || (partText? token).isSome

/-- The parts of a path: what stands between two colons, put together. -/
def pathParts (tokens : List Token) : List String :=
  (tokens.splitOn (.symbol .colon)).map fun part => String.join (part.filterMap partText?)

private theorem pathParts_colon (tokens : List Token) : pathParts (.symbol .colon :: tokens) = "" :: pathParts tokens := by
  rw [pathParts, List.splitOn, List.splitOnP_cons_eq_if_modifyHead, if_pos (by decide)]
  rfl

private theorem pathParts_text {token : Token} {text : String} (known : partText? token = some text) (tokens : List Token) :
    pathParts (token :: tokens) = (pathParts tokens).modifyHead (text ++ ·) := by
  have other : ¬ (token == Token.symbol .colon) = true := by
    rw [beq_iff_eq]
    rintro rfl
    cases known
  rw [pathParts, List.splitOn, List.splitOnP_cons_eq_if_modifyHead, if_neg other, pathParts, List.splitOn]
  obtain ⟨part, parts, split⟩ := List.exists_cons_of_ne_nil (List.splitOnP_ne_nil (· == Token.symbol .colon) tokens)
  rw [split]
  simp [known]

private theorem modifyHead_empty (parts : List String) : parts.modifyHead (("" : String) ++ ·) = parts := by
  have untouched : (("" : String) ++ ·) = id := funext fun text => String.empty_append
  rw [untouched, List.modifyHead_id, id]

/-- The parts that tokens are put together to are those of the path that they begin with, and the tokens after it are left. -/
theorem scanParts_path (tokens : List Token) (part : String) (parts : List String) :
    let scanned := scanParts (part, parts) tokens
    (scanned.1.1 :: scanned.1.2).reverse = parts.reverse ++ (pathParts (tokens.takeWhile ofPath)).modifyHead (part ++ ·) ∧
      scanned.2 = tokens.dropWhile ofPath := by
  induction tokens generalizing part parts with
  | nil => simp [scanParts, pathParts]
  | cons token tokens ih =>
    rw [scanParts]
    by_cases colon : token = .symbol .colon
    · subst colon
      obtain ⟨put, left⟩ := ih "" (part :: parts)
      have taken : ofPath (.symbol .colon) = true := by decide
      rw [if_pos rfl, List.takeWhile_cons_of_pos taken, List.dropWhile_cons_of_pos taken, pathParts_colon]
      rw [modifyHead_empty] at put
      refine ⟨put.trans ?_, left⟩
      simp
    · rw [if_neg colon]
      cases known : partText? token with
      | some text =>
        obtain ⟨put, left⟩ := ih (part ++ text) parts
        have taken : ofPath token = true := by simp [ofPath, known]
        rw [List.takeWhile_cons_of_pos taken, List.dropWhile_cons_of_pos taken, pathParts_text known]
        refine ⟨put.trans ?_, left⟩
        simp [List.modifyHead_modifyHead, Function.comp_def, String.append_assoc]
      | none =>
        have other : ¬ ofPath token = true := by simp [ofPath, known, colon]
        rw [List.takeWhile_cons_of_neg other, List.dropWhile_cons_of_neg other]
        simp [pathParts]

/-- The state at tokens that are left, after warnings. -/
def leftAt (lexemes : List Lexeme) (stop : StreamEnd) (warnings : List BracketWarning) : State :=
  ⟨⟨lexemes, stop⟩, lexemes.length, warnings, rfl⟩

theorem leftAt_eq {s : State} {lexemes : List Lexeme} (left : s.tokens.lexemes = lexemes) :
    s = leftAt lexemes s.tokens.stop s.warnings := by
  subst left
  obtain ⟨tokens, remaining, warnings, rfl⟩ := s
  rfl

section
variable {lexeme : Lexeme} {lexemes : List Lexeme} {stop : StreamEnd} {warnings : List BracketWarning}

/-- A token is taken, unless there is none to be read after it. -/
theorem advance_leftAt (settles : lexemes = [] → ∃ line, stop = .finish line) :
    advance (leftAt (lexeme :: lexemes) stop warnings) = .ok () (leftAt lexemes stop warnings) := by
  cases lexemes with
  | nil =>
    obtain ⟨line, rfl⟩ := settles rfl
    rfl
  | cons => rfl

theorem peek_leftAt : peek (leftAt (lexeme :: lexemes) stop warnings) =
    .ok (some lexeme.token) (leftAt (lexeme :: lexemes) stop warnings) := rfl

private theorem isAt_leftAt (token : Token) : isAt token (leftAt (lexeme :: lexemes) stop warnings) =
    .ok (some lexeme.token == some token) (leftAt (lexeme :: lexemes) stop warnings) := bind_ok peek_leftAt

theorem accept_leftAt {symbol : Symbol} (here : lexeme.token = .symbol symbol)
    (settles : lexemes = [] → ∃ line, stop = .finish line) :
    accept symbol (leftAt (lexeme :: lexemes) stop warnings) = .ok true (leftAt lexemes stop warnings) := by
  rw [accept, bind_ok (isAt_leftAt (.symbol symbol)), here, beq_self_eq_true, if_pos rfl]
  exact bind_ok (advance_leftAt settles)

theorem reject_leftAt {symbol : Symbol} (other : lexeme.token ≠ .symbol symbol) :
    accept symbol (leftAt (lexeme :: lexemes) stop warnings) = .ok false (leftAt (lexeme :: lexemes) stop warnings) := by
  rw [accept, bind_ok (isAt_leftAt (.symbol symbol)), if_neg (by simpa using other)]
  rfl

section
variable {done : String × List String}

private theorem partsPass_colon (colon : lexeme.token = .symbol .colon)
    (taken : advance (leftAt (lexeme :: lexemes) stop warnings) = .ok () (leftAt lexemes stop warnings)) :
    partsPass done (leftAt (lexeme :: lexemes) stop warnings) =
      .ok (("", done.1 :: done.2), true) (leftAt lexemes stop warnings) := by
  rw [partsPass, bind_ok peek_leftAt]
  simp only [colon, if_true]
  exact bind_ok taken

private theorem partsPass_text (noColon : lexeme.token ≠ .symbol .colon) {text : String} (known : partText? lexeme.token = some text)
    (taken : advance (leftAt (lexeme :: lexemes) stop warnings) = .ok () (leftAt lexemes stop warnings)) :
    partsPass done (leftAt (lexeme :: lexemes) stop warnings) =
      .ok ((done.1 ++ text, done.2), true) (leftAt lexemes stop warnings) := by
  rw [partsPass, bind_ok peek_leftAt]
  simp only [if_neg noColon, known]
  exact bind_ok taken

private theorem partsPass_last (noColon : lexeme.token ≠ .symbol .colon) (noText : partText? lexeme.token = none) :
    partsPass done (leftAt (lexeme :: lexemes) stop warnings) = .ok (done, false) (leftAt (lexeme :: lexemes) stop warnings) := by
  rw [partsPass, bind_ok peek_leftAt]
  simp only [if_neg noColon, noText]
  rfl

end

/-- The parts are read up to the first token that is not of a path, or up to the end of the source. -/
theorem iterate_partsPass (settles : lexemes.dropWhile (ofPath ·.token) = [] → ∃ line, stop = .finish line)
    (done : String × List String) :
    iterate partsPass done (leftAt lexemes stop warnings) = .ok (scanParts done (lexemes.map Lexeme.token)).1
      (leftAt (lexemes.dropWhile (ofPath ·.token)) stop warnings) := by
  induction lexemes generalizing done with
  | nil =>
    have pass : partsPass done (leftAt [] stop warnings) = .ok (done, false) (leftAt [] stop warnings) := rfl
    exact iterate_last pass
  | cons lexeme lexemes ih =>
    obtain ⟨part, parts⟩ := done
    rw [List.map_cons, scanParts]
    by_cases path : ofPath lexeme.token = true
    · have dropped : (lexeme :: lexemes).dropWhile (ofPath ·.token) = lexemes.dropWhile (ofPath ·.token) :=
        List.dropWhile_cons_of_pos path
      rw [dropped] at settles ⊢
      have taken : advance (leftAt (lexeme :: lexemes) stop warnings) = .ok () (leftAt lexemes stop warnings) := by
        refine advance_leftAt ?_
        rintro rfl
        exact settles rfl
      have shorter : (leftAt lexemes stop warnings).remaining < (leftAt (lexeme :: lexemes) stop warnings).remaining := by
        simp [leftAt]
      by_cases colon : lexeme.token = .symbol .colon
      · rw [if_pos colon, iterate_step (partsPass_colon colon taken) shorter, ih settles]
      · have begun : (partText? lexeme.token).isSome = true := by simpa [ofPath, colon] using path
        obtain ⟨text, known⟩ := Option.isSome_iff_exists.mp begun
        rw [if_neg colon, iterate_step (partsPass_text colon known taken) shorter, ih settles, known]
    · have kept : (lexeme :: lexemes).dropWhile (ofPath ·.token) = lexeme :: lexemes := List.dropWhile_cons_of_neg path
      obtain ⟨noColon, noText⟩ : lexeme.token ≠ .symbol .colon ∧ partText? lexeme.token = none := by
        simpa [ofPath] using path
      rw [if_neg noColon, iterate_last (partsPass_last noColon noText), noText, kept]

theorem bracketParts_leftAt (settles : lexemes.dropWhile (ofPath ·.token) = [] → ∃ line, stop = .finish line) :
    bracketParts (leftAt lexemes stop warnings) = .ok (pathParts ((lexemes.map Lexeme.token).takeWhile ofPath))
      (leftAt (lexemes.dropWhile (ofPath ·.token)) stop warnings) := by
  have put := (scanParts_path (lexemes.map Lexeme.token) "" []).1
  rw [modifyHead_empty] at put
  rw [bracketParts_eq, bind_ok (iterate_partsPass settles ("", []))]
  simp only [put]
  rfl

end

end Scriptorium.Script.Parser
