import Mathlib
import Scriptorium.Proofs.BracketParts

/-!
# Bracket expressions that are let pass

A unit that tolerates bracket faults always gets through a bracket expression: to its value, or to null with a warning. What it
goes on with is the token after the bracket that closes the expression if and only if there are only tokens of a path in it
(`primary_closed_bracket`). Otherwise it goes on in the middle of the expression, where it may fail after all
(`keyword_in_bracket_fails_unit`).
-/
namespace Scriptorium.Script.Parser

/-- What a closed path is read as where bracket faults are let pass: its value, or null for a fault. -/
inductive ReadAs (env : Environment) (parts : List String) : Expr → Option BracketFault → Prop
  | value {value : Value} (filled : "" ∉ parts) (known : BracketHandler.resolve env.brackets parts = some value) :
    ReadAs env parts (.bracket (":".intercalate parts) value) none
  | malformed (empty : "" ∈ parts) : ReadAs env parts .null (some (.malformed (":".intercalate parts)))
  | unresolved (filled : "" ∉ parts) (unknown : BracketHandler.resolve env.brackets parts = none) :
    ReadAs env parts .null (some (.unresolved (":".intercalate parts)))

section
variable {ctx : Context} {less close : Lexeme} {lexemes inner rest : List Lexeme} {stop : StreamEnd} {warnings : List BracketWarning}

/-- The warnings of a fault on a line in front of tokens. -/
def warningsOf (line : Nat) (left : List Lexeme) (fault : Option BracketFault) : List BracketWarning :=
  fault.toList.map (⟨line, ·, left.length⟩)

private theorem bracketFault_leftAt (tolerant : ctx.tolerant = true) (line : Nat) (fault : BracketFault) :
    bracketFault ctx line fault (leftAt lexemes stop warnings) =
      .ok .null (leftAt lexemes stop (⟨line, fault, lexemes.length⟩ :: warnings)) := by
  rw [bracketFault, if_pos tolerant]
  rfl

/-- The end of a bracket expression, after its parts. -/
def closing (ctx : Context) (line : Nat) (parts : List String) : Parser Expr := do
  let path := ":".intercalate parts
  if !(← accept .greater) then bracketFault ctx line (.unclosed path)
  else if parts.any String.isEmpty then bracketFault ctx line (.malformed path)
  else
    match BracketHandler.resolve ctx.env.brackets parts with
    | some value => return .bracket path value
    | none => bracketFault ctx line (.unresolved path)

private theorem bracket_eq : bracket ctx = (do let line ← line; advance; let parts ← bracketParts; closing ctx line parts) := rfl

/-- The path of a bracket expression is read up to the first token that is not of it. -/
theorem primary_bracket (opens : less.token = .symbol .less) (path : ∀ lexeme ∈ inner, ofPath lexeme.token = true)
    (ends : ofPath close.token = false) (budget : Nat) :
    primary ctx budget (leftAt (less :: (inner ++ close :: rest)) stop warnings) =
      closing ctx less.line (pathParts (inner.map Lexeme.token)) (leftAt (close :: rest) stop warnings) := by
  let opened := leftAt (less :: (inner ++ close :: rest)) stop warnings
  have here : line opened = .ok less.line opened := rfl
  have left : (inner ++ close :: rest).dropWhile (ofPath ·.token) = close :: rest := by
    rw [List.dropWhile_append_of_pos path, List.dropWhile_cons_of_neg (by simpa using ends)]
  have taken : ((inner ++ close :: rest).map Lexeme.token).takeWhile ofPath = inner.map Lexeme.token := by
    rw [List.map_append, List.map_cons, List.takeWhile_append_of_pos (List.forall_mem_map.mpr path),
      List.takeWhile_cons_of_neg (by simpa using ends), List.append_nil]
  have parts : bracketParts (leftAt (inner ++ close :: rest) stop warnings) =
      .ok (pathParts (inner.map Lexeme.token)) (leftAt (close :: rest) stop warnings) := by
    rw [bracketParts_leftAt (by simp [left]), left, taken]
  rw [primary, bind_ok here, bind_ok peek_leftAt]
  simp only [opens]
  rw [bracket_eq, bind_ok here, bind_ok (advance_leftAt (by simp)), bind_ok parts]

/-- A path that is closed is taken with what closes it. -/
theorem closing_closed (tolerant : ctx.tolerant = true) (closes : close.token = .symbol .greater)
    (settles : rest = [] → ∃ line, stop = .finish line) (line : Nat) (parts : List String) : ∃ e fault,
      ReadAs ctx.env parts e fault ∧ closing ctx line parts (leftAt (close :: rest) stop warnings) =
        .ok e (leftAt rest stop (warningsOf line rest fault ++ warnings)) := by
  unfold closing
  rw [bind_ok (accept_leftAt closes settles)]
  simp only [Bool.not_true, if_neg Bool.false_ne_true]
  by_cases empty : "" ∈ parts
  · refine ⟨_, _, .malformed empty, ?_⟩
    rw [if_pos (by simpa using empty), bracketFault_leftAt tolerant]
    rfl
  · rw [if_neg (by simpa using empty)]
    cases found : BracketHandler.resolve ctx.env.brackets parts with
    | some value => exact ⟨_, _, .value empty found, rfl⟩
    | none => exact ⟨_, _, .unresolved empty found, bracketFault_leftAt tolerant line _⟩

/-- A path that is not closed is left where it ends. -/
theorem closing_unclosed (tolerant : ctx.tolerant = true) (other : close.token ≠ .symbol .greater) (line : Nat)
    (parts : List String) : closing ctx line parts (leftAt (close :: rest) stop warnings) =
      .ok .null (leftAt (close :: rest) stop (⟨line, .unclosed (":".intercalate parts), rest.length + 1⟩ :: warnings)) := by
  unfold closing
  rw [bind_ok (reject_leftAt other)]
  simp only [Bool.not_false, if_true]
  exact bracketFault_leftAt tolerant line _

end

/-- Where bracket faults are let pass, a bracket expression never fails that is closed. With only tokens of a path in it, it is
read as its value or as null with a warning, and the token after it is next; and then only: any other token in it is next itself,
after null with a warning. -/
theorem primary_closed_bracket {ctx : Context} {s : State} {less greater : Lexeme} {inner rest : List Lexeme}
    (tolerant : ctx.tolerant = true) (opens : less.token = .symbol .less) (closes : greater.token = .symbol .greater)
    (closed : ∀ lexeme ∈ inner, lexeme.token ≠ .symbol .greater) (here : s.tokens.lexemes = less :: (inner ++ greater :: rest))
    (settles : rest = [] → ∃ line, s.tokens.stop = .finish line) (budget : Nat) :
    ((∀ lexeme ∈ inner, ofPath lexeme.token = true) → ∃ e fault, ReadAs ctx.env (pathParts (inner.map Lexeme.token)) e fault ∧
      primary ctx budget s = .ok e (leftAt rest s.tokens.stop (warningsOf less.line rest fault ++ s.warnings))) ∧
    (∀ before other after, inner = before ++ other :: after → (∀ lexeme ∈ before, ofPath lexeme.token = true) →
      ofPath other.token = false → primary ctx budget s = .ok .null (leftAt (other :: (after ++ greater :: rest)) s.tokens.stop
        (warningsOf less.line (other :: (after ++ greater :: rest))
          (some (.unclosed (":".intercalate (pathParts (before.map Lexeme.token))))) ++ s.warnings))) ∧
    ((∃ e warnings, primary ctx budget s = .ok e (leftAt rest s.tokens.stop warnings)) ↔
      ∀ lexeme ∈ inner, ofPath lexeme.token = true) := by
  have same := leftAt_eq here
  clear here
  generalize s.tokens.stop = stop, s.warnings = warnings at *
  subst same
  have whole (path : ∀ lexeme ∈ inner, ofPath lexeme.token = true) : ∃ e fault,
      ReadAs ctx.env (pathParts (inner.map Lexeme.token)) e fault ∧
        primary ctx budget (leftAt (less :: (inner ++ greater :: rest)) stop warnings) =
          .ok e (leftAt rest stop (warningsOf less.line rest fault ++ warnings)) := by
    obtain ⟨e, fault, readAs, run⟩ := closing_closed tolerant closes settles less.line (pathParts (inner.map Lexeme.token))
    exact ⟨e, fault, readAs, (primary_bracket opens path (by rw [closes]; decide) budget).trans run⟩
  have inPart (before : List Lexeme) (other : Lexeme) (after : List Lexeme) (parts : inner = before ++ other :: after)
      (path : ∀ lexeme ∈ before, ofPath lexeme.token = true) (ends : ofPath other.token = false) :
      primary ctx budget (leftAt (less :: (inner ++ greater :: rest)) stop warnings) =
        .ok .null (leftAt (other :: (after ++ greater :: rest)) stop
          (warningsOf less.line (other :: (after ++ greater :: rest))
            (some (.unclosed (":".intercalate (pathParts (before.map Lexeme.token))))) ++ warnings)) := by
    subst parts
    rw [List.append_assoc, List.cons_append, primary_bracket opens path ends budget]
    exact closing_unclosed tolerant (closed other (by simp)) less.line _
  refine ⟨whole, inPart, ?_, ?_⟩
  · rintro ⟨e, warnings', run⟩
    -- otherwise the first token that is not of the path would be next
    rcases split : inner.dropWhile (ofPath ·.token) with _ | ⟨other, after⟩
    · simpa using split
    · have ends := List.head?_dropWhile_not (ofPath ·.token) inner
      rw [split, List.head?_cons] at ends
      have parts : inner = inner.takeWhile (ofPath ·.token) ++ other :: after := by
        rw [← split, List.takeWhile_append_dropWhile]
      have path : ∀ lexeme ∈ inner.takeWhile (ofPath ·.token), ofPath lexeme.token = true := by
        intro lexeme taken
        exact List.mem_takeWhile_imp (p := fun lexeme : Lexeme => ofPath lexeme.token) taken
      injection (inPart _ other after parts path ends).symm.trans run with _ stopped
      have lexemes := congrArg (fun s : State => s.tokens.lexemes.length) stopped
      simp [leftAt] at lexemes
      omega
  · intro path
    obtain ⟨e, fault, -, run⟩ := whole path
    exact ⟨e, _, run⟩

/-- An empty part is malformed. -/
theorem primary_malformed_bracket :
    primary ⟨"a.zs", .initial "group" [] [BracketHandler.ofNamespace "item"], true⟩ maxNesting
      (leftAt [⟨.symbol .less, 1⟩, ⟨.name "item", 1⟩, ⟨.symbol .colon, 1⟩, ⟨.symbol .colon, 1⟩, ⟨.name "stone", 1⟩,
        ⟨.symbol .greater, 1⟩, ⟨.symbol .semicolon, 1⟩] (.finish 1) []) =
      .ok .null (leftAt [⟨.symbol .semicolon, 1⟩] (.finish 1) [⟨1, .malformed "item::stone", 1⟩]) := by
  let ctx : Context := ⟨"a.zs", .initial "group" [] [BracketHandler.ofNamespace "item"], true⟩
  let inner : List Lexeme := [⟨.name "item", 1⟩, ⟨.symbol .colon, 1⟩, ⟨.symbol .colon, 1⟩, ⟨.name "stone", 1⟩]
  let rest : List Lexeme := [⟨.symbol .semicolon, 1⟩]
  let s : State := leftAt (⟨.symbol .less, 1⟩ :: (inner ++ ⟨.symbol .greater, 1⟩ :: rest)) (.finish 1) []
  have tolerant : ctx.tolerant = true := rfl
  have here : s.tokens.lexemes = ⟨.symbol .less, 1⟩ :: (inner ++ ⟨.symbol .greater, 1⟩ :: rest) := rfl
  have closed : ∀ lexeme ∈ inner, lexeme.token ≠ .symbol .greater := by decide
  have path : ∀ lexeme ∈ inner, ofPath lexeme.token = true := by decide
  have parts : pathParts (inner.map Lexeme.token) = ["item", "", "stone"] := by decide +kernel
  have text : ":".intercalate ["item", "", "stone"] = "item::stone" := by decide +kernel
  obtain ⟨e, fault, readAs, run⟩ := (primary_closed_bracket tolerant rfl rfl closed here (fun _ => ⟨1, rfl⟩) maxNesting).1 path
  rw [parts] at readAs
  cases readAs with
  | value filled | unresolved filled => exact absurd (by decide) filled
  | malformed =>
    rw [text] at run
    exact run

/-- A keyword ends the path, and the unit fails there after all. -/
theorem keyword_in_bracket_fails_unit :
    (Environment.initial "group" [] [BracketHandler.ofNamespace "item"]).parse "<item:if>;" "a.zs" "a" true =
      ⟨.error ⟨1, .expected .expressionEnd⟩, [⟨1, .unclosed "item:", 3⟩],
        .initial "group" [] [BracketHandler.ofNamespace "item"]⟩ := by
  have tokens : TokenStream.ofSource "<item:if>;" =
      ⟨[⟨.symbol .less, 1⟩, ⟨.name "item", 1⟩, ⟨.symbol .colon, 1⟩, ⟨.keyword .ifWord, 1⟩, ⟨.symbol .greater, 1⟩,
        ⟨.symbol .semicolon, 1⟩], .finish 1⟩ := by
    decide +kernel
  rw [Environment.parse, tokens]
  cbv

end Scriptorium.Script.Parser
