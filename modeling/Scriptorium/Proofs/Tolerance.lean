import Mathlib
import Scriptorium.Script.Parser

/-!
# Strict and tolerant parsing

A unit that tolerates bracket faults is parsed in lockstep with the same unit that does not: both take the same tokens and give
the same values up to the first bracket fault, which ends the strict parse and is the first warning of the tolerant one
(`parse_tolerant`). The relation between the two (`Follows`) is kept by every production of the grammar; only `bracketFault` looks
at what the unit tolerates.
-/
namespace Scriptorium.Script

namespace Parser

/-- The state that a parse ends in. -/
def ended {α : Type} : EStateM.Result ParseError State α → State
  | .ok _ s | .error _ s => s

/-- How a tolerant parse ends, the second result, where a strict one ends in the first, both from one state: in the same way,
unless it is with a bracket fault. Then the tolerant parse, however it ends, has warned of that fault first, and where the strict
one stopped. -/
inductive Outcome {α : Type} (s : State) :
    EStateM.Result ParseError State α → EStateM.Result ParseError State α → Prop
  | value (a : α) (s' : State) (quiet : s'.warnings = s.warnings) : Outcome s (.ok a s') (.ok a s')
  | failure (error : ParseError) (s' : State) (quiet : s'.warnings = s.warnings) (other : ∀ fault, error.cause ≠ .bracket fault) :
    Outcome s (.error error s') (.error error s')
  | fault (line : Nat) (fault : BracketFault) (s' : State) (result : EStateM.Result ParseError State α)
    (warned : ⟨line, fault, s'.remaining⟩ :: s.warnings <:+ (ended result).warnings) :
    Outcome s (.error ⟨line, .bracket fault⟩ s') result

/-- Taking tokens before makes no difference, as it does not warn. -/
theorem Outcome.after {α : Type} {s s' : State} {strict tolerant : EStateM.Result ParseError State α}
    (outcome : Outcome s' strict tolerant) (quiet : s'.warnings = s.warnings) : Outcome s strict tolerant := by
  cases outcome with
  | value a last still => exact .value a last (still.trans quiet)
  | failure error last still other => exact .failure error last (still.trans quiet) other
  | fault line fault last _ warned => exact .fault line fault last _ (quiet ▸ warned)

/-- A tolerant parser follows a strict one. It never takes back a warning. -/
structure Follows {α : Type} (strict tolerant : Parser α) : Prop where
  warns : ∀ s, s.warnings <:+ (ended (tolerant s)).warnings
  outcome : ∀ s, Outcome s (strict s) (tolerant s)

section
variable {α β : Type} {p p' : Parser α} {f f' : α → Parser β}

theorem Follows.value (follows : Follows p p') {s s' : State} {a : α} (run : p s = .ok a s') :
    p' s = .ok a s' ∧ s'.warnings = s.warnings := by
  have outcome := follows.outcome s
  rw [run] at outcome
  generalize p' s = result at outcome
  cases outcome with
  | value _ _ quiet => exact ⟨rfl, quiet⟩

theorem Follows.error (follows : Follows p p') {s s' : State} {error : ParseError} (run : p s = .error error s') :
    (p' s = .error error s' ∧ s'.warnings = s.warnings ∧ ∀ fault, error.cause ≠ .bracket fault) ∨
      ∃ line fault, error = ⟨line, .bracket fault⟩ ∧ ⟨line, fault, s'.remaining⟩ :: s.warnings <:+ (ended (p' s)).warnings := by
  have outcome := follows.outcome s
  rw [run] at outcome
  generalize p' s = result at outcome
  cases outcome with
  | failure _ _ quiet other => exact .inl ⟨rfl, quiet, other⟩
  | fault line fault _ _ warned => exact .inr ⟨line, fault, rfl, warned⟩

theorem bind_ok {s s' : State} {a : α} (run : p s = .ok a s') : (p >>= f) s = f a s' := by
  show EStateM.bind p f s = _
  rw [EStateM.bind, run]

theorem bind_error {s s' : State} {error : ParseError} (run : p s = .error error s') : (p >>= f) s = .error error s' := by
  show EStateM.bind p f s = _
  rw [EStateM.bind, run]

private theorem warns_bind (first : ∀ s, s.warnings <:+ (ended (p s)).warnings)
    (rest : ∀ a s, s.warnings <:+ (ended (f a s)).warnings)
    (s : State) : (ended (p s)).warnings <:+ (ended ((p >>= f) s)).warnings ∧ s.warnings <:+ (ended ((p >>= f) s)).warnings := by
  have begun := first s
  rcases run : p s with ⟨a, s'⟩ | ⟨error, s'⟩
  · rw [run] at begun
    rw [bind_ok run]
    exact ⟨rest a s', begun.trans (rest a s')⟩
  · rw [run] at begun
    rw [bind_error run]
    exact ⟨List.suffix_refl _, begun⟩

private theorem follows_bind (first : Follows p p') (rest : ∀ a, Follows (f a) (f' a)) : Follows (p >>= f) (p' >>= f') := by
  have warns := warns_bind (f := f') first.warns fun a => (rest a).warns
  refine ⟨fun s => (warns s).2, ?_⟩
  intro s
  rcases run : p s with ⟨a, s'⟩ | ⟨error, s'⟩
  · obtain ⟨run', quiet⟩ := first.value run
    rw [bind_ok run, bind_ok run']
    exact ((rest a).outcome s').after quiet
  · rw [bind_error run]
    rcases first.error run with ⟨run', quiet, other⟩ | ⟨line, fault, rfl, warned⟩
    · rw [bind_error run']
      exact .failure error s' quiet other
    · exact .fault line fault s' _ (warned.trans (warns s).1)

private theorem follows_pure {a : α} : Follows (pure a) (pure a) :=
  ⟨fun _ => List.suffix_refl _, fun s => .value a s rfl⟩

private theorem follows_fail {line : Nat} {cause : ParseCause} (other : ∀ fault, cause ≠ .bracket fault) :
    Follows (fail line cause : Parser α) (fail line cause) :=
  ⟨fun _ => List.suffix_refl _, fun s => .failure ⟨line, cause⟩ s rfl other⟩

private theorem follows_failHere {cause : ParseCause} (other : ∀ fault, cause ≠ .bracket fault) :
    Follows (failHere cause : Parser α) (failHere cause) :=
  ⟨fun _ => List.suffix_refl _, fun s => .failure ⟨s.line, cause⟩ s rfl other⟩

private theorem follows_peek : Follows peek peek := ⟨fun _ => List.suffix_refl _, fun s => .value s.current? s rfl⟩

private theorem follows_line : Follows line line := ⟨fun _ => List.suffix_refl _, fun s => .value s.line s rfl⟩

private theorem follows_settle : Follows settle settle := by
  refine ⟨?_, ?_⟩
  all_goals
    intro s
    unfold settle
    split
  · exact List.suffix_refl _
  · exact List.suffix_refl _
  · exact .failure _ s rfl (by simp)
  · exact .value () s rfl

private theorem follows_advance : Follows advance advance := by
  refine follows_bind ?_ fun _ => follows_settle
  exact ⟨fun _ => List.suffix_refl _, fun s => .value () s.next rfl⟩

private theorem follows_isAt {token : Token} : Follows (isAt token) (isAt token) := follows_bind follows_peek fun _ => follows_pure

private theorem follows_accept {symbol : Symbol} : Follows (accept symbol) (accept symbol) := by
  refine follows_bind follows_isAt ?_
  intro here
  split
  · exact follows_bind follows_advance fun _ => follows_pure
  · exact follows_pure

private theorem follows_acceptWord {word : Keyword} : Follows (acceptWord word) (acceptWord word) := by
  refine follows_bind follows_isAt ?_
  intro here
  split
  · exact follows_bind follows_advance fun _ => follows_pure
  · exact follows_pure

private theorem follows_expect {symbol : Symbol} {what : Expectation} : Follows (expect symbol what) (expect symbol what) := by
  refine follows_bind follows_isAt ?_
  intro here
  split
  · exact follows_advance
  · exact follows_failHere (by simp)

private theorem follows_ending (symbol : Symbol) (what : Expectation) (a : α) :
    Follows (do expect symbol what; return a) (do expect symbol what; return a) :=
  follows_bind follows_expect fun _ => follows_pure

private theorem follows_name {what : Expectation} : Follows (name what) (name what) := by
  refine follows_bind follows_peek ?_
  intro token
  split
  · exact follows_bind follows_advance fun _ => follows_pure
  · exact follows_failHere (by simp)

section
variable {pass : β → Parser (β × Bool)} {b b' : β} {s s' : State}

theorem iterate_step (run : pass b s = .ok (b', true) s') (shorter : s'.remaining < s.remaining) :
    iterate pass b s = iterate pass b' s' := by
  rw [iterate.eq_def, run]
  exact if_pos shorter

private theorem iterate_stuck (run : pass b s = .ok (b', true) s') (longer : ¬ s'.remaining < s.remaining) :
    iterate pass b s = .ok b' s' := by
  rw [iterate.eq_def, run]
  exact if_neg longer

theorem iterate_last (run : pass b s = .ok (b', false) s') : iterate pass b s = .ok b' s' := by
  rw [iterate.eq_def, run]

theorem iterate_error {error : ParseError} (run : pass b s = .error error s') : iterate pass b s = .error error s' := by
  rw [iterate.eq_def, run]

end

private theorem warns_iterate {pass : β → Parser (β × Bool)} (each : ∀ b s, s.warnings <:+ (ended (pass b s)).warnings) (b : β)
    (s : State) : (ended (pass b s)).warnings <:+ (ended (iterate pass b s)).warnings := by
  fun_induction iterate pass b s with
  | case1 b s b' s' run shorter ih =>
    rw [run]
    exact (each b' s').trans ih
  | case2 b s b' s' run | case3 b s b' s' run | case4 b s error s' run =>
    rw [run]
    exact List.suffix_refl _

private theorem follows_iterate {pass pass' : β → Parser (β × Bool)} (each : ∀ b, Follows (pass b) (pass' b)) (b : β) :
    Follows (iterate pass b) (iterate pass' b) := by
  have warns := warns_iterate fun b => (each b).warns
  refine ⟨fun s => ((each b).warns s).trans (warns b s), ?_⟩
  intro s
  -- the strict loop leads: as long as its passes give values, those of the other give the same
  fun_induction iterate pass b s with
  | case1 b s b' s' run shorter ih =>
    obtain ⟨run', quiet⟩ := (each b).value run
    rw [iterate_step run' shorter]
    exact ih.after quiet
  | case2 b s b' s' run longer =>
    obtain ⟨run', quiet⟩ := (each b).value run
    rw [iterate_stuck run' longer]
    exact .value b' s' quiet
  | case3 b s b' s' run =>
    obtain ⟨run', quiet⟩ := (each b).value run
    rw [iterate_last run']
    exact .value b' s' quiet
  | case4 b s error s' run =>
    rcases (each b).error run with ⟨run', quiet, other⟩ | ⟨line, fault, rfl, warned⟩
    · rw [iterate_error run']
      exact .failure error s' quiet other
    · exact .fault line fault s' _ (warned.trans (warns b s))

private theorem follows_itemsUntil {stop : Symbol} {item item' : Parser α} (each : Follows item item') :
    Follows (itemsUntil stop item) (itemsUntil stop item') := by
  refine follows_bind (follows_iterate ?_ []) fun _ => follows_pure
  intro done
  refine follows_bind follows_peek ?_
  intro token
  split
  · exact follows_pure
  · split
    · exact follows_pure
    · exact follows_bind each fun _ => follows_pure

private theorem follows_separated {item item' : List α → Parser α} (each : ∀ done, Follows (item done) (item' done)) :
    Follows (separated item) (separated item') := by
  refine follows_bind (follows_iterate ?_ []) fun _ => follows_pure
  intro done
  exact follows_bind (each done) fun _ => follows_bind follows_accept fun _ => follows_pure

private theorem follows_bracketParts : Follows bracketParts bracketParts := by
  refine follows_bind (follows_iterate ?_ ("", [])) fun _ => follows_pure
  intro done
  refine follows_bind follows_peek ?_
  intro token
  split
  · exact follows_pure
  · split
    · exact follows_bind follows_advance fun _ => follows_pure
    · split
      · exact follows_bind follows_advance fun _ => follows_pure
      · exact follows_pure

end

/-! ## Expressions -/

section
variable {unit : String} {env : Environment} {budget : Nat}

/-- A production follows itself where the strict context is replaced by the tolerant one. -/
def Locksteps {α : Type} (unit : String) (env : Environment) (production : Context → Parser α) : Prop :=
  Follows (production ⟨unit, env, false⟩) (production ⟨unit, env, true⟩)

private theorem locksteps_bracketFault (line : Nat) (fault : BracketFault) :
    Locksteps unit env fun ctx => bracketFault ctx line fault where
  warns _ := List.suffix_cons _ _
  outcome s := .fault line fault s _ (List.suffix_refl _)

private theorem locksteps_bracket : Locksteps unit env bracket := by
  refine follows_bind follows_line fun line => follows_bind follows_advance fun _ => ?_
  refine follows_bind follows_bracketParts fun parts => follows_bind follows_accept fun closed => ?_
  dsimp only
  split
  · exact locksteps_bracketFault line _
  · split
    · exact locksteps_bracketFault line _
    · split
      · exact follows_pure
      · exact locksteps_bracketFault line _

/-- The levels of the grammar of expressions within a budget. -/
structure ExpressionsLockstep (unit : String) (env : Environment) (budget : Nat) : Prop where
  expression : Locksteps unit env fun ctx => expression ctx budget
  unary : Locksteps unit env fun ctx => unary ctx budget
  operation : ∀ level, Locksteps unit env fun ctx => operation ctx level budget
  operationFrom : ∀ level left, Locksteps unit env fun ctx => operationFrom ctx level budget left

private theorem locksteps_primary (inner : Locksteps unit env fun ctx => expression ctx budget) :
    Locksteps unit env fun ctx => primary ctx budget := by
  unfold Locksteps primary
  refine follows_bind follows_line fun line => follows_bind follows_peek fun token => ?_
  split
  case h_7 =>
    exact follows_bind follows_advance fun _ => follows_bind inner (follows_ending _ _)
  case h_8 => exact locksteps_bracket
  case h_9 => exact follows_fail (by simp)
  all_goals exact follows_bind follows_advance fun _ => follows_pure

private theorem locksteps_call (inner : Locksteps unit env fun ctx => expression ctx budget) :
    Locksteps unit env fun ctx => call ctx budget := by
  unfold Locksteps call
  refine follows_bind (locksteps_primary inner) fun callee => follows_bind follows_isAt fun opened => ?_
  dsimp only
  split
  · exact follows_pure
  · split
    · rename_i name line
      have finish (args : List Expr) := follows_ending .rightParen .argumentsEnd (Expr.call name args line)
      refine follows_bind follows_advance fun _ => follows_bind follows_isAt fun closed => ?_
      split
      · exact follows_bind follows_pure finish
      · exact follows_bind (follows_separated fun _ => inner) finish
    · exact follows_failHere (by simp)

private theorem locksteps_unary (inner : Locksteps unit env fun ctx => expression ctx budget)
    (smaller : ∀ b, budget = b + 1 → ExpressionsLockstep unit env b) : Locksteps unit env fun ctx => unary ctx budget := by
  unfold Locksteps unary
  refine follows_bind follows_line fun line => follows_bind follows_peek fun token => ?_
  split
  · split
    · exact locksteps_call inner
    · refine follows_bind follows_advance fun _ => ?_
      cases budget with
      | zero => exact follows_failHere (by simp)
      | succ budget => exact follows_bind (smaller budget rfl).unary fun e => follows_pure
  · exact locksteps_call inner

private theorem follows_connectiveAt {level : Nat} : Follows (connectiveAt level) (connectiveAt level) := by
  refine follows_bind follows_peek fun token => ?_
  split
  · exact follows_pure
  · exact follows_pure

private theorem locksteps_operationFrom (level : Nat) (left : Expr)
    (smaller : ∀ b, budget = b + 1 → ExpressionsLockstep unit env b) :
    Locksteps unit env fun ctx => operationFrom ctx level budget left := by
  unfold Locksteps operationFrom
  refine follows_bind follows_connectiveAt fun found => ?_
  split
  · exact follows_pure
  · refine follows_bind follows_line fun line => follows_bind follows_advance fun _ => ?_
    cases budget with
    | zero => exact follows_failHere (by simp)
    | succ budget =>
      exact follows_bind ((smaller budget rfl).operation level) fun right => (smaller budget rfl).operationFrom level _

private theorem locksteps_assignment (levels : ExpressionsLockstep unit env budget) :
    Locksteps unit env fun ctx => assignment ctx budget := by
  unfold Locksteps assignment
  refine follows_bind (levels.operation Connective.levels) fun target => ?_
  refine follows_bind follows_line fun line => follows_bind follows_peek fun token => ?_
  split
  · split
    · exact follows_pure
    · refine follows_bind follows_advance fun _ => follows_bind levels.expression fun value => ?_
      split
      · exact follows_pure
      · exact follows_fail (by simp)
  · exact follows_pure

private theorem expressionsLockstep_of (smaller : ∀ b, budget = b + 1 → ExpressionsLockstep unit env b) :
    ExpressionsLockstep unit env budget := by
  have inner : Locksteps unit env fun ctx => expression ctx budget := by
    unfold Locksteps expression
    cases budget with
    | zero => exact follows_failHere (by simp)
    | succ budget => exact locksteps_assignment (smaller budget rfl)
  refine ⟨inner, locksteps_unary inner smaller, ?_, fun level left => locksteps_operationFrom level left smaller⟩
  -- within one budget, a level of operators rests on the level below
  intro level
  unfold Locksteps
  induction level with
  | zero =>
    unfold operation
    exact locksteps_unary inner smaller
  | succ level ih =>
    unfold operation
    exact follows_bind ih fun first => locksteps_operationFrom level first smaller

private theorem expressionsLockstep (budget : Nat) : ExpressionsLockstep unit env budget := by
  induction budget with
  | zero => exact expressionsLockstep_of nofun
  | succ budget ih =>
    refine expressionsLockstep_of ?_
    rintro _ ⟨⟩
    exact ih

private theorem locksteps_expression (budget : Nat) : Locksteps unit env fun ctx => expression ctx budget :=
  (expressionsLockstep budget).expression

private theorem locksteps_optional (budget : Nat) : Locksteps unit env fun ctx => some <$> expression ctx budget :=
  follows_bind (locksteps_expression budget) fun e => follows_pure (a := some e)

private theorem locksteps_condition (what : Expectation) (budget : Nat) : Locksteps unit env fun ctx => condition ctx what budget :=
  follows_bind follows_expect fun _ => follows_bind (locksteps_expression budget) (follows_ending _ _)

private theorem locksteps_expressionStatement (budget : Nat) : Locksteps unit env fun ctx => expressionStatement ctx budget :=
  follows_bind (locksteps_expression budget) fun value => follows_ending _ _ (Stmt.expr value)

private theorem locksteps_declaration (isMutable : Bool) (budget : Nat) :
    Locksteps unit env fun ctx => declaration ctx isMutable budget := by
  refine follows_bind follows_advance fun _ => follows_bind follows_line fun line => ?_
  refine follows_bind follows_name fun name => follows_bind follows_accept fun given => ?_
  have finish (initial : Option Expr) :=
    follows_ending .semicolon .variableEnd (Stmt.declare name isMutable initial line)
  dsimp only
  split
  · exact follows_bind (locksteps_optional budget) finish
  · split
    · exact follows_bind follows_pure finish
    · exact follows_bind (follows_fail (by simp)) finish

private theorem locksteps_returnStatement (budget : Nat) : Locksteps unit env fun ctx => returnStatement ctx budget := by
  refine follows_bind follows_line fun line => follows_bind follows_advance fun _ => follows_bind follows_isAt fun given => ?_
  have finish (value : Option Expr) := follows_ending .semicolon .returnEnd (Stmt.giveBack value line)
  dsimp only
  split
  · exact follows_bind follows_pure finish
  · exact follows_bind (locksteps_optional budget) finish

private theorem follows_block {statement statement' : Parser Stmt} (each : Follows statement statement') :
    Follows (block statement) (block statement') :=
  follows_bind follows_expect fun _ => follows_bind (follows_itemsUntil each) (follows_ending _ _)

private theorem locksteps_statement (budget : Nat) : Locksteps unit env fun ctx => statement ctx budget := by
  unfold Locksteps
  induction budget with
  | zero => exact follows_failHere (by simp)
  | succ budget ih =>
    unfold statement
    refine follows_bind follows_peek fun token => ?_
    split
    · exact locksteps_declaration true budget
    · exact locksteps_declaration false budget
    · refine follows_bind follows_advance fun _ => follows_bind (locksteps_condition .ifParen budget) fun condition => ?_
      refine follows_bind ih fun whenTrue => follows_bind follows_acceptWord fun other => ?_
      dsimp only
      split
      · exact follows_bind (follows_bind ih fun s => follows_pure (a := some s)) fun _ => follows_pure
      · exact follows_bind follows_pure fun _ => follows_pure
    · refine follows_bind follows_advance fun _ => follows_bind (locksteps_condition .whileParen budget) fun condition => ?_
      exact follows_bind ih fun body => follows_pure
    · exact locksteps_returnStatement budget
    · exact follows_bind (follows_block ih) fun body => follows_pure
    · exact follows_bind follows_advance fun _ => follows_pure
    · exact follows_failHere (by simp)
    · exact follows_failHere (by simp)
    · exact locksteps_expressionStatement budget

private theorem locksteps_checkFree (declared : Std.HashSet String) (name : String) (line : Nat) :
    Locksteps unit env fun ctx => checkFree ctx declared name line := by
  unfold Locksteps checkFree
  dsimp only
  split
  · exact follows_fail (by simp)
  · split
    · exact follows_fail (by simp)
    · split
      · exact follows_fail (by simp)
      · exact follows_pure

private theorem locksteps_globalDeclaration (declared : Std.HashSet String) :
    Locksteps unit env fun ctx => globalDeclaration ctx declared := by
  refine follows_bind follows_advance fun _ => follows_bind follows_line fun line => follows_bind follows_name fun name => ?_
  refine follows_bind (locksteps_checkFree declared name line) fun _ => follows_bind follows_expect fun _ => ?_
  exact follows_bind (locksteps_expression maxNesting) fun initial => follows_bind follows_expect fun _ => follows_pure

private theorem follows_parameter {before : List String} : Follows (parameter before) (parameter before) := by
  refine follows_bind follows_line fun line => follows_bind follows_name fun name => ?_
  split
  · exact follows_fail (by simp)
  · exact follows_pure

private theorem locksteps_functionDeclaration (declared : Std.HashSet String) :
    Locksteps unit env fun ctx => functionDeclaration ctx declared := by
  refine follows_bind follows_advance fun _ => follows_bind follows_line fun line => follows_bind follows_name fun name => ?_
  refine follows_bind (locksteps_checkFree declared name line) fun _ => follows_bind follows_expect fun _ => ?_
  refine follows_bind follows_isAt fun closed => ?_
  have finish : ∀ params : List String, Locksteps unit env fun ctx => do
      expect .rightParen .parametersEnd
      let body ← block (statement ctx maxNesting)
      return (⟨name, params, body, line⟩ : FunctionDecl) :=
    fun params => follows_bind follows_expect fun _ => follows_bind (follows_block (locksteps_statement maxNesting)) fun body =>
      follows_pure
  dsimp only
  split
  · exact follows_bind follows_pure finish
  · exact follows_bind (follows_separated fun _ => follows_parameter) finish

private theorem locksteps_topLevelItem (done : Progress) : Locksteps unit env fun ctx => topLevelItem ctx done := by
  refine follows_bind follows_peek fun token => ?_
  split
  · exact follows_pure
  · exact follows_bind (locksteps_globalDeclaration done.declared) fun decl => follows_pure
  · exact follows_bind (locksteps_functionDeclaration done.declared) fun decl => follows_pure
  · exact follows_bind (locksteps_statement maxNesting) fun s => follows_pure

private theorem locksteps_wholeUnit (artifact : String) : Locksteps unit env fun ctx => wholeUnit ctx artifact :=
  follows_bind follows_settle fun _ => follows_bind (follows_iterate locksteps_topLevelItem ⟨[], [], [], ∅⟩) fun _ =>
    follows_pure

end

end Parser

namespace Environment

variable {env : Environment} {source unit artifact : String} {tolerant : Bool}

theorem parse_value {parsed : ParsedUnit} {s : Parser.State}
    (run : Parser.wholeUnit ⟨unit, env, tolerant⟩ artifact (.start (.ofSource source)) = .ok parsed s) :
    env.parse source unit artifact tolerant = ⟨.ok parsed, s.warnings.reverse, env.declareUnit parsed⟩ := by
  rw [parse, run]

theorem parse_error {error : ParseError} {s : Parser.State}
    (run : Parser.wholeUnit ⟨unit, env, tolerant⟩ artifact (.start (.ofSource source)) = .error error s) :
    env.parse source unit artifact tolerant = ⟨.error error, s.warnings.reverse, env⟩ := by
  rw [parse, run]

private theorem parse_warnings : (env.parse source unit artifact tolerant).warnings =
    (Parser.ended (Parser.wholeUnit ⟨unit, env, tolerant⟩ artifact (.start (.ofSource source)))).warnings.reverse := by
  rcases run : Parser.wholeUnit ⟨unit, env, tolerant⟩ artifact (.start (.ofSource source)) with ⟨parsed, s⟩ | ⟨error, s⟩
  · rw [parse_value run]
    rfl
  · rw [parse_error run]
    rfl

/-- How the strict and the tolerant parse of a unit end. -/
inductive Parallel (env : Environment) (source unit artifact : String) : Prop
  | same (quiet : (env.parse source unit artifact true).warnings = [])
    (same : env.parse source unit artifact true = env.parse source unit artifact false)
    (other : ∀ line fault, (env.parse source unit artifact false).result ≠ .error ⟨line, .bracket fault⟩)
  | fault (line : Nat) (fault : BracketFault) (stopped : Parser.State) (later : List BracketWarning)
    (run : Parser.wholeUnit ⟨unit, env, false⟩ artifact (.start (.ofSource source)) = .error ⟨line, .bracket fault⟩ stopped)
    (warned : (env.parse source unit artifact true).warnings = ⟨line, fault, stopped.remaining⟩ :: later)

theorem parallel (env : Environment) (source unit artifact : String) : Parallel env source unit artifact := by
  have follows : Parser.Follows (Parser.wholeUnit ⟨unit, env, false⟩ artifact) (Parser.wholeUnit ⟨unit, env, true⟩ artifact) :=
    Parser.locksteps_wholeUnit artifact
  rcases run : Parser.wholeUnit ⟨unit, env, false⟩ artifact (.start (.ofSource source)) with ⟨parsed, s⟩ | ⟨error, s⟩
  · obtain ⟨run', quiet⟩ := follows.value run
    refine .same ?_ ?_ ?_
    · rw [parse_value run', quiet]
      rfl
    · rw [parse_value run', parse_value run]
    · rw [parse_value run]
      simp
  · rcases follows.error run with ⟨run', quiet, other⟩ | ⟨line, fault, rfl, warned⟩
    · refine .same ?_ ?_ ?_
      · rw [parse_error run', quiet]
        rfl
      · rw [parse_error run', parse_error run]
      · rw [parse_error run]
        rintro line fault ⟨⟩
        exact other fault rfl
    · obtain ⟨later, whole⟩ := warned
      refine .fault line fault s later.reverse run ?_
      rw [parse_warnings, ← whole, List.reverse_append]
      rfl

/-- Where a unit is parsed, or fails for another reason than a bracket fault, letting bracket faults pass changes nothing, and
nothing is warned of. Where the strict parse fails with a bracket fault, it is the first one that the tolerant parse warns of,
with the same tokens left. -/
theorem parse_tolerant (env : Environment) (source unit artifact : String) :
    let strict := env.parse source unit artifact false
    let tolerant := env.parse source unit artifact true
    (∀ parsed, strict.result = .ok parsed → tolerant.result = .ok parsed ∧ tolerant.env = strict.env ∧ tolerant.warnings = []) ∧
      (∀ error, strict.result = .error error → (∀ fault, error.cause ≠ .bracket fault) → tolerant.result = .error error) ∧
      ∀ error fault, strict.result = .error error → error.cause = .bracket fault → ∃ stopped first later,
        Parser.wholeUnit ⟨unit, env, false⟩ artifact (.start (.ofSource source)) = .error error stopped ∧
          tolerant.warnings = first :: later ∧ first.line = error.line ∧ first.fault.message = error.cause.message ∧
          first.left = stopped.remaining := by
  intro strict tolerant
  cases parallel env source unit artifact with
  | same quiet same other =>
    refine ⟨?_, ?_, ?_⟩
    · intro parsed given
      exact ⟨(congrArg Parsed.result same).trans given, congrArg Parsed.env same, quiet⟩
    · intro error failed _
      exact (congrArg Parsed.result same).trans failed
    · rintro ⟨line, cause⟩ fault failed rfl
      exact absurd failed (other line fault)
  | fault line fault stopped later run warned =>
    have failure : strict.result = .error ⟨line, .bracket fault⟩ := congrArg Parsed.result (parse_error run)
    refine ⟨?_, ?_, ?_⟩
    · intro parsed given
      cases failure.symm.trans given
    · intro error failed other
      cases failure.symm.trans failed
      exact absurd rfl (other fault)
    · intro error other failed _
      cases failure.symm.trans failed
      exact ⟨stopped, _, later, run, warned, rfl, rfl, rfl⟩

/-- The second line of a script stands for nothing, and three tokens are left there: two of the third line and a semicolon. -/
theorem parse_tolerant_unresolved :
    let env := initial "group" [] [BracketHandler.ofNamespace "item"]
    ∃ stopped first later,
      Parser.wholeUnit ⟨"a.zs", env, false⟩ "a" (.start (.ofSource "<item:tin>;\n<gas:oxygen>;\nf;")) =
        .error ⟨2, .bracket (.unresolved "gas:oxygen")⟩ stopped ∧
      (env.parse "<item:tin>;\n<gas:oxygen>;\nf;" "a.zs" "a" true).warnings = first :: later ∧ first.line = 2 ∧
      first.fault.message = "Could not resolve <gas:oxygen>" ∧ first.left = stopped.remaining := by
  have tokens : TokenStream.ofSource "<item:tin>;\n<gas:oxygen>;\nf;" =
      ⟨[⟨.symbol .less, 1⟩, ⟨.name "item", 1⟩, ⟨.symbol .colon, 1⟩, ⟨.name "tin", 1⟩, ⟨.symbol .greater, 1⟩,
        ⟨.symbol .semicolon, 1⟩, ⟨.symbol .less, 2⟩, ⟨.name "gas", 2⟩, ⟨.symbol .colon, 2⟩, ⟨.name "oxygen", 2⟩,
        ⟨.symbol .greater, 2⟩, ⟨.symbol .semicolon, 2⟩, ⟨.name "f", 3⟩, ⟨.symbol .semicolon, 3⟩], .finish 3⟩ := by
    decide +kernel
  refine (parse_tolerant _ _ _ _).2.2 _ (.unresolved "gas:oxygen") ?_ rfl
  rw [parse, tokens]
  cbv

end Environment

end Scriptorium.Script
