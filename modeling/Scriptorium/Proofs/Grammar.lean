import Mathlib
import Scriptorium.Script.Parser

/-!
# What the grammar keeps

A property of syntax trees that each production of the grammar keeps holds of every tree that the parser gives
(`Kept.parse`). Properties may depend on the budget that is left, and on the lines of the tokens.
-/
namespace Scriptorium.Script

namespace Parser

/-- A property of states that taking tokens and warning keep. -/
structure Stable (inv : State → Prop) : Prop where
  next : ∀ s, inv s → inv s.next
  warn : ∀ s warnings, inv s → inv { s with warnings }

/-- Where a parser gives a value, it has kept a property of states, and the value is good. -/
def Gives {α : Type} (inv : State → Prop) (p : Parser α) (good : α → Prop) : Prop :=
  ∀ s a s', inv s → p s = .ok a s' → inv s' ∧ good a

section
variable {α β : Type} {inv : State → Prop} {good : α → Prop}

theorem gives_pure {a : α} (holds : good a) : Gives inv (pure a) good := by
  intro s _ _ here given
  cases given
  exact ⟨here, holds⟩

theorem gives_bind {p : Parser α} {f : α → Parser β} {fine : β → Prop} (first : Gives inv p good)
    (rest : ∀ a, good a → Gives inv (f a) fine) : Gives inv (p >>= f) fine := by
  intro s b s' here given
  cases run : p s with
  | ok a mid =>
    obtain ⟨kept, holds⟩ := first s a mid here run
    refine rest a holds mid b s' kept ?_
    rw [← given]
    show _ = EStateM.bind p f s
    rw [EStateM.bind, run]
  | error e mid =>
    have failed : (p >>= f) s = .error e mid := by
      show EStateM.bind p f s = _
      rw [EStateM.bind, run]
    rw [failed] at given
    cases given

theorem gives_fail {line : Nat} {cause : ParseCause} : Gives inv (fail line cause) good := by
  intro s a s' _ given
  cases given

private theorem gives_failHere {cause : ParseCause} : Gives inv (failHere cause) good := by
  intro s a s' _ given
  cases given

theorem gives_peek : Gives inv peek fun _ => True := by
  intro s a s' here given
  cases given
  exact ⟨here, trivial⟩

private theorem gives_line {fine : Nat → Prop} (lines : ∀ s, inv s → fine s.line) : Gives inv line fine := by
  intro s a s' here given
  cases given
  exact ⟨here, lines s here⟩

private theorem gives_anyLine : Gives inv line fun _ => True := gives_line fun _ _ => trivial

private theorem gives_modify {f : State → State} (keeps : ∀ s, inv s → inv (f s)) : Gives inv (modify f) fun _ => True := by
  intro s a s' here given
  cases given
  exact ⟨keeps s here, trivial⟩

theorem gives_settle : Gives inv settle fun _ => True := by
  intro s a s' here given
  unfold settle at given
  split at given
  · cases given
  · cases given
    exact ⟨here, trivial⟩

private theorem gives_advance (stable : Stable inv) : Gives inv advance fun _ => True :=
  gives_bind (gives_modify stable.next) fun _ _ => gives_settle

private theorem gives_isAt {token : Token} : Gives inv (isAt token) fun _ => True :=
  gives_bind gives_peek fun _ _ => gives_pure trivial

private theorem gives_accept (stable : Stable inv) {symbol : Symbol} : Gives inv (accept symbol) fun _ => True := by
  refine gives_bind gives_isAt ?_
  intro here _
  split
  · exact gives_bind (gives_advance stable) fun _ _ => gives_pure trivial
  · exact gives_pure trivial

private theorem gives_acceptWord (stable : Stable inv) {word : Keyword} : Gives inv (acceptWord word) fun _ => True := by
  refine gives_bind gives_isAt ?_
  intro here _
  split
  · exact gives_bind (gives_advance stable) fun _ _ => gives_pure trivial
  · exact gives_pure trivial

private theorem gives_expect (stable : Stable inv) {symbol : Symbol} {what : Expectation} :
    Gives inv (expect symbol what) fun _ => True := by
  refine gives_bind gives_isAt ?_
  intro here _
  split
  · exact gives_advance stable
  · exact gives_failHere

private theorem gives_name (stable : Stable inv) {what : Expectation} : Gives inv (name what) fun _ => True := by
  refine gives_bind gives_peek ?_
  intro token _
  split
  · exact gives_bind (gives_advance stable) fun _ _ => gives_pure trivial
  · exact gives_failHere

/-- What every pass keeps, a loop keeps. -/
theorem gives_iterate (good : α → Prop) {pass : α → Parser (α × Bool)} (each : ∀ a, good a → Gives inv (pass a) fun result => good result.1)
    {a : α} (begun : good a) : Gives inv (iterate pass a) good := by
  intro s
  fun_induction iterate pass a s
  case case1 a s b s' run shorter ih =>
    intro c s'' here given
    obtain ⟨kept, holds⟩ := each a begun s _ s' here run
    exact ih holds c s'' kept given
  case case2 a s b s' run longer =>
    rintro _ _ here ⟨⟩
    exact each a begun s _ _ here run
  case case3 a s b s' run =>
    rintro _ _ here ⟨⟩
    exact each a begun s _ _ here run
  case case4 =>
    rintro _ _ _ ⟨⟩

private theorem gives_itemsUntil {stop : Symbol} {item : Parser α} (each : Gives inv item good) :
    Gives inv (itemsUntil stop item) fun items => ∀ a ∈ items, good a := by
  refine gives_bind (gives_iterate (fun done => ∀ a ∈ done, good a) ?_ (List.forall_mem_nil _)) ?_
  · intro done holds
    refine gives_bind gives_peek ?_
    intro token _
    split
    · exact gives_pure holds
    · split
      · exact gives_pure holds
      · refine gives_bind each ?_
        intro a fine
        exact gives_pure (List.forall_mem_cons.mpr ⟨fine, holds⟩)
  · intro done holds
    exact gives_pure (by simpa using holds)

private theorem gives_separated (stable : Stable inv) {item : List α → Parser α} (each : ∀ done, Gives inv (item done) good) :
    Gives inv (separated item) fun items => ∀ a ∈ items, good a := by
  refine gives_bind (gives_iterate (fun done => ∀ a ∈ done, good a) ?_ (List.forall_mem_nil _)) ?_
  · intro done holds
    refine gives_bind (each done) ?_
    intro a fine
    refine gives_bind (gives_accept stable) ?_
    intro more _
    exact gives_pure (List.forall_mem_cons.mpr ⟨fine, holds⟩)
  · intro done holds
    exact gives_pure (by simpa using holds)

private theorem gives_bracketParts (stable : Stable inv) : Gives inv bracketParts fun _ => True := by
  refine gives_bind (gives_iterate (fun _ => True) ?_ trivial) fun _ _ => gives_pure trivial
  intro done _
  refine gives_bind gives_peek ?_
  intro token _
  split
  · exact gives_pure trivial
  · split
    · exact gives_bind (gives_advance stable) fun _ _ => gives_pure trivial
    · split
      · exact gives_bind (gives_advance stable) fun _ _ => gives_pure trivial
      · exact gives_pure trivial

end

/-! ## The grammar -/

/-- What holds of an expression that is parsed within a budget, by what holds of an operand: an expression takes one of it. -/
def Inner (operand : Nat → Expr → Prop) : Nat → Expr → Prop
  | 0, _ => False
  | budget + 1, e => operand budget e

/-- Properties that the productions of the grammar keep: of the states of the parser, of the lines of tokens, of operands and of
statements that are parsed within a budget. -/
structure Kept (inv : State → Prop) (fine : Nat → Prop) (operand : Nat → Expr → Prop) (stmt : Nat → Stmt → Prop) : Prop where
  stable : Stable inv
  lines : ∀ s, inv s → fine s.line
  number : ∀ budget value, operand budget (.number value)
  text : ∀ budget value, operand budget (.text value)
  bool : ∀ budget value, operand budget (.bool value)
  null : ∀ budget, operand budget .null
  bracket : ∀ budget path value, operand budget (.bracket path value)
  name : ∀ budget name line, fine line → operand budget (.name name line)
  /-- Parentheses. -/
  group : ∀ budget e, operand budget e → operand (budget + 1) e
  call : ∀ budget name args line, operand budget (.name name line) → (∀ arg ∈ args, Inner operand budget arg) →
    operand budget (.call name args line)
  unary : ∀ budget op e line, fine line → operand budget e → operand (budget + 1) (.unary op e line)
  /-- The left side may come from any budget that is no smaller than the one before its operator. -/
  apply : ∀ most budget op line left right, budget < most → fine line → operand most left → operand budget right →
    operand most (Connective.apply line op left right)
  assign : ∀ budget name op value line line', fine line → operand budget (.name name line') → Inner operand budget value →
    operand budget (.assign name (assigned name line op value) line)
  expr : ∀ budget value, Inner operand budget value → stmt (budget + 1) (.expr value)
  declare : ∀ budget name isMutable initial line, fine line → (∀ e, initial = some e → Inner operand budget e) →
    stmt (budget + 1) (.declare name isMutable initial line)
  branch : ∀ budget condition whenTrue whenFalse, Inner operand budget condition → stmt budget whenTrue →
    (∀ s, whenFalse = some s → stmt budget s) → stmt (budget + 1) (.branch condition whenTrue whenFalse)
  loop : ∀ budget condition body, Inner operand budget condition → stmt budget body → stmt (budget + 1) (.loop condition body)
  giveBack : ∀ budget value line, fine line → (∀ e, value = some e → Inner operand budget e) →
    stmt (budget + 1) (.giveBack value line)
  block : ∀ budget body, (∀ s ∈ body, stmt budget s) → stmt (budget + 1) (.block body)
  empty : ∀ budget, stmt (budget + 1) .empty

namespace Kept

variable {ctx : Context} {inv : State → Prop} {fine : Nat → Prop} {operand : Nat → Expr → Prop} {stmt : Nat → Stmt → Prop}

theorem line (kept : Kept inv fine operand stmt) : Gives inv Parser.line fine := gives_line kept.lines

theorem bracketFault (kept : Kept inv fine operand stmt) (budget line : Nat) (fault : BracketFault) :
    Gives inv (Parser.bracketFault ctx line fault) (operand budget) := by
  unfold Parser.bracketFault
  split
  · exact gives_bind (gives_modify fun s here => kept.stable.warn s _ here) fun _ _ => gives_pure (kept.null budget)
  · exact gives_fail

theorem brackets (kept : Kept inv fine operand stmt) (budget : Nat) : Gives inv (Parser.bracket ctx) (operand budget) := by
  refine gives_bind gives_anyLine ?_
  intro line _
  refine gives_bind (gives_advance kept.stable) ?_
  intro _ _
  refine gives_bind (gives_bracketParts kept.stable) ?_
  intro parts _
  refine gives_bind (gives_accept kept.stable) ?_
  intro closed _
  split
  · exact kept.bracketFault budget _ _
  · split
    · exact kept.bracketFault budget _ _
    · split
      · exact gives_pure (kept.bracket budget _ _)
      · exact kept.bracketFault budget _ _

/-- What the grammar of expressions gives within a budget. -/
structure Levels (ctx : Context) (inv : State → Prop) (operand : Nat → Expr → Prop) (budget : Nat) : Prop where
  expression : Gives inv (Parser.expression ctx budget) (Inner operand budget)
  unary : Gives inv (Parser.unary ctx budget) (operand budget)
  operation : ∀ level, Gives inv (Parser.operation ctx level budget) (operand budget)
  operationFrom : ∀ level most left, budget ≤ most → operand most left →
    Gives inv (Parser.operationFrom ctx level budget left) (operand most)

theorem primary (kept : Kept inv fine operand stmt) {budget : Nat}
    (inner : Gives inv (Parser.expression ctx budget) (Inner operand budget)) :
    Gives inv (Parser.primary ctx budget) (operand budget) := by
  have advance : Gives inv advance fun _ => True := gives_advance kept.stable
  unfold Parser.primary
  refine gives_bind kept.line ?_
  intro line here
  refine gives_bind gives_peek ?_
  intro token _
  split
  · exact gives_bind advance fun _ _ => gives_pure (kept.number budget _)
  · exact gives_bind advance fun _ _ => gives_pure (kept.text budget _)
  · exact gives_bind advance fun _ _ => gives_pure (kept.bool budget true)
  · exact gives_bind advance fun _ _ => gives_pure (kept.bool budget false)
  · exact gives_bind advance fun _ _ => gives_pure (kept.null budget)
  · exact gives_bind advance fun _ _ => gives_pure (kept.name budget _ _ here)
  · refine gives_bind advance fun _ _ => gives_bind inner ?_
    intro e inside
    refine gives_bind (gives_expect kept.stable) fun _ _ => gives_pure ?_
    cases budget with
    | zero => exact inside.elim
    | succ budget => exact kept.group budget e inside
  · exact kept.brackets budget
  · exact gives_fail

theorem calls (kept : Kept inv fine operand stmt) {budget : Nat}
    (inner : Gives inv (Parser.expression ctx budget) (Inner operand budget)) :
    Gives inv (Parser.call ctx budget) (operand budget) := by
  unfold Parser.call
  refine gives_bind (kept.primary inner) ?_
  intro callee good
  refine gives_bind gives_isAt ?_
  intro opened _
  split
  · exact gives_pure good
  · split
    · rename_i name line
      refine gives_bind (gives_advance kept.stable) fun _ _ => gives_bind gives_isAt fun closed _ => ?_
      have finish : ∀ args : List Expr, (∀ arg ∈ args, Inner operand budget arg) → Gives inv
          (do expect .rightParen .argumentsEnd; return .call name args line) (operand budget) := fun args inside =>
        gives_bind (gives_expect kept.stable) fun _ _ => gives_pure (kept.call budget name args line good inside)
      dsimp only
      split
      · exact gives_bind (gives_pure (List.forall_mem_nil _)) finish
      · exact gives_bind (gives_separated kept.stable fun _ => inner) finish
    · exact gives_failHere

private theorem unaries (kept : Kept inv fine operand stmt) {budget : Nat}
    (inner : Gives inv (Parser.expression ctx budget) (Inner operand budget))
    (smaller : ∀ b, budget = b + 1 → Levels ctx inv operand b) : Gives inv (Parser.unary ctx budget) (operand budget) := by
  unfold Parser.unary
  refine gives_bind kept.line ?_
  intro line here
  refine gives_bind gives_peek ?_
  intro token _
  split
  · split
    · exact kept.calls inner
    · refine gives_bind (gives_advance kept.stable) ?_
      intro _ _
      cases budget with
      | zero => exact gives_failHere
      | succ budget =>
        refine gives_bind (smaller budget rfl).unary ?_
        intro e inside
        exact gives_pure (kept.unary budget _ e line here inside)
  · exact kept.calls inner

private theorem gives_connectiveAt {level : Nat} : Gives inv (connectiveAt level) fun _ => True := by
  refine gives_bind gives_peek ?_
  intro token _
  split
  · exact gives_pure trivial
  · exact gives_pure trivial

theorem operationFrom (kept : Kept inv fine operand stmt) {budget level most : Nat} {left : Expr} (enough : budget ≤ most)
    (good : operand most left) (smaller : ∀ b, budget = b + 1 → Levels ctx inv operand b) :
    Gives inv (Parser.operationFrom ctx level budget left) (operand most) := by
  unfold Parser.operationFrom
  refine gives_bind gives_connectiveAt ?_
  intro found _
  split
  · exact gives_pure good
  · refine gives_bind kept.line ?_
    intro line here
    refine gives_bind (gives_advance kept.stable) ?_
    intro _ _
    cases budget with
    | zero => exact gives_failHere
    | succ budget =>
      refine gives_bind ((smaller budget rfl).operation level) ?_
      intro right inside
      exact (smaller budget rfl).operationFrom level most _ (Nat.le_of_succ_le enough)
        (kept.apply most budget _ line left right enough here good inside)

theorem assignment (kept : Kept inv fine operand stmt) {budget : Nat} (levels : Levels ctx inv operand budget) :
    Gives inv (Parser.assignment ctx budget) (operand budget) := by
  unfold Parser.assignment
  refine gives_bind (levels.operation Connective.levels) ?_
  intro target good
  refine gives_bind kept.line ?_
  intro line here
  refine gives_bind gives_peek ?_
  intro token _
  split
  · split
    · exact gives_pure good
    · refine gives_bind (gives_advance kept.stable) fun _ _ => gives_bind levels.expression ?_
      intro value inside
      split
      · exact gives_pure (kept.assign budget _ _ value line _ here good inside)
      · exact gives_fail
  · exact gives_pure good

private theorem levels_of (kept : Kept inv fine operand stmt) {budget : Nat}
    (smaller : ∀ b, budget = b + 1 → Levels ctx inv operand b) : Levels ctx inv operand budget := by
  have inner : Gives inv (Parser.expression ctx budget) (Inner operand budget) := by
    unfold Parser.expression
    cases budget with
    | zero => exact gives_failHere
    | succ budget => exact kept.assignment (smaller budget rfl)
  refine ⟨inner, kept.unaries inner smaller, ?_, fun level most left enough good => kept.operationFrom enough good smaller⟩
  -- within one budget, a level of operators rests on the level below
  intro level
  induction level with
  | zero =>
    unfold Parser.operation
    exact kept.unaries inner smaller
  | succ level ih =>
    unfold Parser.operation
    exact gives_bind ih fun first good => kept.operationFrom (Nat.le_refl budget) good smaller

theorem levels (kept : Kept inv fine operand stmt) (budget : Nat) : Levels ctx inv operand budget := by
  induction budget with
  | zero => exact kept.levels_of nofun
  | succ budget ih =>
    refine kept.levels_of ?_
    rintro _ ⟨⟩
    exact ih

theorem expression (kept : Kept inv fine operand stmt) (budget : Nat) :
    Gives inv (Parser.expression ctx budget) (Inner operand budget) :=
  (kept.levels budget).expression

theorem condition (kept : Kept inv fine operand stmt) {what : Expectation} (budget : Nat) :
    Gives inv (Parser.condition ctx what budget) (Inner operand budget) := by
  refine gives_bind (gives_expect kept.stable) fun _ _ => gives_bind (kept.expression budget) ?_
  intro e inside
  exact gives_bind (gives_expect kept.stable) fun _ _ => gives_pure inside

theorem expressionStatement (kept : Kept inv fine operand stmt) (budget : Nat) :
    Gives inv (Parser.expressionStatement ctx budget) (stmt (budget + 1)) := by
  refine gives_bind (kept.expression budget) ?_
  intro e inside
  exact gives_bind (gives_expect kept.stable) fun _ _ => gives_pure (kept.expr budget e inside)

private theorem optional (kept : Kept inv fine operand stmt) (budget : Nat) :
    Gives inv (some <$> Parser.expression ctx budget) fun value => ∀ e, value = some e → Inner operand budget e := by
  refine gives_bind (kept.expression budget) ?_
  intro e inside
  refine gives_pure ?_
  rintro _ ⟨⟩
  exact inside

theorem declaration (kept : Kept inv fine operand stmt) (isMutable : Bool) (budget : Nat) :
    Gives inv (Parser.declaration ctx isMutable budget) (stmt (budget + 1)) := by
  refine gives_bind (gives_advance kept.stable) fun _ _ => gives_bind kept.line ?_
  intro line here
  refine gives_bind (gives_name kept.stable) fun name _ => gives_bind (gives_accept kept.stable) ?_
  intro given _
  have finish : ∀ initial : Option Expr, (∀ e, initial = some e → Inner operand budget e) → Gives inv
      (do expect .semicolon .variableEnd; return .declare name isMutable initial line) (stmt (budget + 1)) :=
    fun initial inside => gives_bind (gives_expect kept.stable) fun _ _ =>
      gives_pure (kept.declare budget name isMutable initial line here inside)
  split
  · exact gives_bind (kept.optional budget) finish
  · split
    · exact gives_bind (gives_pure nofun) finish
    · exact gives_bind gives_fail finish

theorem returnStatement (kept : Kept inv fine operand stmt) (budget : Nat) :
    Gives inv (Parser.returnStatement ctx budget) (stmt (budget + 1)) := by
  refine gives_bind kept.line ?_
  intro line here
  refine gives_bind (gives_advance kept.stable) fun _ _ => gives_bind gives_isAt ?_
  intro given _
  have finish : ∀ value : Option Expr, (∀ e, value = some e → Inner operand budget e) → Gives inv
      (do expect .semicolon .returnEnd; return .giveBack value line) (stmt (budget + 1)) :=
    fun value inside => gives_bind (gives_expect kept.stable) fun _ _ => gives_pure (kept.giveBack budget value line here inside)
  split
  · exact gives_bind (gives_pure nofun) finish
  · exact gives_bind (kept.optional budget) finish

theorem blocks (stable : Stable inv) {statement : Parser Stmt} {good : Stmt → Prop} (each : Gives inv statement good) :
    Gives inv (Parser.block statement) fun body => ∀ s ∈ body, good s := by
  refine gives_bind (gives_expect stable) fun _ _ => gives_bind (gives_itemsUntil each) ?_
  intro body inside
  exact gives_bind (gives_expect stable) fun _ _ => gives_pure inside

theorem statement (kept : Kept inv fine operand stmt) (budget : Nat) :
    Gives inv (Parser.statement ctx budget) (stmt budget) := by
  induction budget with
  | zero => exact gives_failHere
  | succ budget ih =>
    unfold Parser.statement
    refine gives_bind gives_peek ?_
    intro token _
    split
    · exact kept.declaration true budget
    · exact kept.declaration false budget
    · refine gives_bind (gives_advance kept.stable) fun _ _ => gives_bind (kept.condition budget) ?_
      intro condition test
      refine gives_bind ih ?_
      intro whenTrue first
      refine gives_bind (gives_acceptWord kept.stable) ?_
      intro other _
      have finish : ∀ whenFalse : Option Stmt, (∀ s, whenFalse = some s → stmt budget s) →
          Gives inv (return .branch condition whenTrue whenFalse) (stmt (budget + 1)) :=
        fun whenFalse second => gives_pure (kept.branch budget condition whenTrue whenFalse test first second)
      split
      · refine gives_bind (gives_bind ih fun s inside => gives_pure ?_) finish
        rintro _ ⟨⟩
        exact inside
      · exact gives_bind (gives_pure nofun) finish
    · refine gives_bind (gives_advance kept.stable) fun _ _ => gives_bind (kept.condition budget) ?_
      intro condition test
      refine gives_bind ih ?_
      intro body inside
      exact gives_pure (kept.loop budget condition body test inside)
    · exact kept.returnStatement budget
    · refine gives_bind (blocks kept.stable ih) ?_
      intro body inside
      exact gives_pure (kept.block budget body inside)
    · exact gives_bind (gives_advance kept.stable) fun _ _ => gives_pure (kept.empty budget)
    · exact gives_failHere
    · exact gives_failHere
    · exact kept.expressionStatement budget

private theorem gives_checkFree {declared : Std.HashSet String} {name : String} {line : Nat} :
    Gives inv (checkFree ctx declared name line) fun _ => True := by
  unfold checkFree
  split
  · exact gives_fail
  · split
    · exact gives_fail
    · split
      · exact gives_fail
      · exact gives_pure trivial

/-- What holds of a unit: of its globals, its functions and its statements. -/
structure OfUnit (fine : Nat → Prop) (operand : Nat → Expr → Prop) (stmt : Nat → Stmt → Prop)
    (globals : List GlobalDecl) (functions : List FunctionDecl) (statements : List Stmt) : Prop where
  globals : ∀ decl ∈ globals, Inner operand maxNesting decl.initial ∧ fine decl.line
  functions : ∀ decl ∈ functions, (∀ s ∈ decl.body, stmt maxNesting s) ∧ fine decl.line
  statements : ∀ s ∈ statements, stmt maxNesting s

theorem globalDeclaration (kept : Kept inv fine operand stmt) (declared : Std.HashSet String) :
    Gives inv (Parser.globalDeclaration ctx declared) fun decl => Inner operand maxNesting decl.initial ∧ fine decl.line := by
  refine gives_bind (gives_advance kept.stable) fun _ _ => gives_bind kept.line ?_
  intro line here
  refine gives_bind (gives_name kept.stable) fun name _ => gives_bind gives_checkFree fun _ _ => ?_
  refine gives_bind (gives_expect kept.stable) fun _ _ => gives_bind (kept.expression maxNesting) ?_
  intro initial inside
  exact gives_bind (gives_expect kept.stable) fun _ _ => gives_pure ⟨inside, here⟩

private theorem gives_parameter (stable : Stable inv) {before : List String} : Gives inv (parameter before) fun _ => True := by
  refine gives_bind gives_anyLine ?_
  intro line _
  refine gives_bind (gives_name stable) ?_
  intro name _
  split
  · exact gives_fail
  · exact gives_pure trivial

theorem functionDeclaration (kept : Kept inv fine operand stmt) (declared : Std.HashSet String) :
    Gives inv (Parser.functionDeclaration ctx declared) fun decl => (∀ s ∈ decl.body, stmt maxNesting s) ∧ fine decl.line := by
  refine gives_bind (gives_advance kept.stable) fun _ _ => gives_bind kept.line ?_
  intro line here
  refine gives_bind (gives_name kept.stable) fun name _ => gives_bind gives_checkFree fun _ _ => ?_
  refine gives_bind (gives_expect kept.stable) fun _ _ => gives_bind gives_isAt ?_
  intro closed _
  have finish : ∀ params : List String, True → Gives inv
      (do
        expect .rightParen .parametersEnd
        let body ← Parser.block (Parser.statement ctx maxNesting)
        return (⟨name, params, body, line⟩ : FunctionDecl))
      fun decl => (∀ s ∈ decl.body, stmt maxNesting s) ∧ fine decl.line := by
    intro params _
    refine gives_bind (gives_expect kept.stable) fun _ _ => gives_bind (blocks kept.stable (kept.statement maxNesting)) ?_
    intro body inside
    exact gives_pure ⟨inside, here⟩
  split
  · exact gives_bind (gives_pure trivial) finish
  · refine gives_bind ?_ finish
    intro s params s' within given
    exact ⟨(gives_separated kept.stable (fun _ => gives_parameter kept.stable) s params s' within given).1, trivial⟩

theorem topLevelItem (kept : Kept inv fine operand stmt) {done : Progress}
    (good : OfUnit fine operand stmt done.globals done.functions done.statements) :
    Gives inv (Parser.topLevelItem ctx done) fun result =>
      OfUnit fine operand stmt result.1.globals result.1.functions result.1.statements := by
  refine gives_bind gives_peek ?_
  intro token _
  split
  · exact gives_pure good
  · refine gives_bind (kept.globalDeclaration _) ?_
    intro decl inside
    exact gives_pure { good with globals := List.forall_mem_cons.mpr ⟨inside, good.globals⟩ }
  · refine gives_bind (kept.functionDeclaration _) ?_
    intro decl inside
    exact gives_pure { good with functions := List.forall_mem_cons.mpr ⟨inside, good.functions⟩ }
  · refine gives_bind (kept.statement maxNesting) ?_
    intro s inside
    exact gives_pure { good with statements := List.forall_mem_cons.mpr ⟨inside, good.statements⟩ }

theorem wholeUnit (kept : Kept inv fine operand stmt) (artifact : String) :
    Gives inv (Parser.wholeUnit ctx artifact) fun parsed =>
      OfUnit fine operand stmt parsed.globals parsed.functions parsed.statements := by
  refine gives_bind gives_settle fun _ _ => gives_bind (gives_iterate
    (fun done : Progress => OfUnit fine operand stmt done.globals done.functions done.statements)
    (fun _ => kept.topLevelItem) ⟨nofun, nofun, nofun⟩) ?_
  intro done good
  refine gives_pure ⟨?_, ?_, ?_⟩
  · simpa using good.globals
  · simpa using good.functions
  · simpa using good.statements

/-- What the productions of the grammar keep holds of every unit that is parsed. -/
theorem parse (kept : Kept inv fine operand stmt) {env : Environment} {source unit artifact : String} {tolerant : Bool}
    {parsed : ParsedUnit} (begun : inv (.start (.ofSource source)))
    (accepted : (env.parse source unit artifact tolerant).result = .ok parsed) :
    OfUnit fine operand stmt parsed.globals parsed.functions parsed.statements := by
  unfold Environment.parse at accepted
  split at accepted
  · rename_i made s run
    cases accepted
    exact (kept.wholeUnit _ _ _ _ begun run).2
  · cases accepted

end Kept

end Parser

end Scriptorium.Script
