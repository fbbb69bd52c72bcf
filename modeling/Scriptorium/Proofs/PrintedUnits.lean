import Scriptorium.Proofs.PrintedExpressions

/-!
# Parsing printed units

The statements of a printed unit are parsed one after the other, since none of them begins with an `else` that the one before
could take; and so are its declarations, since their names are new. Parsing undoes printing (`parse_print`), unless the unit nests
too deeply.
-/
namespace Scriptorium.Script

namespace Parser

variable {ctx : Context}

/-- A printed statement is parsed, unless an `else` after it would be taken for its own. -/
def ParsesStmt (ctx : Context) (s : Stmt) : Prop :=
  ∀ (budget : Nat) {rest : List Token}, (s.endsOpen = true → rest.head? ≠ some (.keyword .elseWord)) →
    Reads (statement ctx budget) (s.tokens ++ rest) (s.nesting ≤ budget) (s.onLine 1) rest

/-- Whether a token can begin a statement. -/
def opensStmt : Token → Bool
  | .keyword .varWord | .keyword .valWord | .keyword .ifWord | .keyword .whileWord | .keyword .returnWord => true
  | .symbol .leftBrace | .symbol .semicolon => true
  | token => opensExpr token

private theorem opensStmt_of_opensExpr {token : Token} (opens : opensExpr token = true) : opensStmt token = true := by
  unfold opensStmt
  split <;> trivial

private theorem stmt_tokens_begins {s : Stmt} (printable : s.Printable) :
    ∃ token tail, s.tokens = token :: tail ∧ opensStmt token := by
  cases printable with
  | @expr value plain =>
    obtain ⟨token, tail, begins, opens⟩ := tokens_begins plain
    rw [Stmt.tokens, begins]
    exact ⟨token, _, rfl, opensStmt_of_opensExpr opens⟩
  | declare word isMutable => cases isMutable <;> exact ⟨_, _, rfl, rfl⟩
  | branch | loop | giveBack | block | empty => exact ⟨_, _, rfl, rfl⟩

/-- No statement begins with an `else`. -/
theorem statements_head {body : List Stmt} (printable : ∀ s ∈ body, s.Printable) {rest : List Token}
    (other : rest.head? ≠ some (.keyword .elseWord)) : (body.flatMap Stmt.tokens ++ rest).head? ≠ some (.keyword .elseWord) := by
  cases body with
  | nil => exact other
  | cons s body =>
    obtain ⟨token, tail, begins, opens⟩ := stmt_tokens_begins (printable s List.mem_cons_self)
    rw [List.flatMap_cons, begins]
    rintro ⟨⟩
    cases opens

/-- Nothing is parsed without a budget, and no statement fits into none. -/
theorem ParsesStmt.of_succ {s : Stmt} (each : ∀ (budget : Nat) {rest : List Token},
    (s.endsOpen = true → rest.head? ≠ some (.keyword .elseWord)) →
      Reads (statement ctx (budget + 1)) (s.tokens ++ rest) (s.nesting ≤ budget + 1) (s.onLine 1) rest) : ParsesStmt ctx s := by
  intro budget rest closed
  cases budget with
  | zero => exact reads_refusal (Nat.not_le.mpr s.nesting_pos)
  | succ budget => exact each budget closed

private theorem reads_condition {e : Expr} (plain : e.Plain) (what : Expectation) (budget : Nat) (rest : List Token) :
    Reads (condition ctx what budget) (.symbol .leftParen :: (e.tokens ++ .symbol .rightParen :: rest)) (e.nesting + 1 ≤ budget)
      (e.onLine 1) rest :=
  reads_expect.after (((parses plain).whole budget closes_rightParen).before (reads_expect.after reads_pure))

private theorem reads_expressionStatement (ctx : Context) {e : Expr} (plain : e.Plain) (budget : Nat) (rest : List Token) :
    Reads (expressionStatement ctx budget) (e.tokens ++ .symbol .semicolon :: rest) (e.nesting + 1 ≤ budget) (.expr (e.onLine 1)) rest :=
  ((parses plain).whole budget closes_semicolon).before (reads_expect.after reads_pure)

private theorem reads_declaration (ctx : Context) {initial : Option Expr} {isMutable : Bool} (plain : ∀ e ∈ initial, e.Plain)
    (begun : isMutable = false → initial.isSome = true) (keyword : Token) (word : String) (budget : Nat) (rest : List Token) :
    Reads (declaration ctx isMutable budget)
      (keyword :: .name word :: (initial.elim [] (fun e => .symbol .assign :: e.tokens) ++ .symbol .semicolon :: rest))
      (initial.elim 0 (Expr.nesting · + 1) ≤ budget) (.declare word isMutable (initial.map (Expr.onLine 1)) 1) rest := by
  refine reads_advance.after (reads_line.after (reads_name.after ?_))
  cases initial with
  | none =>
    cases isMutable with
    | false => cases begun rfl
    | true =>
      refine Reads.congr ?_ (iff_of_true trivial (Nat.zero_le budget))
      exact (reads_reject (by simp)).after (reads_pure.after (reads_expect.after reads_pure))
  | some e =>
    refine reads_accept.after ?_
    exact ((parses (plain e rfl)).whole budget closes_semicolon).map.before (reads_expect.after reads_pure)

private theorem reads_return {value : Option Expr} (plain : ∀ e ∈ value, e.Plain) (budget : Nat) (rest : List Token) :
    Reads (returnStatement ctx budget) (.keyword .returnWord :: (value.elim [] Expr.tokens ++ .symbol .semicolon :: rest))
      (value.elim 0 (Expr.nesting · + 1) ≤ budget) (.giveBack (value.map (Expr.onLine 1)) 1) rest := by
  refine reads_line.after (reads_advance.after ?_)
  cases value with
  | none =>
    refine Reads.congr ?_ (iff_of_true trivial (Nat.zero_le budget))
    exact reads_at.after (reads_pure.after (reads_expect.after reads_pure))
  | some e =>
    obtain ⟨token, tail, begins, opens⟩ := tokens_begins (plain e rfl)
    have open' : ((some e).elim [] Expr.tokens ++ .symbol .semicolon :: rest).head? ≠ some (.symbol .semicolon) := by
      rw [Option.elim_some, begins]
      rintro ⟨⟩
      cases opens
    refine (reads_notAt open').after ?_
    exact ((parses (plain e rfl)).whole budget closes_semicolon).map.before (reads_expect.after reads_pure)

/-- Statements in braces, which is where the bodies of functions stand too. -/
theorem reads_block {body : List Stmt} (printable : ∀ s ∈ body, s.Printable) (known : ∀ s ∈ body, ParsesStmt ctx s) (budget : Nat)
    (rest : List Token) :
    Reads (block (statement ctx budget)) (.symbol .leftBrace :: (body.flatMap Stmt.tokens ++ .symbol .rightBrace :: rest))
      (∀ s ∈ body, s.nesting ≤ budget) (body.map (Stmt.onLine 1)) rest := by
  refine reads_expect.after ((reads_itemsUntil body ?_).before (reads_expect.after reads_pure))
  rintro before s others rfl
  obtain ⟨token, tail, begins, opens⟩ := stmt_tokens_begins (printable s (by simp))
  refine ⟨⟨token, tail, begins, ?_⟩, known s (by simp) budget fun _ => ?_⟩
  · rintro rfl
    cases opens
  · exact statements_head (fun s inside => printable s (by simp [inside])) (by simp)

/-- What begins as an expression is parsed as an expression. -/
theorem reads_statement_expr {budget : Nat} {token : Token} (opens : opensExpr token = true) {tokens rest : List Token} {fits : Prop}
    {s : Stmt} (reads : Reads (expressionStatement ctx budget) (token :: tokens) fits s rest) :
    Reads (statement ctx (budget + 1)) (token :: tokens) fits s rest := by
  rw [statement]
  refine reads_peek.after ?_
  cases token with
  | number value | text value | name word => exact reads
  | keyword word =>
    cases word with
    | trueWord | falseWord | nullWord => exact reads
    | _ => cases opens
  | symbol sign =>
    cases sign with
    | leftParen | bang | minus => exact reads
    | _ => cases opens

private theorem parses_statement (ctx : Context) {s : Stmt} (printable : s.Printable) : ParsesStmt ctx s := by
  induction printable with
  | @expr value plain =>
    refine .of_succ fun budget rest _ => ?_
    have reads := reads_expressionStatement ctx plain budget rest
    obtain ⟨token, tail, begins, opens⟩ := tokens_begins plain
    simp only [Stmt.tokens, Stmt.nesting, List.append_assoc, List.singleton_append]
    rw [begins] at reads ⊢
    exact (reads_statement_expr opens reads).congr (by omega)
  | @declare word isMutable initial line plain begun =>
    refine .of_succ fun budget rest _ => ?_
    have reads := reads_declaration ctx plain begun (.keyword (if isMutable then .varWord else .valWord)) word budget rest
    simp only [Stmt.tokens, Stmt.nesting, List.cons_append, List.append_assoc]
    rw [statement]
    refine reads_peek.after ?_
    cases isMutable with
    | true | false => exact reads.congr (by omega)
  | @branch condition whenTrue whenFalse test first second closed ihFirst ihSecond =>
    refine .of_succ fun budget rest closed' => ?_
    simp only [Stmt.tokens, Stmt.nesting, List.cons_append, List.append_assoc]
    rw [statement]
    refine reads_peek.after (reads_advance.after ?_)
    cases whenFalse with
    | none =>
      have other := closed' rfl
      simp only [Stmt.tokensIf, Stmt.nestingIf, List.nil_append]
      refine Reads.congr ((reads_condition test .ifParen budget _).bind ((ihFirst budget fun _ => other).before
        ((reads_rejectWord other).after (reads_pure.after reads_pure)))) ?_
      omega
    | some s =>
      have apart : whenTrue.endsOpen = true →
          (Token.keyword .elseWord :: (s.tokens ++ rest)).head? ≠ some (.keyword .elseWord) :=
        fun endsOpen => by simp [closed rfl] at endsOpen
      have inner := (ihSecond s rfl budget closed').map (g := some)
      simp only [Stmt.tokensIf, Stmt.nestingIf, List.cons_append]
      refine Reads.congr ((reads_condition test .ifParen budget _).bind ((ihFirst budget apart).bind
        (reads_acceptWord.after (inner.before reads_pure)))) ?_
      omega
  | @loop condition body test inside ih =>
    refine .of_succ fun budget rest closed => ?_
    simp only [Stmt.tokens, Stmt.nesting, List.cons_append, List.append_assoc]
    rw [statement]
    refine reads_peek.after (reads_advance.after ?_)
    exact Reads.congr ((reads_condition test .whileParen budget _).bind ((ih budget closed).before reads_pure)) (by omega)
  | @giveBack value line plain =>
    refine .of_succ fun budget rest _ => ?_
    simp only [Stmt.tokens, Stmt.nesting, List.cons_append, List.append_assoc]
    rw [statement]
    exact reads_peek.after ((reads_return plain budget rest).congr (by omega))
  | @block body inside ih =>
    refine .of_succ fun budget rest _ => ?_
    simp only [Stmt.tokens, Stmt.tokensOf_eq, Stmt.onLine, Stmt.onLineOf_eq, List.cons_append, List.append_assoc]
    rw [statement]
    refine reads_peek.after ((reads_block inside ih budget rest).map.congr ?_)
    rw [Stmt.nesting, Nat.add_le_add_iff_right, Stmt.nestingOf_le]
  | empty =>
    refine .of_succ fun budget rest _ => ?_
    rw [statement]
    exact Reads.congr (reads_peek.after (reads_advance.after reads_pure)) (by simp [Stmt.nesting])

/-! ## Units -/

/-- The names of a unit as a set. -/
def nameSet (names : List String) : Std.HashSet String := names.foldl Std.HashSet.insert ∅

private theorem nameSet_append (names : List String) (name : String) : nameSet (names ++ [name]) = (nameSet names).insert name := by
  rw [nameSet, List.foldl_append]
  rfl

private theorem mem_nameSet {names : List String} {name : String} : name ∈ nameSet names ↔ name ∈ names := by
  induction names using List.reverseRecOn with
  | nil => simp [nameSet]
  | append_singleton names last ih =>
    rw [nameSet_append, Std.HashSet.mem_insert, beq_iff_eq, ih, List.mem_append, List.mem_singleton, eq_comm, or_comm]

private theorem reads_checkFree {declared : Std.HashSet String} {name : String} (free : Free ctx declared name) (line : Nat)
    (rest : List Token) : Reads (checkFree ctx declared name line) rest True () rest := by
  obtain ⟨notNative, unknown, fresh⟩ := free
  have absent : declared.contains name = false := by simpa using fresh
  unfold checkFree
  simp only [notNative, unknown, absent]
  exact reads_pure

private theorem reads_global {declared : Std.HashSet String} {decl : GlobalDecl} (plain : decl.initial.Plain)
    (free : Free ctx declared decl.name) (rest : List Token) :
    Reads (globalDeclaration ctx declared) (decl.tokens ++ rest) (decl.initial.nesting + 1 ≤ maxNesting) (decl.onLine 1) rest := by
  simp only [GlobalDecl.tokens, List.cons_append, List.append_assoc]
  refine reads_advance.after (reads_line.after (reads_name.after ((reads_checkFree free 1 _).after (reads_expect.after ?_))))
  exact ((parses plain).whole maxNesting closes_semicolon).before (reads_expect.after reads_pure)

private theorem reads_parameters {params : List String} (distinct : params.Nodup) (filled : params ≠ []) (rest : List Token) :
    Reads (separated parameter) (commaSeparated (params.map fun param => [.name param]) ++ .symbol .rightParen :: rest) True params
      (.symbol .rightParen :: rest) := by
  have reads : Reads (separated parameter) (commaSeparated (params.map fun param => [.name param]) ++ .symbol .rightParen :: rest)
      (∀ param ∈ params, True) (params.map id) (.symbol .rightParen :: rest) := by
    refine reads_separated filled (by simp) ?_
    rintro before param others next rfl -
    have fresh : param ∉ (before.map id).reverse := by
      rw [List.map_id, List.mem_reverse]
      exact fun inside => (List.nodup_append.mp distinct).2.2 param inside param List.mem_cons_self rfl
    refine reads_line.after (reads_name.after ?_)
    rw [if_neg fresh]
    exact reads_pure.after reads_pure
  rw [List.map_id] at reads
  exact reads.congr (by simp)

private theorem reads_function {declared : Std.HashSet String} {decl : FunctionDecl} (distinct : decl.params.Nodup)
    (printable : ∀ s ∈ decl.body, s.Printable) (free : Free ctx declared decl.name) (rest : List Token) :
    Reads (functionDeclaration ctx declared) (decl.tokens ++ rest) (∀ s ∈ decl.body, s.nesting ≤ maxNesting) (decl.onLine 1) rest := by
  obtain ⟨word, params, body, line⟩ := decl
  have inner := reads_block printable (fun s inside => parses_statement ctx (printable s inside)) maxNesting rest
  simp only [FunctionDecl.tokens, List.cons_append, List.append_assoc]
  refine reads_advance.after (reads_line.after (reads_name.after ((reads_checkFree free 1 _).after (reads_expect.after ?_))))
  cases params with
  | nil => exact reads_at.after (reads_pure.after (reads_expect.after (inner.before reads_pure)))
  | cons param others =>
    have unclosed : (commaSeparated ((param :: others).map fun param => [.name param]) ++ .symbol .rightParen ::
        .symbol .leftBrace :: (body.flatMap Stmt.tokens ++ .symbol .rightBrace :: rest)).head? ≠ some (.symbol .rightParen) := by
      obtain ⟨tail, same⟩ := commaSeparated_begins rfl (others.map fun param => [Token.name param])
      rw [List.map_cons, same]
      rintro ⟨⟩
    refine (reads_notAt unclosed).after ?_
    exact (reads_parameters distinct (List.cons_ne_nil param others) _).after (reads_expect.after (inner.before reads_pure))

/-- What is known after some declarations and statements of a printed unit. -/
def progressOf (globals : List GlobalDecl) (functions : List FunctionDecl) (statements : List Stmt) : Progress where
  globals := (globals.map (GlobalDecl.onLine 1)).reverse
  functions := (functions.map (FunctionDecl.onLine 1)).reverse
  statements := (statements.map (Stmt.onLine 1)).reverse
  declared := nameSet (globals.map GlobalDecl.name ++ functions.map FunctionDecl.name)

private theorem progressOf_global (globals : List GlobalDecl) (decl : GlobalDecl) :
    ({ progressOf globals [] [] with
        globals := decl.onLine 1 :: (progressOf globals [] []).globals,
        declared := (progressOf globals [] []).declared.insert decl.name } : Progress) = progressOf (globals ++ [decl]) [] [] := by
  simp [progressOf, nameSet_append]

private theorem progressOf_function (globals : List GlobalDecl) (functions : List FunctionDecl) (decl : FunctionDecl) :
    ({ progressOf globals functions [] with
        functions := decl.onLine 1 :: (progressOf globals functions []).functions,
        declared := (progressOf globals functions []).declared.insert decl.name } : Progress) =
      progressOf globals (functions ++ [decl]) [] := by
  simp [progressOf, ← List.append_assoc, nameSet_append]

private theorem progressOf_statement (globals : List GlobalDecl) (functions : List FunctionDecl) (statements : List Stmt)
    (s : Stmt) : ({ progressOf globals functions statements with
        statements := s.onLine 1 :: (progressOf globals functions statements).statements } : Progress) =
      progressOf globals functions (statements ++ [s]) := by
  simp [progressOf]

/-- At the top level, what begins as a statement is parsed as a statement. -/
theorem reads_topLevelStatement {done : Progress} {s : Stmt} (printable : s.Printable) {rest : List Token}
    (other : rest.head? ≠ some (.keyword .elseWord)) :
    Reads (topLevelItem ctx done) (s.tokens ++ rest) (s.nesting ≤ maxNesting)
      ({ done with statements := s.onLine 1 :: done.statements }, true) rest := by
  have read := parses_statement ctx printable maxNesting fun _ => other
  obtain ⟨token, tail, begins, opens⟩ := stmt_tokens_begins printable
  rw [begins] at read ⊢
  refine reads_peek.after ?_
  cases token with
  | number value | text value | name word | symbol sign => exact read.before reads_pure
  | keyword word =>
    cases word with
    | globalWord | functionWord => cases opens
    | _ => exact read.before reads_pure

/-- Each of the names that a unit declares is new where it is declared. -/
theorem free_of_names {names before others : List String} {name : String} (distinct : names.Nodup)
    (new : ∀ name ∈ names, ctx.env.isNative name = false ∧ ctx.env.declaredIn name = none) (split : names = before ++ name :: others) :
    Free ctx (nameSet before) name := by
  subst split
  obtain ⟨notNative, unknown⟩ := new name (by simp)
  refine ⟨notNative, unknown, ?_⟩
  rw [mem_nameSet]
  exact fun inside => (List.nodup_append.mp distinct).2.2 name inside name List.mem_cons_self rfl

variable {literals : Nat → Literal} {unit : ParsedUnit}

private theorem reads_topLevelEnd (done : Progress) : Reads (topLevelItem ctx done) [] True (done, false) [] := by
  have head : Reads peek [] True none [] := reads_peek
  exact head.after reads_pure

private theorem reads_statements (printable : unit.Printable literals ctx.env) :
    Reads (iterate (topLevelItem ctx) (progressOf unit.globals unit.functions [])) (unit.statements.flatMap Stmt.tokens ++ [])
      ((∀ s ∈ unit.statements, s.nesting ≤ maxNesting) ∧ True) (progressOf unit.globals unit.functions unit.statements) [] := by
  refine reads_iterate unit.statements (progressOf unit.globals unit.functions) ?_ (reads_iterate_last (reads_topLevelEnd _))
  intro before s others split
  have known := printable.statements
  rw [split] at known
  have here := known s (by simp)
  obtain ⟨token, tail, begins, -⟩ := stmt_tokens_begins here
  refine ⟨by simp [begins], ?_⟩
  rw [← progressOf_statement]
  exact reads_topLevelStatement here (statements_head (fun s inside => known s (by simp [inside])) nofun)

private theorem reads_functions (printable : unit.Printable literals ctx.env) :
    Reads (iterate (topLevelItem ctx) (progressOf unit.globals [] []))
      (unit.functions.flatMap FunctionDecl.tokens ++ (unit.statements.flatMap Stmt.tokens ++ []))
      ((∀ decl ∈ unit.functions, ∀ s ∈ decl.body, s.nesting ≤ maxNesting) ∧ (∀ s ∈ unit.statements, s.nesting ≤ maxNesting) ∧ True)
      (progressOf unit.globals unit.functions unit.statements) [] := by
  refine reads_iterate unit.functions (fun before => progressOf unit.globals before []) ?_ (reads_statements printable)
  intro before decl others split
  obtain ⟨distinct, body⟩ := printable.functions decl (by simp [split])
  have names : unit.names = (unit.globals.map GlobalDecl.name ++ before.map FunctionDecl.name) ++
      decl.name :: others.map FunctionDecl.name := by
    rw [ParsedUnit.names, split, List.map_append, List.map_cons, List.append_assoc]
  refine ⟨by simp [FunctionDecl.tokens], ?_⟩
  rw [← progressOf_function]
  exact reads_peek.after
    ((reads_function distinct body (free_of_names printable.distinct printable.free names) _).before reads_pure)

private theorem reads_globals (printable : unit.Printable literals ctx.env) :
    Reads (iterate (topLevelItem ctx) (progressOf [] [] []))
      (unit.globals.flatMap GlobalDecl.tokens ++
        (unit.functions.flatMap FunctionDecl.tokens ++ (unit.statements.flatMap Stmt.tokens ++ [])))
      ((∀ decl ∈ unit.globals, decl.initial.nesting + 1 ≤ maxNesting) ∧
        (∀ decl ∈ unit.functions, ∀ s ∈ decl.body, s.nesting ≤ maxNesting) ∧ (∀ s ∈ unit.statements, s.nesting ≤ maxNesting) ∧ True)
      (progressOf unit.globals unit.functions unit.statements) [] := by
  refine reads_iterate unit.globals (fun before => progressOf before [] []) ?_ (reads_functions printable)
  intro before decl others split
  have plain := printable.globals decl (by simp [split])
  have names : unit.names = before.map GlobalDecl.name ++
      decl.name :: (others.map GlobalDecl.name ++ unit.functions.map FunctionDecl.name) := by
    rw [ParsedUnit.names, split, List.map_append, List.map_cons, List.append_assoc, List.cons_append]
  have free : Free ctx (progressOf before [] []).declared decl.name := by
    simp only [progressOf, List.map_nil, List.append_nil]
    exact free_of_names printable.distinct printable.free names
  refine ⟨by simp [GlobalDecl.tokens], ?_⟩
  rw [← progressOf_global]
  exact reads_peek.after ((reads_global plain free _).before reads_pure)

private theorem reads_wholeUnit (printable : unit.Printable literals ctx.env) (named : ctx.unit = unit.name) :
    Reads (wholeUnit ctx unit.artifact) unit.tokens unit.Fits (unit.onLine 1) [] := by
  have loop := reads_globals printable
  rw [List.append_nil] at loop
  have fits : ((∀ decl ∈ unit.globals, decl.initial.nesting + 1 ≤ maxNesting) ∧
      (∀ decl ∈ unit.functions, ∀ s ∈ decl.body, s.nesting ≤ maxNesting) ∧ (∀ s ∈ unit.statements, s.nesting ≤ maxNesting) ∧ True) ↔
      unit.Fits :=
    ⟨fun ⟨globals, functions, statements, _⟩ => ⟨globals, functions, statements⟩,
      fun ⟨globals, functions, statements⟩ => ⟨globals, functions, statements, trivial⟩⟩
  have finish : (⟨ctx.unit, unit.artifact, (progressOf unit.globals unit.functions unit.statements).globals.reverse,
      (progressOf unit.globals unit.functions unit.statements).functions.reverse,
      (progressOf unit.globals unit.functions unit.statements).statements.reverse⟩ : ParsedUnit) = unit.onLine 1 := by
    simp only [progressOf, List.reverse_reverse, named, ParsedUnit.onLine]
  rw [← finish]
  exact reads_settle.after ((loop.congr fits).before reads_pure)

end Parser

/-- Parsing undoes printing: what a unit is parsed to that was printed, whichever literals its numbers are written by, is the unit
itself, with every line the first, unless it nests deeper than the parser follows; then that is the error, and nothing is
declared. -/
theorem Environment.parse_print {literals : Nat → Literal} {env : Environment} {unit : ParsedUnit}
    (printable : unit.Printable literals env) (tolerant : Bool) :
    (unit.Fits ∧ env.parse (unit.print literals) unit.name unit.artifact tolerant =
      ⟨.ok (unit.onLine 1), [], env.declareUnit (unit.onLine 1)⟩) ∨
    (¬ unit.Fits ∧ env.parse (unit.print literals) unit.name unit.artifact tolerant =
      ⟨.error ⟨1, .nestedTooDeeply⟩, [], env⟩) := by
  have reads := @Parser.reads_wholeUnit ⟨unit.name, env, tolerant⟩ literals unit printable rfl
  have start : Parser.State.start (TokenStream.ofSource (unit.print literals)) = Parser.on unit.tokens :=
    congrArg Parser.State.start (ofSource_print printable.spelled)
  unfold Environment.parse
  rw [start]
  rcases reads with ⟨fits, run⟩ | ⟨deep, s, run, quiet⟩
  · rw [run]
    exact .inl ⟨fits, rfl⟩
  · rw [run]
    exact .inr ⟨deep, by simp only [quiet, List.reverse_nil]⟩

/-- A literal of a number. -/
def twoAndAHalf : Literal := ⟨['2'], ['5'], nofun, by simp, by simp⟩

/-- Another one of the same number. -/
def paddedTwoAndAHalf : Literal := ⟨['2'], ['5', '0', '0'], nofun, by simp, by simp⟩

theorem paddedTwoAndAHalf_value : paddedTwoAndAHalf.value = twoAndAHalf.value := by
  decide +kernel

/-- A unit with parentheses that are needed and some that are not, with lines that are lost, and with a number that stands in it
twice. -/
def shapesUnit : ParsedUnit where
  name := "shapes.zs"
  artifact := "shapes"
  globals := [⟨"rate", .number twoAndAHalf.value, 1⟩]
  functions := [⟨"area", ["width", "height"],
    [.branch (.unary .not (.name "width" 3) 3) (.giveBack none 3)
      (some (.loop (.binary .less (.name "height" 4) (.name "rate" 4) 4)
        (.expr (.assign "height" (.binary .add (.name "height" 5) (.number twoAndAHalf.value) 5) 5)))),
      .giveBack (some (.binary .multiply (.binary .add (.name "width" 6) (.name "height" 6) 6)
        (.unary .negate (.name "rate" 6) 6) 6)) 6], 2⟩]
  statements := [.expr (.call "area"
    [.binary .subtract (.binary .subtract (.name "rate" 8) (.name "rate" 8) 8)
      (.binary .subtract (.name "rate" 8) (.name "rate" 8) 8) 8,
      .binary .concat (.text "a \"b\"\n") .null 8] 8)]

/-- The literals of the unit: the first number is written in one way, and all later ones in another. -/
def shapesLiterals (i : Nat) : Literal := if i < 5 then twoAndAHalf else paddedTwoAndAHalf

/-- The unit as it is printed. -/
def shapesSource : String :=
  "global rate = 2.5 ; function area ( width , height ) \x7b " ++
    "if ( ! width ) return ; else while ( height < rate ) height = height + 2.500 ; return ( width + height ) * - rate ; \x7d " ++
    "area ( rate - rate - ( rate - rate ) , \"a \\\"b\\\"\\n\" ~ null ) ;"

private theorem shapesUnit_print : shapesUnit.print shapesLiterals = shapesSource := by
  decide +kernel

private theorem shapesUnit_printable : shapesUnit.Printable shapesLiterals (Environment.initial "group" [] []) where
  spelled := by
    have words : ∀ word ∈ ["rate", "area", "width", "height"], IsName word := by
      simp only [List.forall_mem_cons]
      exact ⟨⟨by decide +kernel, by decide +kernel⟩, ⟨by decide +kernel, by decide +kernel⟩,
        ⟨by decide +kernel, by decide +kernel⟩, ⟨by decide +kernel, by decide +kernel⟩, List.forall_mem_nil _⟩
    have literal (i : Nat) : (shapesLiterals i).value = twoAndAHalf.value := by
      unfold shapesLiterals
      split
      · rfl
      · exact paddedTwoAndAHalf_value
    intro i token here
    have inside := List.mem_of_getElem? here
    simp only [ParsedUnit.tokens, shapesUnit, List.flatMap_cons, List.flatMap_nil, GlobalDecl.tokens, FunctionDecl.tokens, Stmt.tokens,
      Stmt.tokensIf, Expr.tokens, Expr.tokensOf, Option.elim, enclosed, Expr.rank, Connective.rank, unaryRank, commaSeparated] at inside
    cases token with
    | number value =>
      simp at inside
      exact (literal i).trans inside.symm
    | name word =>
      refine words word ?_
      simp at inside ⊢
      tauto
    | text value | keyword word | symbol sign => trivial
  globals := by
    simp only [shapesUnit, List.forall_mem_singleton]
    exact .number _
  functions := by
    have named : ∀ name line, (Expr.name name line).Plain := .name
    simp only [shapesUnit, List.forall_mem_cons]
    refine ⟨⟨by decide, ?_, ?_, List.forall_mem_nil _⟩, List.forall_mem_nil _⟩
    · refine .branch (.unary _ _ (named _ _)) (.giveBack _ (by simp)) ?_ (fun _ => rfl)
      rintro _ ⟨⟩
      exact .loop (.apply (.binary .less) _ (named _ _) (named _ _))
        (.expr (.assign _ _ (.apply (.binary .add) _ (named _ _) (.number _))))
    · refine .giveBack _ ?_
      rintro _ ⟨⟩
      exact .apply (.binary .multiply) _ (.apply (.binary .add) _ (named _ _) (named _ _)) (.unary _ _ (named _ _))
  statements := by
    have named : ∀ name line, (Expr.name name line).Plain := .name
    have difference : ∀ {left right : Expr}, left.Plain → right.Plain → (Expr.binary .subtract left right 8).Plain :=
      .apply (.binary .subtract) 8
    simp only [shapesUnit, List.forall_mem_singleton]
    refine .expr (.call _ _ ?_)
    simp only [List.forall_mem_cons]
    exact ⟨difference (difference (named _ _) (named _ _)) (difference (named _ _) (named _ _)),
      .apply (.binary .concat) _ (.text _) .null, List.forall_mem_nil _⟩
  distinct := by decide
  free := by
    intro name _
    exact ⟨rfl, rfl⟩

private theorem shapesUnit_fits : shapesUnit.Fits where
  globals := by decide
  functions := by decide
  statements := by decide

/-- The unit, printed and parsed again. -/
theorem shapesUnit_parse_print :
    let env := Environment.initial "group" [] []
    shapesUnit.Printable shapesLiterals env ∧ shapesUnit.print shapesLiterals = shapesSource ∧
      env.parse shapesSource "shapes.zs" "shapes" false =
        ⟨.ok (shapesUnit.onLine 1), [], env.declareUnit (shapesUnit.onLine 1)⟩ := by
  refine ⟨shapesUnit_printable, shapesUnit_print, ?_⟩
  rw [← shapesUnit_print]
  rcases Environment.parse_print shapesUnit_printable false with ⟨-, parsed⟩ | ⟨deep, -⟩
  · exact parsed
  · exact absurd shapesUnit_fits deep

end Scriptorium.Script
