import Mathlib
import Scriptorium.Proofs.Emission
import Scriptorium.Proofs.Grammar

/-!
# Nesting

The compiler counts every node on the way into a tree. The parser does not count the way to a left operand, nor that to an
assigned value: its levels of operators begin anew at each operand, and a compound assignment makes two nodes at once. So the
limit of the parser does not cover that of the compiler (`deepSource_fails_group`); what the two limits do say is
`nesting_limits`.
-/
namespace Scriptorium

namespace Script

mutual

/-- How deep an expression is, where the step to a left operand or to an assigned value costs as much as given. -/
def Expr.depth (cost : Nat) (e : Expr) : Nat :=
  match e with
  | .number _ | .text _ | .bool _ | .null | .bracket _ _ | .name _ _ => 1
  | .assign _ value _ => value.depth cost + cost
  | .binary _ left right _ | .logical _ left right _ => max (left.depth cost + cost) (right.depth cost + 1)
  | .unary _ operand _ => operand.depth cost + 1
  | .call _ args _ => Expr.depthOf cost args + 1
termination_by structural e

def Expr.depthOf (cost : Nat) (args : List Expr) : Nat :=
  match args with
  | [] => 0
  | arg :: args => max (arg.depth cost) (Expr.depthOf cost args)
termination_by structural args

end

mutual

/-- How deep a statement is, its expressions included. -/
def Stmt.depth (cost : Nat) (s : Stmt) : Nat :=
  match s with
  | .expr value => value.depth cost + 1
  | .declare _ _ initial _ => initial.elim 0 (Expr.depth cost) + 1
  | .branch condition whenTrue whenFalse =>
    max (condition.depth cost) (max (whenTrue.depth cost) (Stmt.depthIf cost whenFalse)) + 1
  | .loop condition body => max (condition.depth cost) (body.depth cost) + 1
  | .giveBack value _ => value.elim 0 (Expr.depth cost) + 1
  | .block body => Stmt.depthOf cost body + 1
  | .empty => 1
termination_by structural s

def Stmt.depthOf (cost : Nat) (body : List Stmt) : Nat :=
  match body with
  | [] => 0
  | s :: body => max (s.depth cost) (Stmt.depthOf cost body)
termination_by structural body

def Stmt.depthIf (cost : Nat) (s : Option Stmt) : Nat :=
  match s with
  | some s => s.depth cost
  | none => 0
termination_by structural s

end

/-- No initial value, statement of a function or statement of a unit is deeper than a limit. -/
structure ParsedUnit.NestsWithin (cost limit : Nat) (parsed : ParsedUnit) : Prop where
  globals : ∀ decl ∈ parsed.globals, decl.initial.depth cost ≤ limit
  functions : ∀ decl ∈ parsed.functions, ∀ s ∈ decl.body, s.depth cost ≤ limit
  statements : ∀ s ∈ parsed.statements, s.depth cost ≤ limit

theorem Expr.depthOf_le {cost limit : Nat} {args : List Expr} :
    Expr.depthOf cost args ≤ limit ↔ ∀ arg ∈ args, arg.depth cost ≤ limit := by
  induction args with
  | nil => simp [Expr.depthOf]
  | cons arg args ih => simp [Expr.depthOf, ih]

theorem Stmt.depthOf_le {cost limit : Nat} {body : List Stmt} :
    Stmt.depthOf cost body ≤ limit ↔ ∀ s ∈ body, s.depth cost ≤ limit := by
  induction body with
  | nil => simp [Stmt.depthOf]
  | cons s body ih => simp [Stmt.depthOf, ih]

/-! ## The limit of the parser -/

namespace Parser

/-- An operand that is parsed within a budget is one level deeper at the most. -/
def Counted (budget : Nat) (e : Expr) : Prop := e.depth 0 ≤ budget + 1

theorem Inner.counted {budget : Nat} {e : Expr} (inner : Inner Counted budget e) : e.depth 0 ≤ budget := by
  cases budget with
  | zero => exact inner.elim
  | succ budget => exact inner

private theorem kept_counted : Kept (fun _ => True) (fun _ => True) Counted (fun budget s => s.depth 0 ≤ budget) where
  stable := ⟨fun _ _ => trivial, fun _ _ _ => trivial⟩
  lines _ _ := trivial
  number _ _ := Nat.le_add_left 1 _
  text _ _ := Nat.le_add_left 1 _
  bool _ _ := Nat.le_add_left 1 _
  null _ := Nat.le_add_left 1 _
  bracket _ _ _ := Nat.le_add_left 1 _
  name _ _ _ _ := Nat.le_add_left 1 _
  group _ _ counted := Nat.le_succ_of_le counted
  call budget name args line _ inside := by
    have all : Expr.depthOf 0 args ≤ budget := Expr.depthOf_le.mpr fun arg present => (inside arg present).counted
    simpa only [Counted, Expr.depth, Nat.add_le_add_iff_right] using all
  unary budget op e line _ counted := by
    simpa only [Counted, Expr.depth, Nat.add_le_add_iff_right] using counted
  apply most budget op line left right smaller _ first second := by
    simp only [Counted] at first second
    cases op with
    | binary op | logical op =>
      simp only [Counted, Connective.apply, Expr.depth, Nat.add_zero]
      omega
  assign budget name op value line _ _ _ inside := by
    have counted := inside.counted
    cases op with
    | none | some op =>
      simp only [Counted, assigned, Expr.depth, Nat.add_zero]
      omega
  expr budget value inside := by
    simpa only [Stmt.depth, Nat.add_le_add_iff_right] using inside.counted
  declare budget name isMutable initial line _ inside := by
    cases initial with
    | none => exact Nat.le_add_left 1 _
    | some e => simpa only [Stmt.depth, Option.elim_some, Nat.add_le_add_iff_right] using (inside e rfl).counted
  branch budget condition whenTrue whenFalse test first second := by
    have counted := test.counted
    have other : Stmt.depthIf 0 whenFalse ≤ budget := by
      cases whenFalse with
      | none => exact Nat.zero_le _
      | some s => exact second s rfl
    simp only [Stmt.depth]
    omega
  loop budget condition body test inside := by
    have counted := test.counted
    simp only [Stmt.depth]
    omega
  giveBack budget value line _ inside := by
    cases value with
    | none => exact Nat.le_add_left 1 _
    | some e => simpa only [Stmt.depth, Option.elim_some, Nat.add_le_add_iff_right] using (inside e rfl).counted
  block budget body inside := by
    simpa only [Stmt.depth, Nat.add_le_add_iff_right] using Stmt.depthOf_le.mpr inside
  empty _ := Nat.le_add_left 1 _

end Parser

/-- A unit that is parsed nests within the limit of the parser, as the parser counts. -/
theorem parse_nestsWithin {env : Environment} {source unit artifact : String} {tolerant : Bool} {parsed : ParsedUnit}
    (accepted : (env.parse source unit artifact tolerant).result = .ok parsed) : parsed.NestsWithin 0 maxNesting := by
  obtain ⟨globals, functions, statements⟩ := Parser.kept_counted.parse trivial accepted
  exact ⟨fun decl inside => (globals decl inside).1.counted, fun decl inside => (functions decl inside).1, statements⟩

end Script

namespace Compile

open Script (Environment Expr Stmt ParsedUnit)

/-! ## The limit of the compiler -/

/-- Compiling that succeeds only where something fits into the limit, and that fails for the limit only where it does not. -/
def Limited {α : Type} (fits : Prop) : Except CompileError α → Prop
  | .ok _ => fits
  | .error error => error.cause = .nestedTooDeeply → ¬ fits

section
variable {α β : Type} {fits more : Prop}

theorem Limited.bind {first : Except CompileError α} {rest : α → Except CompileError β} (limited : Limited fits first)
    (after : ∀ a, Limited more (rest a)) : Limited (fits ∧ more) (first >>= rest) := by
  cases first with
  | error error => exact fun cause both => limited cause both.1
  | ok a =>
    have next := after a
    show Limited (fits ∧ more) (rest a)
    cases result : rest a with
    | error error =>
      rw [result] at next
      exact fun cause both => next cause both.2
    | ok b =>
      rw [result] at next
      exact ⟨limited, next⟩

theorem Limited.congr {result : Except CompileError α} (limited : Limited fits result) (same : fits ↔ more) : Limited more result := by
  rwa [propext same] at limited

/-- What comes after may fail, but not for the limit. -/
theorem Limited.before {first : Except CompileError α} {rest : α → Except CompileError β} (limited : Limited fits first)
    (quiet : ∀ a, Limited True (rest a)) : Limited fits (first >>= rest) :=
  (limited.bind quiet).congr (iff_of_eq (and_true fits))

/-- What comes before may fail, but not for the limit. -/
theorem Limited.after {first : Except CompileError α} {rest : α → Except CompileError β} (quiet : Limited True first)
    (limited : ∀ a, Limited fits (rest a)) : Limited fits (first >>= rest) :=
  (quiet.bind limited).congr (iff_of_eq (true_and fits))

private theorem limited_mapM {f : α → Except CompileError β} {list : List α} {fit : α → Prop}
    (each : ∀ a ∈ list, Limited (fit a) (f a)) : Limited (∀ a ∈ list, fit a) (list.mapM f) := by
  induction list with
  | nil =>
    rw [List.mapM_nil]
    exact nofun
  | cons a list ih =>
    obtain ⟨first, rest⟩ := List.forall_mem_cons.mp each
    have pushed : ∀ b (others : List β), Limited True (pure (b :: others)) := fun _ _ => trivial
    rw [List.mapM_cons]
    exact (first.bind fun b => (ih rest).before (pushed b)).congr (by simp)

/-- Making code that is limited, wherever it stands. -/
def Coding.Limited (fits : Prop) (code : Coding α) : Prop := ∀ progress, Compile.Limited fits (code progress)

private theorem coding_bind {first : Coding α} {rest : α → Coding β} (limited : first.Limited fits)
    (after : ∀ a, (rest a).Limited more) : (first >>= rest).Limited (fits ∧ more) :=
  fun progress => (limited progress).bind fun result => after result.1 result.2

private theorem coding_after {first : Coding α} {rest : α → Coding β} (quiet : first.Limited True)
    (limited : ∀ a, (rest a).Limited fits) : (first >>= rest).Limited fits :=
  fun progress => (quiet progress).after fun result => limited result.1 result.2

private theorem coding_before {first : Coding α} {rest : α → Coding β} (limited : first.Limited fits)
    (quiet : ∀ a, (rest a).Limited True) : (first >>= rest).Limited fits :=
  fun progress => (limited progress).before fun result => quiet result.1 result.2

theorem Coding.Limited.congr {code : Coding α} (limited : code.Limited fits) (same : fits ↔ more) : code.Limited more :=
  fun progress => (limited progress).congr same

private theorem quiet_pure (a : α) : Coding.Limited True (pure a) := fun _ => trivial

private theorem limited_fail {ctx : Context} {cause : CompileCause} (other : cause ≠ .nestedTooDeeply) :
    Coding.Limited fits (fail ctx cause : Coding α) := fun _ same _ => other same

private theorem limited_refusal {ctx : Context} (beyond : ¬ fits) : Coding.Limited fits (fail ctx .nestedTooDeeply : Coding α) :=
  fun _ _ => beyond

end

section
variable {ctx : Context} {scope : Scope}

private theorem quiet_lookAt (line : Nat) : (lookAt line).Limited True := fun _ => trivial

private theorem quiet_emit (instruction : Bytecode.Instruction) : (emit instruction).Limited True := fun _ => trivial

private theorem quiet_get : (get : Coding Progress).Limited True := fun _ => trivial

private theorem quiet_constantIndex (value : Value) : (constantIndex ctx value).Limited True := by
  intro progress
  unfold constantIndex
  simp only
  split
  · trivial
  · exact nofun

private theorem quiet_pushConstant (value : Value) : (pushConstant ctx value).Limited True :=
  coding_after (quiet_constantIndex value) fun _ => quiet_emit _

private theorem quiet_nameIndex (name : String) : (nameIndex ctx name).Limited True := quiet_constantIndex _

private theorem quiet_distance {bytes : Nat} {cause : CompileCause} (other : cause ≠ .nestedTooDeeply) :
    (distance ctx bytes cause).Limited True := by
  unfold distance
  split
  · exact quiet_pure _
  · exact limited_fail other

private theorem quiet_declareLocal (name : String) (isMutable : Bool) : (declareLocal ctx scope name isMutable).Limited True := by
  unfold declareLocal
  split
  · exact limited_fail nofun
  · split
    · exact limited_fail nofun
    · exact quiet_pure _

private theorem quiet_readVariable (name : String) : (readVariable ctx scope name).Limited True := by
  unfold readVariable
  split
  · exact quiet_emit _
  · split
    · exact coding_after (quiet_nameIndex name) fun _ => quiet_emit _
    · split
      · exact limited_fail nofun
      · exact limited_fail nofun

private theorem quiet_writeVariable (name : String) : (writeVariable ctx scope name).Limited True := by
  unfold writeVariable
  split
  · split
    · exact quiet_emit _
    · exact limited_fail nofun
  · split
    · exact coding_after (quiet_nameIndex name) fun _ => quiet_emit _
    · exact limited_fail nofun

private theorem callFault?_ne {name : String} {count : Nat} {cause : CompileCause}
    (fault : callFault? ctx scope name count = some cause) : cause ≠ .nestedTooDeeply := by
  unfold callFault? at fault
  rintro rfl
  split at fault
  · cases fault
  · split at fault
    · cases fault
    · split at fault
      · split at fault
        · cases fault
        · cases fault
      · split at fault
        · split at fault
          · cases fault
          · cases fault
        · cases fault

private theorem depth_pos (e : Expr) : ¬ e.depth 1 ≤ 0 := by
  cases e <;> simp [Expr.depth]

private theorem stmt_depth_pos (s : Stmt) : ¬ s.depth 1 ≤ 0 := by
  cases s <;> simp [Stmt.depth]

end

section
variable (ctx : Context)

mutual

/-- An expression is refused for the limit where it is deeper than what is left of it. -/
theorem expression_limited (scope : Scope) (budget : Nat) (e : Expr) :
    (expression ctx scope budget e).Limited (e.depth 1 ≤ budget) := by
  match budget, e with
  | 0, e =>
    unfold expression
    exact limited_refusal (depth_pos e)
  | budget + 1, .number _ | budget + 1, .text _ =>
    exact fun progress => (quiet_pushConstant _ progress).congr (by simp [Expr.depth])
  | budget + 1, .bool true | budget + 1, .bool false | budget + 1, .null | budget + 1, .bracket _ .null =>
    exact fun progress => (quiet_emit _ progress).congr (by simp [Expr.depth])
  | budget + 1, .bracket _ (.number _) | budget + 1, .bracket _ (.text _) | budget + 1, .bracket _ (.bool _) =>
    exact fun progress => (quiet_pushConstant _ progress).congr (by simp [Expr.depth])
  | budget + 1, .name name line =>
    refine (coding_after (quiet_lookAt line) fun _ => quiet_readVariable name).congr (by simp [Expr.depth])
  | budget + 1, .assign name value line =>
    have inside := expression_limited scope budget value
    unfold expression
    refine (coding_after (quiet_lookAt line) fun _ => coding_before inside fun _ => ?_).congr (by simp [Expr.depth])
    exact coding_after (quiet_lookAt line) fun _ => coding_after (quiet_writeVariable name) fun _ => quiet_pure _
  | budget + 1, .binary op left right line =>
    have first := expression_limited scope budget left
    have second := expression_limited scope budget right
    unfold expression
    refine (coding_bind first fun _ => coding_before second fun _ => ?_).congr (by simp [Expr.depth])
    exact coding_after (quiet_lookAt line) fun _ => coding_after (quiet_emit _) fun _ => quiet_pure _
  | budget + 1, .logical op left right line =>
    have first := expression_limited scope budget left
    have second := expression_limited scope budget right
    unfold expression
    refine (coding_bind first fun _ => coding_after (quiet_lookAt line) fun _ => coding_after (quiet_emit _) fun _ =>
      coding_before second fun _ => ?_).congr (by simp [Expr.depth])
    exact coding_after (quiet_distance (by decide)) fun _ => quiet_pure _
  | budget + 1, .unary op operand line =>
    have inside := expression_limited scope budget operand
    unfold expression
    refine (coding_before inside fun _ => ?_).congr (by simp [Expr.depth])
    exact coding_after (quiet_lookAt line) fun _ => coding_after (quiet_emit _) fun _ => quiet_pure _
  | budget + 1, .call name args line =>
    have inside := arguments_limited scope budget args
    unfold expression
    refine coding_after (quiet_lookAt line) fun _ => ?_
    split
    · exact limited_fail (callFault?_ne ‹_›)
    · refine (coding_before inside fun _ => ?_).congr (by simp [Expr.depth])
      exact coding_after (quiet_lookAt line) fun _ => coding_after (quiet_nameIndex name) fun _ =>
        coding_after (quiet_emit _) fun _ => quiet_pure _
termination_by structural e

theorem arguments_limited (scope : Scope) (budget : Nat) (args : List Expr) :
    (arguments ctx scope budget args).Limited (Expr.depthOf 1 args ≤ budget) := by
  match args with
  | [] => exact (quiet_pure _).congr (by simp [Expr.depthOf])
  | arg :: args =>
    have first := expression_limited scope budget arg
    have rest := arguments_limited scope budget args
    unfold arguments
    exact (coding_bind first fun _ => coding_before rest fun _ => quiet_pure _).congr (by simp [Expr.depthOf])
termination_by structural args

end

private theorem expressionOrNull_limited (scope : Scope) (budget : Nat) (e : Option Expr) :
    (expressionOrNull ctx scope budget e).Limited (e.elim 0 (Expr.depth 1) ≤ budget) := by
  cases e with
  | none => exact (quiet_emit _).congr (by simp)
  | some e => exact expression_limited ctx scope budget e

private theorem quiet_closing (code : Bytecode.Segment) (inner : Scope) : (closing code inner).Limited True :=
  coding_after quiet_get fun _ => quiet_pure _

mutual

/-- A statement is refused for the limit where it is deeper than what is left of it. -/
theorem statement_limited (scope : Scope) (budget : Nat) (s : Stmt) :
    (statement ctx scope budget s).Limited (s.depth 1 ≤ budget) := by
  match budget, s with
  | 0, s =>
    unfold statement
    exact limited_refusal (stmt_depth_pos s)
  | budget + 1, .expr value =>
    unfold statement
    refine (coding_before (expression_limited ctx scope budget value) fun _ => ?_).congr (by simp [Stmt.depth])
    exact coding_after (quiet_emit _) fun _ => quiet_pure _
  | budget + 1, .declare name isMutable initial line =>
    unfold statement
    refine (coding_after (quiet_lookAt line) fun _ =>
      coding_before (expressionOrNull_limited ctx scope budget initial) fun _ => ?_).congr (by simp [Stmt.depth])
    exact coding_after (quiet_declareLocal name isMutable) fun _ => quiet_pure _
  | budget + 1, .branch condition whenTrue whenFalse =>
    have first := statement_limited scope.nested budget whenTrue
    have second := optionalBranch_limited scope budget whenFalse
    have parts : (statement ctx scope (budget + 1) (.branch condition whenTrue whenFalse)).Limited
        (condition.depth 1 ≤ budget ∧ whenTrue.depth 1 ≤ budget ∧ Stmt.depthIf 1 whenFalse ≤ budget) := by
      unfold statement
      refine coding_bind (expression_limited ctx scope budget condition) fun conditionCode => ?_
      refine coding_after quiet_get fun _ => coding_after (quiet_emit _) fun popTested => ?_
      refine coding_bind first fun made => ?_
      refine coding_after (quiet_closing _ _) fun trueCode => ?_
      refine coding_after quiet_get fun _ => coding_after (quiet_distance (by decide)) fun _ => ?_
      refine coding_after (quiet_emit _) fun _ => coding_before second fun falseCode => ?_
      exact coding_after (quiet_distance (by decide)) fun _ => quiet_pure _
    exact parts.congr (by simp [Stmt.depth])
  | budget + 1, .loop condition body =>
    have inside := statement_limited scope.nested budget body
    unfold statement
    refine (coding_bind (expression_limited ctx scope budget condition) fun _ => coding_after quiet_get fun _ =>
      coding_after (quiet_emit _) fun _ => coding_before inside fun _ => ?_).congr (by simp [Stmt.depth])
    exact coding_after (quiet_closing _ _) fun _ => coding_after quiet_get fun _ => coding_after (quiet_distance (by decide)) fun _ =>
      coding_after (quiet_distance (by decide)) fun _ => coding_after (quiet_emit _) fun _ => quiet_pure _
  | budget + 1, .giveBack value line =>
    unfold statement
    refine (coding_after (quiet_lookAt line) fun _ =>
      coding_before (expressionOrNull_limited ctx scope budget value) fun _ => ?_).congr (by simp [Stmt.depth])
    exact coding_after (quiet_emit _) fun _ => quiet_pure _
  | budget + 1, .block body =>
    have inside := statements_limited scope.nested budget body
    unfold statement
    refine (coding_before inside fun _ => ?_).congr (by simp [Stmt.depth])
    exact coding_after (quiet_closing _ _) fun _ => quiet_pure _
  | budget + 1, .empty => exact (quiet_pure _).congr (by simp [Stmt.depth])
termination_by structural s

private theorem statements_limited (scope : Scope) (budget : Nat) (body : List Stmt) :
    (statements ctx scope budget body).Limited (Stmt.depthOf 1 body ≤ budget) := by
  match body with
  | [] => exact (quiet_pure _).congr (by simp [Stmt.depthOf])
  | s :: body =>
    have first := statement_limited scope budget s
    have rest := fun scope => statements_limited scope budget body
    unfold statements
    exact (coding_bind first fun made => coding_before (rest made.2) fun _ => quiet_pure _).congr (by simp [Stmt.depthOf])
termination_by structural body

theorem optionalBranch_limited (scope : Scope) (budget : Nat) (s : Option Stmt) :
    (optionalBranch ctx scope budget s).Limited (Stmt.depthIf 1 s ≤ budget) := by
  match s with
  | none => exact (quiet_pure _).congr (by simp [Stmt.depthIf])
  | some s =>
    have inside := statement_limited scope.nested budget s
    unfold optionalBranch
    exact (coding_before inside fun made => quiet_closing made.1 made.2).congr (by simp [Stmt.depthIf])
termination_by structural s

end

private theorem body_limited (scope : Scope) (statements : List Stmt) :
    (body ctx scope statements).Limited (∀ s ∈ statements, s.depth 1 ≤ maxNesting) :=
  (coding_before (statements_limited ctx scope maxNesting statements) fun _ => quiet_pure _).congr Stmt.depthOf_le

private theorem quiet_parameters (params : List String) : (parameters ctx params).Limited True := by
  unfold parameters
  generalize Scope.empty = scope
  induction params generalizing scope with
  | nil => exact quiet_pure _
  | cons param params ih =>
    rw [List.foldlM_cons]
    exact coding_after (quiet_declareLocal _ _) ih

private theorem chunk_limited {code : Coding Bytecode.Segment} {fits : Prop} (limited : code.Limited fits) (line : Nat)
    (debug : Bool) : Limited fits (chunk code line debug) := by
  unfold chunk
  refine Limited.before (coding_before limited (fun first => ?_) ⟨#[], line⟩) fun _ => trivial
  exact coding_after (coding_after (quiet_emit _) fun _ => coding_after (quiet_emit _) fun _ => quiet_pure _) fun _ => quiet_pure _

private theorem function_limited (debug : Bool) (decl : Script.FunctionDecl) :
    Limited (∀ s ∈ decl.body, s.depth 1 ≤ maxNesting) (function ctx debug decl) := by
  have code := coding_after (quiet_parameters ctx decl.params) fun scope => body_limited ctx scope decl.body
  exact Limited.before (chunk_limited code decl.line debug) fun _ => trivial

private theorem globalCode_limited (decl : Script.GlobalDecl) : (globalCode ctx decl).Limited
    (decl.initial.depth 1 ≤ maxNesting) := by
  refine coding_after (quiet_lookAt decl.line) fun _ =>
    coding_before (expression_limited ctx Scope.empty maxNesting decl.initial) fun _ => ?_
  exact coding_after (quiet_nameIndex decl.name) fun _ => coding_after (quiet_emit _) fun _ => quiet_pure _

private theorem globalsCode_limited (decls : List Script.GlobalDecl) :
    (globalsCode ctx decls).Limited (∀ decl ∈ decls, decl.initial.depth 1 ≤ maxNesting) := by
  induction decls with
  | nil => exact (quiet_pure _).congr (by simp)
  | cons decl decls ih =>
    unfold globalsCode
    exact (coding_bind (globalCode_limited ctx decl) fun _ => coding_before ih fun _ => quiet_pure _).congr (by simp)

end

section
variable (env : Environment) (debug : Bool)

private theorem initialValues_limited (parsed : ParsedUnit) :
    Limited (∀ decl ∈ parsed.globals, decl.initial.depth 1 ≤ maxNesting) (initialValues env debug parsed) :=
  Limited.before (chunk_limited (globalsCode_limited ⟨parsed.name, env⟩ parsed.globals) firstLine debug) fun _ => trivial

private theorem compileUnit_limited (parsed : ParsedUnit) :
    Limited ((∀ decl ∈ parsed.functions, ∀ s ∈ decl.body, s.depth 1 ≤ maxNesting) ∧ ∀ s ∈ parsed.statements, s.depth 1 ≤ maxNesting)
      (compileUnit env debug parsed) := by
  refine Limited.bind (limited_mapM fun decl _ => function_limited ⟨parsed.name, env⟩ debug decl) fun functions => ?_
  exact Limited.before (chunk_limited (body_limited ⟨parsed.name, env⟩ Scope.empty parsed.statements) firstLine debug) fun _ =>
    trivial

private theorem quiet_checkNames (used : List (String × String)) (units : List ParsedUnit) : Limited True
    (checkNames used units) := by
  induction units generalizing used with
  | nil => trivial
  | cons parsed units ih =>
    unfold checkNames
    split
    · exact nofun
    · split
      · exact nofun
      · exact ih _

private theorem compileInitials_limited (units : List ParsedUnit) :
    Limited (∀ parsed ∈ units, ∀ decl ∈ parsed.globals, decl.initial.depth 1 ≤ maxNesting) (compileInitials env debug units) := by
  have some_globals : Limited (∀ parsed ∈ units.filter (!·.globals.isEmpty), ∀ decl ∈ parsed.globals,
      decl.initial.depth 1 ≤ maxNesting) (compileInitials env debug units) :=
    Limited.after (quiet_checkNames [] units) fun _ => limited_mapM fun parsed _ => initialValues_limited env debug parsed
  refine some_globals.congr ⟨?_, ?_⟩
  · intro fits parsed inside decl here
    have kept : parsed ∈ units.filter (!·.globals.isEmpty) := by
      rw [List.mem_filter, Bool.not_eq_true', List.isEmpty_eq_false_iff]
      exact ⟨inside, List.ne_nil_of_mem here⟩
    exact fits parsed kept decl here
  · intro fits parsed kept
    exact fits parsed (List.mem_of_mem_filter kept)

private theorem storeUnits_limited (units : List ParsedUnit) (artifacts : ArtifactSet) :
    Limited (∀ parsed ∈ units, (∀ decl ∈ parsed.functions, ∀ s ∈ decl.body, s.depth 1 ≤ maxNesting) ∧
      ∀ s ∈ parsed.statements, s.depth 1 ≤ maxNesting) (storeUnits env debug artifacts units).result := by
  induction units generalizing artifacts with
  | nil => exact nofun
  | cons parsed units ih =>
    have first := compileUnit_limited env debug parsed
    unfold storeUnits
    cases compiled : compileUnit env debug parsed with
    | error error =>
      rw [compiled] at first
      exact fun cause all => first cause (List.forall_mem_cons.mp all).1
    | ok made =>
      rw [compiled] at first
      simp only [List.forall_mem_cons]
      exact Limited.congr (ih _) ⟨fun rest => ⟨first, rest⟩, And.right⟩

/-- A group is refused for the limit where a unit of it nests deeper, as the compiler counts. -/
theorem compileGroup_limited (units : List ParsedUnit) (artifacts : ArtifactSet) :
    Limited (∀ parsed ∈ units, parsed.NestsWithin 1 maxNesting) (compileGroup env debug units artifacts).result := by
  have first := compileInitials_limited env debug units
  unfold compileGroup
  cases compiled : compileInitials env debug units with
  | error error =>
    rw [compiled] at first
    exact fun cause all => first cause fun parsed inside => (all parsed inside).globals
  | ok initials =>
    rw [compiled] at first
    have second := storeUnits_limited env debug units (artifacts.insert Bytecode.initArtifact (Bytecode.initialsPayload initials))
    simp only
    cases stored : (storeUnits env debug (artifacts.insert Bytecode.initArtifact (Bytecode.initialsPayload initials)) units).result with
    | error error =>
      rw [stored] at second
      simp only [stored]
      exact fun cause all => second cause fun parsed inside => ⟨(all parsed inside).functions, (all parsed inside).statements⟩
    | ok done =>
      rw [stored] at second
      simp only
      exact fun parsed inside => ⟨first parsed inside, (second parsed inside).1, (second parsed inside).2⟩

end

/-- What the two limits say of a group that is parsed: as the parser counts, its units nest within the limit of the parser; if it
compiles, they nest within the limit of the compiler as the compiler counts; and if it is refused for that limit, one of them
does not. -/
theorem nesting_limits {start env : Environment} {inputs : List Script.Input} {units : List ParsedUnit}
    (parsed : start.parseAll inputs = (units, env)) (debug : Bool) (artifacts : ArtifactSet) :
    (∀ unit ∈ units, unit.NestsWithin 0 Script.maxNesting) ∧
    match (compileGroup env debug units artifacts).result with
    | .ok () => ∀ unit ∈ units, unit.NestsWithin 1 maxNesting
    | .error error => error.cause = .nestedTooDeeply → ∃ unit ∈ units, ¬ unit.NestsWithin 1 maxNesting := by
  refine ⟨?_, ?_⟩
  · intro unit inside
    rw [← show (start.parseAll inputs).1 = units from congrArg Prod.fst parsed] at inside
    obtain ⟨input, -, before, accepted⟩ := Environment.mem_parseAll inside
    exact Script.parse_nestsWithin accepted
  · have limited := compileGroup_limited env debug units artifacts
    cases result : (compileGroup env debug units artifacts).result with
    | ok done =>
      rw [result] at limited
      exact limited
    | error error =>
      rw [result] at limited
      intro cause
      simpa only [not_forall, exists_prop] using limited cause

/-- The text of compound assignments, each inside the one before. -/
def deepText : List Char := "var a;".toList ++ (List.replicate 64 ['a', '+', '=']).flatten ++ ['a', ';']

/-- The script of the text. -/
def deepSource : String := String.ofList deepText

/-- Compound assignments, each inside the one before. -/
def assignments : Nat → Expr
  | 0 => .name "a" 1
  | n + 1 => .assign "a" (.binary .add (.name "a" 1) (assignments n) 1) 1

/-- The syntax tree of the script. -/
def deepUnit : ParsedUnit := ⟨"deep.zs", "deep", [], [], [.declare "a" true none 1, .expr (assignments 64)]⟩

private theorem assignments_depth (n : Nat) : (assignments n).depth 1 = 2 * n + 1 := by
  induction n with
  | zero => rfl
  | succ n ih =>
    simp only [assignments, Expr.depth, ih]
    omega

/-- The tokens of the script. -/
def deepTokens : Script.TokenStream :=
  ⟨[⟨.keyword .varWord, 1⟩, ⟨.name "a", 1⟩, ⟨.symbol .semicolon, 1⟩] ++
    (List.replicate 64 [⟨.name "a", 1⟩, ⟨.symbol .plusAssign, 1⟩]).flatten ++ [⟨.name "a", 1⟩, ⟨.symbol .semicolon, 1⟩], .finish 1⟩

private theorem deepSource_tokens : Script.TokenStream.ofSource deepSource = deepTokens := by
  rw [Script.TokenStream.ofSource, Script.Cursor.start, deepSource, String.toList_ofList]
  decide +kernel

set_option maxRecDepth 8000 in
private theorem deepTokens_parse {source : String} (tokens : Script.TokenStream.ofSource source = deepTokens) :
    (Environment.initial "group" [] []).parse source "deep.zs" "deep" false =
      ⟨.ok deepUnit, [], Environment.initial "group" [] []⟩ := by
  simp only [Environment.parse, tokens]
  cbv

private theorem deepSource_parses : (Environment.initial "group" [] []).parse deepSource "deep.zs" "deep" false =
    ⟨.ok deepUnit, [], Environment.initial "group" [] []⟩ :=
  deepTokens_parse deepSource_tokens

/-- A unit that says nothing. -/
def emptyUnit : ParsedUnit := ⟨"fine.zs", "fine", [], [], []⟩

private theorem emptySource_parses : (Environment.initial "group" [] []).parse "" "fine.zs" "fine" false =
    ⟨.ok emptyUnit, [], Environment.initial "group" [] []⟩ := by
  have tokens : Script.TokenStream.ofSource "" = ⟨[], .finish 1⟩ := by decide +kernel
  simp only [Environment.parse, tokens]
  cbv

/-- The two units of a group. -/
def deepSources : List Script.Input := [⟨deepSource, "deep.zs", "deep", false⟩, ⟨"", "fine.zs", "fine", false⟩]

private theorem deepSources_parse : (Environment.initial "group" [] []).parseAll deepSources =
    ([deepUnit, emptyUnit], Environment.initial "group" [] []) :=
  Environment.parseAll_cons deepSource_parses (Environment.parseAll_cons emptySource_parses rfl)

set_option maxRecDepth 8000 in
private theorem deepUnit_fails_group : (compileGroup (Environment.initial "group" [] []) false [deepUnit, emptyUnit] ∅).result =
    .error ⟨"deep.zs", 1, .nestedTooDeeply⟩ := by
  cbv

theorem deepSource_nesting_limits :
    let env := Environment.initial "group" [] []
    (∀ unit ∈ [deepUnit, emptyUnit], unit.NestsWithin 0 Script.maxNesting) ∧
    match (compileGroup env false [deepUnit, emptyUnit] ∅).result with
    | .ok () => ∀ unit ∈ [deepUnit, emptyUnit], unit.NestsWithin 1 maxNesting
    | .error error => error.cause = .nestedTooDeeply → ∃ unit ∈ [deepUnit, emptyUnit], ¬ unit.NestsWithin 1 maxNesting :=
  nesting_limits deepSources_parse false ∅

/-- A unit that the parser accepts is too deep for the compiler, and fails a group with another unit that compiles alone. -/
theorem deepSource_fails_group :
    ∃ deep fine env, (Environment.initial "group" [] []).parseAll deepSources = ([deep, fine], env) ∧
      ¬ deep.NestsWithin 1 maxNesting ∧
      (compileGroup env false [deep, fine] ∅).result = .error ⟨"deep.zs", 1, .nestedTooDeeply⟩ ∧
      (compileGroup env false [fine] ∅).result = .ok () := by
  refine ⟨_, _, _, deepSources_parse, ?_, deepUnit_fails_group, ?_⟩
  · intro nests
    have deep := nests.statements _ (List.mem_cons_of_mem _ List.mem_cons_self)
    simp [Stmt.depth, assignments_depth, maxNesting] at deep
  · exact compileGroup_result.mpr ⟨_, rfl⟩

end Compile

end Scriptorium
