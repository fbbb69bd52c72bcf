import Scriptorium.Compile.Code
import Scriptorium.Proofs.Scoping

/-!
# Checks of scoping

The compiler goes through a body once, with the locals in a list that grows and shrinks, and stops at the first construct that is
wrong. What it says is what the rules of scoping say: code is made only if every construct is right, and an error that is not due
to a limit is due to a construct that breaks a rule in the way that the error says (`Checks`). The main statements are
`expression_checks` and `statement_checks`.

The line of such an error is that of the construct, except where a declaration repeats a name: then it is the line that was last
looked at in the initial value of the declaration (`reported`).
-/
namespace Scriptorium.Compile

open Bytecode (Segment)
open Script (Construct Environment Expr Locals Occurrence Stmt Symbols)

/-- The sorts of causes: names of artifacts, symbols, and limits of what can be compiled. -/
inductive CauseKind
  | artifact
  | symbol
  | limit
deriving DecidableEq, Repr

/-- The sort of a cause. -/
def CompileCause.kind : CompileCause → CauseKind
  | reservedArtifact _ | sharedArtifact _ _ => .artifact
  | undefinedVariable _ | functionAsValue _ | immutable _ | redeclared _ | notFunction _ | undefinedFunction _ | wrongCount _ _ _ =>
    .symbol
  | tooManyArguments _ | tooManyLocals | tooManyConstants | jumpTooLong | loopTooLong | nestedTooDeeply => .limit

/-- How constructs break the rules of scoping. -/
inductive Breaks (symbols : Symbols) (locals : Locals) : Construct → CompileCause → Prop
  | undefinedRead {name : String} {line : Nat} (free : locals.visible? name = none) (unknown : name ∉ symbols.globals)
      (noFunction : ¬ symbols.Callable name) : Breaks symbols locals (.read name line) (.undefinedVariable name)
  | functionRead {name : String} {line : Nat} (free : locals.visible? name = none) (unknown : name ∉ symbols.globals)
      (callable : symbols.Callable name) : Breaks symbols locals (.read name line) (.functionAsValue name)
  | undefinedAssigned {name : String} {line : Nat} (free : locals.visible? name = none) (unknown : name ∉ symbols.globals) :
      Breaks symbols locals (.assignment name line) (.undefinedVariable name)
  | immutable {name : String} {line : Nat} (fixed : locals.visible? name = some false) :
      Breaks symbols locals (.assignment name line) (.immutable name)
  | notFunction {name : String} {count line : Nat} (isVariable : (locals.visible? name).isSome ∨ name ∈ symbols.globals) :
      Breaks symbols locals (.call name count line) (.notFunction name)
  | undefinedFunction {name : String} {count line : Nat} (unknown : ¬ symbols.Callable name) :
      Breaks symbols locals (.call name count line) (.undefinedFunction name)
  | functionCount {name : String} {arity count line : Nat} (function : (name, arity) ∈ symbols.functions)
      (differ : ¬ symbols.Takes name count) : Breaks symbols locals (.call name count line) (.wrongCount name arity count)
  | nativeCount {name : String} {arity : Option Nat} {count line : Nat} (noFunction : ¬ symbols.IsFunction name)
      (native : symbols.natives.lookup name = some arity) (differ : ¬ symbols.Takes name count) :
      Breaks symbols locals (.call name count line) (.wrongCount name (arity.getD 0) count)
  | redeclared {name : String} {initial : Option Expr} {line : Nat} (again : name ∈ locals.here) :
      Breaks symbols locals (.declaration name initial line) (.redeclared name)
  | repeatedParameter {name : String} {line : Nat} (again : name ∈ locals.here) :
      Breaks symbols locals (.parameter name line) (.redeclared name)

/-- What breaks a rule is not right. -/
theorem Breaks.not_right {symbols : Symbols} {locals : Locals} {construct : Construct} {cause : CompileCause}
    (breaks : Breaks symbols locals construct cause) : ¬ symbols.Right locals construct := by
  cases breaks with
  | undefinedRead free unknown _ | functionRead free unknown _ =>
    rintro (visible | known)
    · rw [free] at visible
      cases visible
    · exact unknown known
  | undefinedAssigned free unknown =>
    rintro (visible | ⟨-, known⟩)
    · rw [free] at visible
      cases visible
    · exact unknown known
  | immutable fixed =>
    rintro (visible | ⟨free, -⟩)
    · rw [fixed] at visible
      cases visible
    · rw [fixed] at free
      cases free
  | notFunction isVariable =>
    rintro ⟨free, unknown, -⟩
    rcases isVariable with visible | known
    · rw [free] at visible
      cases visible
    · exact unknown known
  | undefinedFunction unknown =>
    rintro ⟨-, -, function | ⟨-, native⟩⟩
    · exact unknown (.inl (List.mem_map_of_mem function))
    · exact unknown (.inr (Option.isSome_of_any native))
  | functionCount _ differ => exact fun right => differ right.2.2
  | nativeCount _ _ differ => exact fun right => differ right.2.2
  | redeclared again | repeatedParameter again => exact fun right => right again

/-- The line of what is last looked at in an expression, where the line before it is given. -/
def lastLine (line : Nat) (e : Expr) : Nat :=
  match e with
  | .number _ | .text _ | .bool _ | .null | .bracket _ _ => line
  | .name _ own | .assign _ _ own | .binary _ _ _ own | .unary _ _ own | .call _ _ own => own
  | .logical _ _ right own => lastLine own right
termination_by structural e

/-- The line that an error bears which is due to a construct. -/
def reported : Construct → Nat
  | .declaration _ (some initial) line => lastLine line initial
  | construct => construct.line

section
variable (symbols : Symbols) (unit : String)

/-- An error is due to a limit, or to a construct among some that breaks a rule in the way that the error says. -/
structure Blames (found : List Occurrence) (error : CompileError) : Prop where
  unit : error.unit = unit
  due : error.cause.kind = .limit ∨
    ∃ o ∈ found, Breaks symbols o.locals o.construct error.cause ∧ error.line = reported o.construct

variable {symbols unit}

theorem Blames.mono {found more : List Occurrence} {error : CompileError} (blames : Blames symbols unit found error)
    (among : ∀ o ∈ found, o ∈ more) : Blames symbols unit more error := by
  refine ⟨blames.unit, blames.due.imp id ?_⟩
  rintro ⟨o, inside, broken⟩
  exact ⟨o, among o inside, broken⟩

end

section
variable (symbols : Symbols) (unit : String)

/-- Constructs have been checked: all are right, and what comes of them is as described; or there is an error, which one of them
is to blame for if it is no limit. -/
def Checked {α : Type} (found : List Occurrence) (next : α → Prop) : Except CompileError α → Prop
  | .ok a => (∀ o ∈ found, symbols.Right o.locals o.construct) ∧ next a
  | .error error => Blames symbols unit found error

/-- Making code that begins at some line checks constructs. What is described is what comes of it, and the line after it. -/
def Checks {α : Type} (found : List Occurrence) (line : Nat) (next : α → Nat → Prop) (code : Coding α) : Prop :=
  ∀ constants, Checked symbols unit found (fun made => next made.1 made.2.line) (code ⟨constants, line⟩)

/-- Making code that checks nothing, and looks at nothing. -/
def Quiet {α : Type} (code : Coding α) : Prop := ∀ line, Checks symbols unit [] line (fun _ after => after = line) code

variable {symbols unit} {α β : Type} {found more : List Occurrence} {line : Nat}

/-- Nothing has to be checked. -/
theorem checked_ok {a : α} {next : α → Prop} (holds : next a) : Checked symbols unit [] next (.ok a) := ⟨List.forall_mem_nil _, holds⟩

theorem Checked.bind {first : Except CompileError α} {rest : α → Except CompileError β} {mid : α → Prop} {next : β → Prop}
    (checked : Checked symbols unit found mid first) (after : ∀ a, mid a → Checked symbols unit more next (rest a)) :
    Checked symbols unit (found ++ more) next (first >>= rest) := by
  cases first with
  | error error => exact Blames.mono checked fun o inside => List.mem_append_left more inside
  | ok a =>
    obtain ⟨right, holds⟩ := checked
    have later := after a holds
    show Checked symbols unit (found ++ more) next (rest a)
    cases result : rest a with
    | error error =>
      rw [result] at later
      exact Blames.mono later fun o inside => List.mem_append_right found inside
    | ok b =>
      rw [result] at later
      exact ⟨List.forall_mem_append.mpr ⟨right, later.1⟩, later.2⟩

/-- What comes after has nothing more to check. -/
theorem Checked.before {first : Except CompileError α} {rest : α → Except CompileError β} {mid : α → Prop} {next : β → Prop}
    (checked : Checked symbols unit found mid first) (after : ∀ a, mid a → Checked symbols unit [] next (rest a)) :
    Checked symbols unit found next (first >>= rest) := by
  have both := checked.bind after
  rwa [List.append_nil] at both

theorem checks_bind {first : Coding α} {rest : α → Coding β} {mid : α → Nat → Prop} {next : β → Nat → Prop}
    (checks : Checks symbols unit found line mid first)
    (after : ∀ a between, mid a between → Checks symbols unit more between next (rest a)) :
    Checks symbols unit (found ++ more) line next (first >>= rest) :=
  fun constants => (checks constants).bind fun made holds => after made.1 made.2.line holds made.2.constants

/-- What comes before may fail, but only for a limit. -/
theorem checks_after {first : Coding α} {rest : α → Coding β} {next : β → Nat → Prop} (quiet : Quiet symbols unit first)
    (after : ∀ a, Checks symbols unit found line next (rest a)) : Checks symbols unit found line next (first >>= rest) := by
  have both : Checks symbols unit ([] ++ found) line next (first >>= rest) :=
    checks_bind (quiet line) fun a between same => same ▸ after a
  rwa [List.nil_append] at both

theorem Checks.imp {code : Coding α} {next other : α → Nat → Prop} (checks : Checks symbols unit found line next code)
    (holds : ∀ a after, next a after → other a after) : Checks symbols unit found line other code := by
  intro constants
  have checked := checks constants
  cases result : code ⟨constants, line⟩ with
  | error error =>
    rw [result] at checked
    exact checked
  | ok made =>
    rw [result] at checked
    exact ⟨checked.1, holds _ _ checked.2⟩

/-- What comes after may still make the result. -/
theorem checks_then {first : Coding α} {rest : α → Coding β} {mid : α → Nat → Prop} {next : β → Nat → Prop}
    (checks : Checks symbols unit found line mid first)
    (after : ∀ a between, mid a between → Checks symbols unit [] between next (rest a)) :
    Checks symbols unit found line next (first >>= rest) :=
  fun constants => (checks constants).before fun made holds => after made.1 made.2.line holds made.2.constants

/-- What comes after may fail, but only for a limit. -/
theorem checks_before {first : Coding α} {rest : α → Coding β} {next : Nat → Prop}
    (checks : Checks symbols unit found line (fun _ => next) first) (quiet : ∀ a, Quiet symbols unit (rest a)) :
    Checks symbols unit found line (fun _ => next) (first >>= rest) :=
  checks_then checks fun a between holds => (quiet a between).imp fun _ _ same => Eq.mpr (congrArg next same) holds

theorem checks_lookAt {own : Nat} {rest : Unit → Coding α} {next : α → Nat → Prop} (checks : Checks symbols unit found own next (rest ())) :
    Checks symbols unit found line next (lookAt own >>= rest) :=
  fun constants => checks constants

theorem checks_pure {a : α} {next : α → Nat → Prop} (holds : next a line) : Checks symbols unit [] line next (pure a) :=
  fun _ => checked_ok holds

end

/-- The environment that code is made in knows the symbols of a group. -/
structure Knows (env : Environment) (symbols : Symbols) : Prop where
  global : ∀ name, env.hasGlobal name = true ↔ name ∈ symbols.globals
  function : ∀ name count, (env.function? name).map Script.Signature.arity = some count ↔ (name, count) ∈ symbols.functions
  native : ∀ name, env.native? name = symbols.natives.lookup name

/-- The locals as a list of scopes, as the compiler keeps them. -/
def Scope.ofLocals (locals : Locals) : Scope :=
  ⟨(locals.headD []).map fun found => ⟨found.1, found.2⟩, locals.tail.flatten.map fun found => ⟨found.1, found.2⟩⟩

namespace Scope

variable (locals : Locals)

private theorem ofLocals_all : (ofLocals locals).all = locals.flatten.map fun found => ⟨found.1, found.2⟩ := by
  cases locals with
  | nil => rfl
  | cons here outer => rw [List.flatten_cons, List.map_append, ofLocals, all, List.headD_cons, List.tail_cons]

private theorem ofLocals_nested : ofLocals ([] :: locals) = (ofLocals locals).nested := by
  rw [nested, ofLocals_all]
  rfl

private theorem ofLocals_declare (name : String) (isMutable : Bool) :
    ofLocals (locals.declare name isMutable) = (ofLocals locals).declare name isMutable := by
  cases locals with
  | nil => rfl
  | cons here outer => rfl

private theorem ofLocals_resolve? (name : String) : ((ofLocals locals).resolve? name).map Prod.snd = locals.visible? name := by
  rw [resolve?, ofLocals_all, Locals.visible?]
  induction locals.flatten with
  | nil => rfl
  | cons found rest ih =>
    obtain ⟨other, isMutable⟩ := found
    rw [List.map_cons, find?, List.lookup_cons]
    by_cases same : other = name
    · subst same
      simp
    · have differ : (name == other) = false := beq_eq_false_iff_ne.mpr (Ne.symm same)
      rw [if_neg same, differ]
      exact ih

private theorem ofLocals_declares (name : String) : (ofLocals locals).declares name = true ↔ name ∈ locals.here := by
  simp only [declares, ofLocals, Locals.here, List.any_map, List.any_eq_true, List.mem_map, Function.comp_apply, beq_iff_eq]

end Scope

/-! ## Parts of the code -/

section
variable {symbols : Symbols} {ctx : Context} {scope : Scope} {locals : Locals} {line : Nat}

private theorem checks_fail {α : Type} {found : List Occurrence} {next : α → Nat → Prop} {cause : CompileCause}
    (due : cause.kind = .limit ∨ ∃ o ∈ found, Breaks symbols o.locals o.construct cause ∧ line = reported o.construct) :
    Checks symbols ctx.unit found line next (fail ctx cause) :=
  fun _ => ⟨rfl, due⟩

theorem quiet_of_pure {α : Type} (a : α) : Quiet symbols ctx.unit (pure a) := fun _ => checks_pure rfl

theorem emit_quiet (instruction : Bytecode.Instruction) : Quiet symbols ctx.unit (emit instruction) := fun _ _ => checked_ok rfl

private theorem get_quiet : Quiet symbols ctx.unit (get : Coding Progress) := fun _ _ => checked_ok rfl

private theorem constantIndex_quiet (value : Value) : Quiet symbols ctx.unit (constantIndex ctx value) := by
  intro line constants
  unfold constantIndex
  simp only
  split
  · exact checked_ok rfl
  · exact ⟨rfl, .inl rfl⟩

private theorem pushConstant_quiet (value : Value) : Quiet symbols ctx.unit (pushConstant ctx value) :=
  fun _ => checks_after (constantIndex_quiet value) fun _ => emit_quiet _ _

theorem nameIndex_quiet (name : String) : Quiet symbols ctx.unit (nameIndex ctx name) := constantIndex_quiet _

private theorem distance_quiet {bytes : Nat} {cause : CompileCause} (limit : cause.kind = .limit) :
    Quiet symbols ctx.unit (distance ctx bytes cause) := by
  intro line
  unfold distance
  split
  · exact checks_pure rfl
  · exact checks_fail (.inl limit)

private theorem closing_quiet (code : Segment) (inner : Scope) : Quiet symbols ctx.unit (closing code inner) :=
  fun _ => checks_after get_quiet fun _ => quiet_of_pure _ _

/-- A name that a global has. -/
theorem global_quiet (name : String) (instruction : UInt16 → Bytecode.Instruction) :
    Quiet symbols ctx.unit (do emit (instruction (← nameIndex ctx name))) :=
  fun _ => checks_after (nameIndex_quiet name) fun _ => emit_quiet _ _

/-- A construct that is right may be added. -/
theorem Checks.cons {α : Type} {code : Coding α} {construct : Construct} {found : List Occurrence} {next : α → Nat → Prop}
    (right : symbols.Right locals construct) (checks : Checks symbols ctx.unit found line next code) :
    Checks symbols ctx.unit (⟨locals, construct⟩ :: found) line next code := by
  intro constants
  have checked := checks constants
  cases result : code ⟨constants, line⟩ with
  | error error =>
    rw [result] at checked
    exact Blames.mono checked fun o inside => List.mem_cons_of_mem _ inside
  | ok made =>
    rw [result] at checked
    exact ⟨List.forall_mem_cons.mpr ⟨right, checked.1⟩, checked.2⟩

/-- A construct is refused for the rule that it breaks. -/
theorem checks_refusal {α : Type} {construct : Construct} {next : α → Nat → Prop} {cause : CompileCause}
    (breaks : Breaks symbols locals construct cause) (own : line = reported construct) :
    Checks symbols ctx.unit [⟨locals, construct⟩] line next (fail ctx cause) :=
  checks_fail (.inr ⟨_, List.mem_singleton_self _, breaks, own⟩)

section
variable (knows : Knows ctx.env symbols)
include knows

private theorem callable_iff (name : String) :
    ((ctx.env.function? name).isSome || ctx.env.isNative name) = true ↔ symbols.Callable name := by
  rw [Bool.or_eq_true, Symbols.Callable, Environment.isNative, knows.native]
  refine or_congr_left ?_
  rw [Symbols.IsFunction, List.mem_map]
  constructor
  · intro some
    obtain ⟨signature, known⟩ := Option.isSome_iff_exists.mp some
    exact ⟨(name, signature.arity), (knows.function name _).mp (by rw [known, Option.map_some]), rfl⟩
  · rintro ⟨⟨_, count⟩, function, rfl⟩
    have known := (knows.function _ count).mpr function
    rw [← Option.isSome_map, known]
    rfl

private theorem readVariable_checks (name : String) :
    Checks symbols ctx.unit [⟨locals, .read name line⟩] line (fun _ after => after = line)
      (readVariable ctx (.ofLocals locals) name) := by
  have visible := Scope.ofLocals_resolve? locals name
  unfold readVariable
  cases resolved : (Scope.ofLocals locals).resolve? name with
  | some found =>
    rw [resolved] at visible
    exact .cons (.inl (by rw [← visible]; rfl)) (emit_quiet _ _)
  | none =>
    rw [resolved] at visible
    simp only
    split
    · rename_i declared
      exact .cons (.inr ((knows.global name).mp declared)) (global_quiet name _ _)
    · rename_i undeclared
      have unknown : name ∉ symbols.globals := fun known => undeclared ((knows.global name).mpr known)
      split
      · rename_i callable
        exact checks_refusal (.functionRead visible.symm unknown ((callable_iff knows name).mp callable)) rfl
      · rename_i noFunction
        exact checks_refusal (.undefinedRead visible.symm unknown (noFunction ∘ (callable_iff knows name).mpr)) rfl

private theorem writeVariable_checks (name : String) :
    Checks symbols ctx.unit [⟨locals, .assignment name line⟩] line (fun _ after => after = line)
      (writeVariable ctx (.ofLocals locals) name) := by
  have visible := Scope.ofLocals_resolve? locals name
  unfold writeVariable
  cases resolved : (Scope.ofLocals locals).resolve? name with
  | some found =>
    obtain ⟨slot, isMutable⟩ := found
    rw [resolved] at visible
    cases isMutable with
    | true => exact .cons (.inl visible.symm) (emit_quiet _ _)
    | false => exact checks_refusal (.immutable visible.symm) rfl
  | none =>
    rw [resolved] at visible
    simp only
    split
    · rename_i declared
      exact .cons (.inr ⟨visible.symm, (knows.global name).mp declared⟩) (global_quiet name _ _)
    · rename_i undeclared
      exact checks_refusal (.undefinedAssigned visible.symm fun known => undeclared ((knows.global name).mpr known)) rfl

end

/-- A call is refused for a limit, or for the rule that it breaks; if it is not refused, it is right. -/
theorem callFault?_checks (knows : Knows ctx.env symbols) (locals : Locals) (line : Nat) (name : String) (count : Nat) :
    (callFault? ctx (.ofLocals locals) name count).elim (symbols.Right locals (.call name count line)) fun cause =>
      cause.kind = .limit ∨ Breaks symbols locals (.call name count line) cause := by
  have visible : ((Scope.ofLocals locals).resolve? name).isSome = (locals.visible? name).isSome := by
    rw [← Scope.ofLocals_resolve?, Option.isSome_map]
  unfold callFault?
  split
  · rename_i isVariable
    rw [Bool.or_eq_true, visible, knows.global] at isVariable
    exact .inr (.notFunction isVariable)
  rename_i notVariable
  rw [Bool.or_eq_true, visible, knows.global, not_or, Option.not_isSome_iff_eq_none] at notVariable
  obtain ⟨free, unknown⟩ := notVariable
  split
  · exact .inl rfl
  cases known : ctx.env.function? name with
  | some signature =>
    have counts : ∀ other, signature.arity = other ↔ (name, other) ∈ symbols.functions := fun other => by
      rw [← knows.function, known, Option.map_some, Option.some_inj]
    have function := (counts signature.arity).mp rfl
    simp only
    split
    · rename_i same
      exact ⟨free, unknown, .inl ((counts count).mp same)⟩
    · rename_i differ
      refine .inr (.functionCount function ?_)
      rintro (right | ⟨noFunction, -⟩)
      · exact differ ((counts count).mpr right)
      · exact noFunction (List.mem_map_of_mem function)
  | none =>
    have noFunction : ¬ symbols.IsFunction name := by
      intro function
      obtain ⟨⟨_, other⟩, inside, rfl⟩ := List.mem_map.mp function
      have found := (knows.function _ other).mpr inside
      rw [known] at found
      cases found
    simp only [knows.native]
    cases native : symbols.natives.lookup name with
    | some arity =>
      simp only
      split
      · rename_i accepts
        exact ⟨free, unknown, .inr ⟨noFunction, by rwa [native]⟩⟩
      · rename_i refuses
        refine .inr (.nativeCount noFunction native ?_)
        rintro (right | ⟨-, accepts⟩)
        · exact noFunction (List.mem_map_of_mem right)
        · rw [native] at accepts
          exact refuses accepts
    | none =>
      refine .inr (.undefinedFunction ?_)
      rintro (function | isNative)
      · exact noFunction function
      · rw [native] at isNative
        cases isNative

mutual

/-- The code of an expression checks its constructs. -/
theorem expression_checks (knows : Knows ctx.env symbols) (locals : Locals) (budget line : Nat) (e : Expr) :
    Checks symbols ctx.unit (e.occurrences locals) line (fun _ after => after = lastLine line e)
      (expression ctx (.ofLocals locals) budget e) := by
  match budget, e with
  | 0, e =>
    unfold expression
    exact checks_fail (.inl rfl)
  | budget + 1, .number _ | budget + 1, .text _ => exact pushConstant_quiet _ line
  | budget + 1, .bool true | budget + 1, .bool false | budget + 1, .null | budget + 1, .bracket _ .null => exact emit_quiet _ line
  | budget + 1, .bracket _ (.number _) | budget + 1, .bracket _ (.text _) | budget + 1, .bracket _ (.bool _) =>
    exact pushConstant_quiet _ line
  | budget + 1, .name name own => exact checks_lookAt (readVariable_checks knows name)
  | budget + 1, .assign name value own =>
    have inside := expression_checks knows locals budget own value
    simp only [Expr.occurrences, Expr.constructs, List.map_append, List.map_cons, List.map_nil]
    unfold expression
    refine checks_lookAt (checks_bind inside fun _ _ _ => checks_lookAt ?_)
    exact checks_before (writeVariable_checks knows name) fun _ => quiet_of_pure _
  | budget + 1, .binary op left right own =>
    have first := expression_checks knows locals budget line left
    have second := fun line => expression_checks knows locals budget line right
    simp only [Expr.occurrences, Expr.constructs, List.map_append, List.map_cons, List.map_nil]
    unfold expression
    refine checks_bind first fun _ mid _ => checks_bind (second mid) fun _ _ _ => checks_lookAt ?_
    exact checks_before (Checks.cons trivial (emit_quiet _ _)) fun _ => quiet_of_pure _
  | budget + 1, .logical op left right own =>
    have first := expression_checks knows locals budget line left
    have second := expression_checks knows locals budget own right
    simp only [Expr.occurrences, Expr.constructs, List.map_append]
    unfold expression
    refine checks_bind first fun _ _ _ => checks_lookAt (checks_after (emit_quiet _) fun _ => ?_)
    refine checks_before second fun _ => fun _ => ?_
    exact checks_after (distance_quiet rfl) fun _ => quiet_of_pure _ _
  | budget + 1, .unary op operand own =>
    have inside := expression_checks knows locals budget line operand
    simp only [Expr.occurrences, Expr.constructs, List.map_append, List.map_cons, List.map_nil]
    unfold expression
    refine checks_bind inside fun _ _ _ => checks_lookAt ?_
    exact checks_before (Checks.cons trivial (emit_quiet _ _)) fun _ => quiet_of_pure _
  | budget + 1, .call name args own =>
    have inside := arguments_checks knows locals budget own args
    have judged := callFault?_checks knows locals own name args.length
    simp only [Expr.occurrences, Expr.constructs, List.map_cons]
    unfold expression
    refine checks_lookAt ?_
    cases fault : callFault? ctx (.ofLocals locals) name args.length with
    | some cause =>
      rw [fault] at judged
      refine checks_fail (judged.imp id fun breaks => ?_)
      exact ⟨_, List.mem_cons_self, breaks, rfl⟩
    | none =>
      rw [fault] at judged
      refine .cons judged (checks_then inside fun _ _ _ => checks_lookAt ?_)
      exact checks_after (nameIndex_quiet name) fun _ => checks_after (emit_quiet _) fun _ => quiet_of_pure _ _
termination_by structural e

theorem arguments_checks (knows : Knows ctx.env symbols) (locals : Locals) (budget line : Nat) (args : List Expr) :
    Checks symbols ctx.unit ((Expr.constructsOf args).map (Occurrence.mk locals)) line (fun _ _ => True)
      (arguments ctx (.ofLocals locals) budget args) := by
  match args with
  | [] => exact checks_pure trivial
  | arg :: args =>
    have first := expression_checks knows locals budget line arg
    have rest := fun line => arguments_checks knows locals budget line args
    simp only [Expr.constructsOf, List.map_append]
    unfold arguments
    exact checks_bind first fun _ mid _ => checks_before (rest mid) fun _ => quiet_of_pure _
termination_by structural args

end

/-- The code of an expression that may be absent, in a declaration or a return of some line. -/
theorem expressionOrNull_checks (knows : Knows ctx.env symbols) (locals : Locals) (budget line : Nat) (e : Option Expr) :
    Checks symbols ctx.unit (Expr.occurrencesIf locals e) line (fun _ after => after = e.elim line (lastLine line))
      (expressionOrNull ctx (.ofLocals locals) budget e) := by
  cases e with
  | some e => exact expression_checks knows locals budget line e
  | none => exact emit_quiet _ line

/-- A local is declared where its scope has no other of the name. -/
theorem declareLocal_checks {construct : Construct} {name : String} (isMutable : Bool)
    (right : name ∉ locals.here → symbols.Right locals construct)
    (breaks : name ∈ locals.here → Breaks symbols locals construct (.redeclared name)) (own : line = reported construct) :
    Checks symbols ctx.unit [⟨locals, construct⟩] line (fun scope after => scope = .ofLocals (locals.declare name isMutable) ∧ after = line)
      (declareLocal ctx (.ofLocals locals) name isMutable) := by
  unfold declareLocal
  split
  · rename_i again
    exact checks_refusal (breaks ((Scope.ofLocals_declares locals name).mp again)) own
  · rename_i new
    split
    · exact checks_fail (.inl rfl)
    · exact .cons (right (new ∘ (Scope.ofLocals_declares locals name).mpr)) (checks_pure ⟨(Scope.ofLocals_declare locals name isMutable).symm, rfl⟩)

mutual

/-- The code of a statement checks its constructs. -/
theorem statement_checks (knows : Knows ctx.env symbols) (locals : Locals) (budget line : Nat) (s : Stmt) :
    Checks symbols ctx.unit (s.occurrences locals) line (fun made _ => made.2 = .ofLocals (s.after locals))
      (statement ctx (.ofLocals locals) budget s) := by
  match budget, s with
  | 0, s =>
    unfold statement
    exact checks_fail (.inl rfl)
  | budget + 1, .expr value =>
    unfold statement
    exact checks_then (expression_checks knows locals budget line value) fun _ _ _ =>
      checks_after (emit_quiet _) fun _ => checks_pure rfl
  | budget + 1, .declare name isMutable initial own =>
    unfold statement
    refine checks_lookAt (checks_bind (expressionOrNull_checks knows locals budget own initial) fun code mid last => ?_)
    have reports : mid = reported (.declaration name initial own) := by
      rw [last]
      cases initial <;> rfl
    exact checks_then (declareLocal_checks isMutable id .redeclared reports) fun _ _ made => checks_pure made.1
  | budget + 1, .branch condition whenTrue whenFalse =>
    have first := fun line => statement_checks knows ([] :: locals) budget line whenTrue
    have second := fun line => optionalBranch_checks knows locals budget line whenFalse
    simp only [Scope.ofLocals_nested] at first
    unfold statement
    refine checks_bind (expression_checks knows locals budget line condition) fun conditionCode _ _ => ?_
    refine checks_after get_quiet fun _ => checks_after (emit_quiet _) fun popTested => ?_
    refine checks_bind (first _) fun made _ _ => ?_
    refine checks_after (closing_quiet _ _) fun trueCode => ?_
    refine checks_after get_quiet fun _ => checks_after (distance_quiet rfl) fun _ => ?_
    refine checks_after (emit_quiet _) fun _ => checks_then (second _) fun falseCode _ _ => ?_
    exact checks_after (distance_quiet rfl) fun _ => checks_pure rfl
  | budget + 1, .loop condition body =>
    have inside := fun line => statement_checks knows ([] :: locals) budget line body
    simp only [Scope.ofLocals_nested] at inside
    unfold statement
    refine checks_bind (expression_checks knows locals budget line condition) fun conditionCode _ _ => ?_
    refine checks_after get_quiet fun _ => checks_after (emit_quiet _) fun popTested => ?_
    refine checks_then (inside _) fun made _ _ => checks_after (closing_quiet _ _) fun bodyCode => ?_
    refine checks_after get_quiet fun _ => checks_after (distance_quiet rfl) fun _ => checks_after (distance_quiet rfl) fun _ => ?_
    exact checks_after (emit_quiet _) fun _ => checks_pure rfl
  | budget + 1, .giveBack value own =>
    unfold statement
    refine checks_lookAt (checks_then (expressionOrNull_checks knows locals budget own value) fun _ _ _ => ?_)
    exact checks_after (emit_quiet _) fun _ => checks_pure rfl
  | budget + 1, .block body =>
    have inside := statements_checks knows ([] :: locals) budget line body
    rw [Scope.ofLocals_nested] at inside
    unfold statement
    exact checks_then inside fun made _ _ => checks_after (closing_quiet _ _) fun _ => checks_pure rfl
  | budget + 1, .empty => exact checks_pure rfl
termination_by structural s

theorem statements_checks (knows : Knows ctx.env symbols) (locals : Locals) (budget line : Nat) (body : List Stmt) :
    Checks symbols ctx.unit (Stmt.occurrencesOf locals body) line (fun _ _ => True) (statements ctx (.ofLocals locals) budget body) := by
  match body with
  | [] => exact checks_pure trivial
  | s :: body =>
    have first := statement_checks knows locals budget line s
    have rest := fun line => statements_checks knows (s.after locals) budget line body
    unfold statements
    refine checks_bind first fun ⟨code, scope⟩ between same => ?_
    obtain rfl : scope = .ofLocals (s.after locals) := same
    exact checks_then (rest between) fun _ _ _ => checks_pure trivial
termination_by structural body

theorem optionalBranch_checks (knows : Knows ctx.env symbols) (locals : Locals) (budget line : Nat) (s : Option Stmt) :
    Checks symbols ctx.unit (Stmt.occurrencesIf locals s) line (fun _ _ => True) (optionalBranch ctx (.ofLocals locals) budget s) := by
  match s with
  | none => exact checks_pure trivial
  | some s =>
    have inside := statement_checks knows ([] :: locals) budget line s
    rw [Scope.ofLocals_nested] at inside
    unfold optionalBranch
    exact checks_then inside fun made between _ => (closing_quiet _ _ between).imp fun _ _ _ => trivial
termination_by structural s

end

end

end Scriptorium.Compile
