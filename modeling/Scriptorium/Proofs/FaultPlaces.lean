import Scriptorium.Proofs.Evaluation
import Scriptorium.Proofs.Scoping

/-!
# Places of faults

A fault that ends an evaluation bears the unit and the line of a construct that can come to it: the operator, the call, the
variable or the assignment whose evaluation fails (`group_faults`). The construct stands in the unit that declares the body,
the function or the initial value which is evaluated, whatever calls lead there.
-/
namespace Scriptorium

open Machine (Fault)
open Script (Construct Expr FunctionDecl GlobalDecl Occurrence ParsedUnit Stmt)

/-- The faults that a construct can come to. -/
inductive Script.Construct.Raises : Construct → Fault → Prop
  | read (name : String) (line : Nat) : Raises (.read name line) (.undefinedGlobal name)
  | assignment (name : String) (line : Nat) : Raises (.assignment name line) (.undefinedGlobal name)
  | binary {op : BinaryOp} {left right : Value} {fault : OperatorFault} (line : Nat) (fails : op.apply left right = .error fault) :
      Raises (.binary op line) (.operator fault)
  | unary {op : UnaryOp} {operand : Value} {fault : OperatorFault} (line : Nat) (fails : op.apply operand = .error fault) :
      Raises (.unary op line) (.operator fault)
  | stackOverflow (name : String) (count line : Nat) : Raises (.call name count line) .stackOverflow
  | refused (name message : String) (count line : Nat) : Raises (.call name count line) (.refused name message)
  | undefinedFunction (name : String) (count line : Nat) : Raises (.call name count line) (.undefinedFunction name)
  | wrongCount (name : String) (expected count line : Nat) : Raises (.call name count line) (.wrongCount name expected count)
  | notAccepted (name : String) (count line : Nat) : Raises (.call name count line) (.notAccepted name count)

/-- A construct stands in a unit of some name. -/
def Script.Holds (units : List ParsedUnit) (unit : String) (construct : Construct) : Prop :=
  ∃ parsed ∈ units, parsed.name = unit ∧ ∃ o ∈ parsed.occurrences, o.construct = construct

namespace Evaluation

/-- A fault is placed at a construct that can come to it. -/
def Placed (units : List ParsedUnit) (fault : Fault) (unit : String) (line : Nat) : Prop :=
  ∃ construct, Script.Holds units unit construct ∧ construct.line = line ∧ construct.Raises fault

/-- All faults that an evaluation stops at are placed. -/
def Places {τ α : Type} (units : List ParsedUnit) (act : EStateM Stop τ α) : Prop :=
  ∀ before after fault unit line, act before = .error (.fault fault unit line) after → Placed units fault unit line

section
variable {σ τ α β : Type} {units : List ParsedUnit}

private theorem places_bind {first : EStateM Stop τ α} {rest : α → EStateM Stop τ β} (places : Places units first)
    (after : ∀ a before mid, first before = .ok a mid → Places units (rest a)) : Places units (first >>= rest) := by
  intro before last fault unit line stops
  change EStateM.bind first rest before = _ at stops
  unfold EStateM.bind at stops
  cases evaluated : first before with
  | ok a mid =>
    rw [evaluated] at stops
    exact after a before mid evaluated mid last fault unit line stops
  | error stop mid =>
    rw [evaluated] at stops
    obtain ⟨rfl, rfl⟩ := EStateM.Result.error.inj stops
    exact places before mid fault unit line evaluated

private theorem places_pure (a : α) : Places units (pure a : EStateM Stop τ α) := fun _ _ _ _ _ stops => by cases stops

private theorem places_modify (change : τ → τ) : Places units
    (modify change : EStateM Stop τ PUnit) := fun _ _ _ _ _ stops => by cases stops

theorem Placed.of_error {fault other : Fault} {unit name : String} {line own : Nat} {before after : τ}
    (placed : Placed units fault unit line)
    (stops : (.error (.fault fault unit line) before : EStateM.Result Stop τ α) = .error (.fault other name own) after) :
    Placed units other name own := by
  obtain ⟨same, -⟩ := EStateM.Result.error.inj stops
  obtain ⟨rfl, rfl, rfl⟩ := Stop.fault.inj same
  exact placed

private theorem places_throw {fault : Fault} {unit : String} {line : Nat} (placed : Placed units fault unit line) :
    Places units (throw (.fault fault unit line) : EStateM Stop τ α) :=
  fun _ _ _ _ _ stops => placed.of_error stops

private theorem places_unfinished : Places units (throw .unfinished : EStateM Stop τ α) := fun _ _ _ _ _ stops => by cases stops

private theorem places_inWorld {act : Acting σ α} (places : Places units act) : Places units (inWorld act) := by
  intro before after fault unit line stops
  unfold inWorld at stops
  cases evaluated : act before.world with
  | ok a world =>
    rw [evaluated] at stops
    cases stops
  | error stop world =>
    rw [evaluated] at stops
    obtain ⟨rfl, -⟩ := EStateM.Result.error.inj stops
    exact places before.world world fault unit line evaluated

private theorem places_withScopes {scopes : Scopes} {act : Evaluating σ α} (places : Places units act) :
    Places units (withScopes scopes act) := by
  intro before after fault unit line stops
  unfold withScopes at stops
  cases evaluated : act ⟨scopes, before⟩ with
  | ok a store =>
    rw [evaluated] at stops
    cases stops
  | error stop store =>
    rw [evaluated] at stops
    obtain ⟨rfl, -⟩ := EStateM.Result.error.inj stops
    exact places ⟨scopes, before⟩ store fault unit line evaluated

end

section
variable {σ : Type} {units : List ParsedUnit} {unit : String} {invoke : Invoke σ}

private theorem readVariable_places {name : String} {line : Nat} (here : Script.Holds units unit (.read name line)) :
    Places units (readVariable (σ := σ) unit name line) := by
  intro before after fault other own stops
  unfold readVariable at stops
  split at stops
  · cases stops
  · split at stops
    · cases stops
    · exact Placed.of_error ⟨_, here, rfl, .read name line⟩ stops

private theorem writeVariable_places {name : String} {value : Value} {line : Nat}
    (here : Script.Holds units unit (.assignment name line)) : Places units (writeVariable (σ := σ) unit name value line) := by
  intro before after fault other own stops
  unfold writeVariable at stops
  split at stops
  · cases stops
  · split at stops
    · cases stops
    · exact Placed.of_error ⟨_, here, rfl, .assignment name line⟩ stops

private theorem operate_places {construct : Construct} {applied : Except OperatorFault Value}
    (here : Script.Holds units unit construct) (raises : ∀ fault, applied = .error fault → construct.Raises (.operator fault)) :
    Places units (operate (σ := σ) unit construct.line applied) := by
  cases applied with
  | ok value => exact places_pure value
  | error fault => exact places_throw ⟨construct, here, rfl, raises fault rfl⟩

/-- As many values are computed as there are arguments. -/
theorem arguments_length {args : List Expr} {values : List Value} {before after : Store σ}
    (evaluated : arguments unit invoke args before = .ok values after) : values.length = args.length := by
  induction args generalizing before values with
  | nil =>
    unfold arguments at evaluated
    cases evaluated
    rfl
  | cons arg args ih =>
    unfold arguments at evaluated
    change EStateM.bind _ _ before = _ at evaluated
    unfold EStateM.bind at evaluated
    split at evaluated
    · rename_i value mid first
      change EStateM.bind _ _ mid = _ at evaluated
      unfold EStateM.bind at evaluated
      split at evaluated
      · rename_i others last rest
        obtain ⟨rfl, rfl⟩ := EStateM.Result.ok.inj evaluated
        exact congrArg (· + 1) (ih rest)
      · cases evaluated
    · cases evaluated

/-- A call of a name, in a unit that calls it with as many arguments on that line, is placed. -/
def Calls (units : List ParsedUnit) (unit : String) (invoke : Invoke σ) : Prop :=
  ∀ name values line, Script.Holds units unit (.call name values.length line) → Places units (invoke name values line)

mutual

/-- The faults of an expression are placed where its constructs stand in a unit. -/
theorem expression_places (calls : Calls units unit invoke) (e : Expr)
    (inside : ∀ construct ∈ e.constructs, Script.Holds units unit construct) : Places units (expression unit invoke e) := by
  match e with
  | .number _ | .text _ | .bool _ | .null | .bracket _ _ => exact places_pure _
  | .name name line => exact readVariable_places (inside _ List.mem_cons_self)
  | .assign name value line =>
    simp only [Expr.constructs, List.forall_mem_append, List.forall_mem_singleton] at inside
    have first := expression_places calls value inside.1
    unfold expression
    exact places_bind first fun _ _ _ _ => places_bind (writeVariable_places inside.2) fun _ _ _ _ => places_pure _
  | .binary op left right line =>
    simp only [Expr.constructs, List.forall_mem_append, List.forall_mem_singleton] at inside
    have first := expression_places calls left inside.1
    have second := expression_places calls right inside.2.1
    unfold expression
    exact places_bind first fun _ _ _ _ => places_bind second fun _ _ _ _ =>
      operate_places inside.2.2 fun _ fails => .binary line fails
  | .logical op left right line =>
    simp only [Expr.constructs, List.forall_mem_append] at inside
    have first := expression_places calls left inside.1
    have second := expression_places calls right inside.2
    unfold expression
    refine places_bind first fun _ _ _ _ => ?_
    split
    · exact places_pure _
    · exact second
  | .unary op operand line =>
    simp only [Expr.constructs, List.forall_mem_append, List.forall_mem_singleton] at inside
    have first := expression_places calls operand inside.1
    unfold expression
    exact places_bind first fun _ _ _ _ => operate_places inside.2 fun _ fails => .unary line fails
  | .call name args line =>
    simp only [Expr.constructs, List.forall_mem_cons] at inside
    have first := arguments_places calls args inside.2
    unfold expression
    refine places_bind first fun values before mid evaluated => places_inWorld (calls name values line ?_)
    rw [arguments_length evaluated]
    exact inside.1
termination_by structural e

theorem arguments_places (calls : Calls units unit invoke) (args : List Expr)
    (inside : ∀ construct ∈ Expr.constructsOf args, Script.Holds units unit construct) :
    Places units (arguments unit invoke args) := by
  match args with
  | [] => exact places_pure _
  | arg :: args =>
    simp only [Expr.constructsOf, List.forall_mem_append] at inside
    have first := expression_places calls arg inside.1
    have rest := arguments_places calls args inside.2
    unfold arguments
    exact places_bind first fun _ _ _ _ => places_bind rest fun _ _ _ _ => places_pure _
termination_by structural args

end

/-- Occurrences stand in a unit of some name. -/
def Inside (units : List ParsedUnit) (unit : String) (found : List Occurrence) : Prop :=
  ∀ o ∈ found, Script.Holds units unit o.construct

theorem Inside.expression {locals : Script.Locals} {e : Expr} (inside : Inside units unit (e.occurrences locals)) :
    ∀ construct ∈ e.constructs, Script.Holds units unit construct :=
  fun construct present => inside ⟨locals, construct⟩ (List.mem_map_of_mem present)

private theorem expressionOrNull_places (calls : Calls units unit invoke) {locals : Script.Locals} {e : Option Expr}
    (inside : Inside units unit (Expr.occurrencesIf locals e)) : Places units (expressionOrNull unit invoke e) := by
  cases e with
  | some e => exact expression_places calls e inside.expression
  | none => exact places_pure _

private theorem inScope_places {act : Evaluating σ Flow} (places : Places units act) : Places units (inScope act) :=
  places_bind (places_modify _) fun _ _ _ _ => places_bind places fun _ _ _ _ =>
    places_bind (places_modify _) fun _ _ _ _ => places_pure _

private theorem repeatWhile_places {condition : Evaluating σ Value} {body : Evaluating σ Flow} (test : Places units condition)
    (places : Places units body) (time : Nat) : Places units (repeatWhile condition body time) := by
  induction time with
  | zero => exact places_unfinished
  | succ time ih =>
    unfold repeatWhile
    refine places_bind test fun _ _ _ _ => ?_
    split
    · refine places_bind places fun flow _ _ _ => ?_
      cases flow with
      | next => exact ih
      | giveBack value => exact places_pure _
    · exact places_pure _

mutual

theorem statement_places (calls : Calls units unit invoke) (time : Nat) (locals : Script.Locals) (s : Stmt)
    (inside : Inside units unit (s.occurrences locals)) : Places units (statement unit invoke time s) := by
  match s with
  | .expr value => exact places_bind (expression_places calls value inside.expression) fun _ _ _ _ => places_pure _
  | .declare name isMutable initial line =>
    obtain ⟨value, -⟩ := List.forall_mem_append.mp inside
    exact places_bind (expressionOrNull_places calls value) fun _ _ _ _ => places_bind (places_modify _) fun _ _ _ _ => places_pure _
  | .branch condition whenTrue whenFalse =>
    simp only [Stmt.occurrences, Inside, List.forall_mem_append] at inside
    obtain ⟨test, first, second⟩ := inside
    have whenTruePlaces := statement_places calls time _ whenTrue first
    have whenFalsePlaces := optionalBranch_places calls time locals whenFalse second
    unfold statement
    refine places_bind (expression_places calls condition (Inside.expression test)) fun _ _ _ _ => ?_
    split
    · exact inScope_places whenTruePlaces
    · exact whenFalsePlaces
  | .loop condition body =>
    simp only [Stmt.occurrences, Inside, List.forall_mem_append] at inside
    have bodyPlaces := statement_places calls time _ body inside.2
    unfold statement
    exact repeatWhile_places (expression_places calls condition (Inside.expression inside.1)) (inScope_places bodyPlaces) time
  | .giveBack value line => exact places_bind (expressionOrNull_places calls inside) fun _ _ _ _ => places_pure _
  | .block body =>
    have bodyPlaces := statements_places calls time _ body inside
    unfold statement
    exact inScope_places bodyPlaces
  | .empty => exact places_pure _
termination_by structural s

private theorem statements_places (calls : Calls units unit invoke) (time : Nat) (locals : Script.Locals) (body : List Stmt)
    (inside : Inside units unit (Stmt.occurrencesOf locals body)) : Places units (statements unit invoke time body) := by
  match body with
  | [] => exact places_pure _
  | s :: body =>
    simp only [Stmt.occurrencesOf, Inside, List.forall_mem_append] at inside
    have first := statement_places calls time locals s inside.1
    have rest := statements_places calls time _ body inside.2
    unfold statements
    refine places_bind first fun flow _ _ _ => ?_
    cases flow with
    | next => exact rest
    | giveBack value => exact places_pure _
termination_by structural body

theorem optionalBranch_places (calls : Calls units unit invoke) (time : Nat) (locals : Script.Locals) (s : Option Stmt)
    (inside : Inside units unit (Stmt.occurrencesIf locals s)) : Places units (optionalBranch unit invoke time s) := by
  match s with
  | none => exact places_pure _
  | some s =>
    have places := statement_places calls time _ s inside
    unfold optionalBranch
    exact inScope_places places
termination_by structural s

end

private theorem body_places (calls : Calls units unit invoke) (time : Nat) {locals : Script.Locals} {values : List (String × Value)}
    {statements : List Stmt} (inside : Inside units unit (Stmt.occurrencesOf locals statements)) :
    Places units (body unit invoke time values statements) := by
  refine places_withScopes (places_bind (statements_places calls time locals statements inside) fun flow _ _ _ => ?_)
  cases flow with
  | next => exact places_pure _
  | giveBack value => exact places_pure _

private theorem initials_places (calls : Calls units unit invoke) {decls : List GlobalDecl}
    (inside : ∀ decl ∈ decls, Inside units unit (decl.initial.occurrences .start)) : Places units (initials unit invoke decls) := by
  induction decls with
  | nil => exact places_pure _
  | cons decl decls ih =>
    obtain ⟨first, rest⟩ := List.forall_mem_cons.mp inside
    unfold initials
    refine places_bind (places_withScopes (expression_places calls decl.initial (Inside.expression first))) fun _ _ _ _ => ?_
    exact places_bind (places_modify _) fun _ _ _ _ => ih rest

end

section
variable {σ : Type} {units : List ParsedUnit} {natives : Natives σ}

/-- What is declared in a unit stands in a unit of its name. -/
theorem inside_of_mem {parsed : ParsedUnit} (member : parsed ∈ units) {found : List Occurrence}
    (among : ∀ o ∈ found, o ∈ parsed.occurrences) : Inside units parsed.name found :=
  fun o present => ⟨parsed, member, rfl, o, among o present, rfl⟩

/-- The body of a function stands in the unit that the function is found in. -/
theorem function?_inside {name owner : String} {decl : FunctionDecl} (found : function? units name = some (owner, decl)) :
    Inside units owner (Stmt.occurrencesOf (Script.parameterLocals .start decl.params) decl.body) := by
  have member := List.mem_reverse.mp (List.mem_of_find?_eq_some found)
  obtain ⟨parsed, inside, declared⟩ := List.mem_flatMap.mp member
  obtain ⟨_, here, same⟩ := List.mem_map.mp declared
  obtain ⟨rfl, rfl⟩ := Prod.mk.inj same
  refine inside_of_mem inside fun o present => ?_
  have body : o ∈ parsed.bodyOccurrences :=
    List.mem_append_left _ (List.mem_flatMap.mpr ⟨_, here, List.mem_append_right _ present⟩)
  exact List.mem_append_right _ body

private theorem callNative_calls (unit : String) : Calls units unit (callNative natives unit) := by
  intro name args line here before after fault other own stops
  unfold callNative at stops
  split at stops
  · exact Placed.of_error ⟨_, here, rfl, .undefinedFunction name _ line⟩ stops
  · split at stops
    · exact Placed.of_error ⟨_, here, rfl, .notAccepted name _ line⟩ stops
    · split at stops
      · cases stops
      · exact Placed.of_error ⟨_, here, rfl, .refused name _ _ line⟩ stops
      · cases stops

private theorem call_calls (time active : Nat) (unit : String) : Calls units unit (call units natives time active unit) := by
  induction time generalizing active unit with
  | zero => exact fun _ _ _ _ => places_unfinished
  | succ time ih =>
    intro name args line here
    unfold call
    cases found : function? units name with
    | none => exact callNative_calls unit name args line here
    | some target =>
      obtain ⟨owner, decl⟩ := target
      simp only
      split
      · exact places_throw ⟨_, here, rfl, .wrongCount name _ _ line⟩
      · split
        · exact places_throw ⟨_, here, rfl, .stackOverflow name _ line⟩
        · exact body_places (ih (active + 1) owner) time (function?_inside found)

private theorem giveInitials_places (time active : Nat) {parsed : ParsedUnit} (member : parsed ∈ units) :
    Places units (giveInitials units natives time active parsed) := by
  refine initials_places (call_calls time active parsed.name) fun decl declared => inside_of_mem member fun o present => ?_
  exact List.mem_append_left _ (List.mem_flatMap.mpr ⟨decl, declared, present⟩)

private theorem runUnit_places (time active : Nat) {parsed : ParsedUnit} (member : parsed ∈ units) :
    Places units (runUnit units natives time active parsed) := by
  have inside : Inside units parsed.name (Stmt.occurrencesOf .start parsed.statements) :=
    inside_of_mem member fun o present => List.mem_append_right _ (List.mem_append_right _ present)
  exact places_bind (body_places (call_calls time active parsed.name) time inside) fun _ _ _ _ => places_pure _

private theorem forM_places {act : ParsedUnit → Acting σ Unit} {list : List ParsedUnit}
    (each : ∀ parsed ∈ list, Places units (act parsed)) : Places units (list.forM act) := by
  induction list with
  | nil => exact places_pure _
  | cons parsed list ih =>
    obtain ⟨first, rest⟩ := List.forall_mem_cons.mp each
    exact places_bind first fun _ _ _ _ => ih rest

variable (units natives) in
/-- Evaluates a group with some bodies active before: first all initial values, and then the bodies of the units. -/
def groupWithin (time active : Nat) : Acting σ Unit := do
  units.forM (giveInitials units natives time (active + 1))
  units.forM (runUnit units natives time (active + 1))

/-- The faults of a group are placed in its units. -/
theorem groupWithin_places (time active : Nat) : Places units (groupWithin units natives time active) :=
  places_bind (forM_places fun _ member => giveInitials_places time _ member) fun _ _ _ _ =>
    forM_places fun _ member => runUnit_places time _ member

end

end Evaluation

end Scriptorium
