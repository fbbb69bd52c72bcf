import Scriptorium.Proofs.CodeShape
import Scriptorium.Proofs.Simulation

/-!
# Runs of expressions

The code of an expression leaves its value on top of the stack and computes it as the evaluator does. Below
the value the stack holds what was there: values that wait for an operator or a call (`temps`), the locals
of the call, and what the callers have (`under`).
-/
namespace Scriptorium.Simulation

open Bytecode (Instruction Placed Segment)
open Compile (ArgsCode Context ExprCode OptionalCode Pushes Reads Scope Writes callFault? jumpSize maxArguments maxLocals shortcut)
open Evaluation (Evaluating Fits Invoke Scopes Stop Store World decides)
open Evaluation.Scopes (SameNames)
open Machine (Call Fault Reaches State)
open Script (Environment Expr)
open Std (HashMap)

/-- A call that a compiler lets pass. -/
def Callable (env : Environment) (name : String) (count : Nat) : Prop :=
  match env.function? name with
  | some signature => signature.arity = count
  | none => ∃ arity, env.native? name = some arity ∧ acceptsCount arity count = true

private theorem callFault?_none {ctx : Context} {scope : Scope} {name : String} {count : Nat}
    (right : callFault? ctx scope name count = none) : count ≤ maxArguments ∧ Callable ctx.env name count := by
  unfold callFault? at right
  split at right
  · cases right
  split at right
  · cases right
  rename_i few
  refine ⟨Nat.le_of_not_lt few, ?_⟩
  unfold Callable
  cases known : ctx.env.function? name with
  | some signature =>
    simp only [known] at right ⊢
    by_cases same : signature.arity = count
    · exact same
    · simp [same] at right
  | none =>
    simp only [known] at right ⊢
    cases native : ctx.env.native? name with
    | none => simp [native] at right
    | some arity =>
      refine ⟨arity, rfl, ?_⟩
      by_cases accepts : acceptsCount arity count = true
      · exact accepts
      · simp [native, accepts] at right

/-- A call instruction does what calling says: the arguments lie on the stack, the last on top, and the value
takes their place. -/
def Setting.CallsRun {σ : Type} (setting : Setting σ) (time : Nat) (invoke : Invoke σ) (call : Call) : Prop :=
  ∀ {offset line : Nat} {index : UInt16} {count : UInt8} {name : String} {args stack : List Value} {world : World σ},
    call.Has offset [⟨line, .call index count⟩] → call.constants[index.toNat]? = some (.text name) →
    count.toNat = args.length → Callable setting.env name args.length →
    setting.Runs time id (call.at offset (args.reverse ++ stack) world.globals) world.host
      (fun value world last lastHost =>
        last = call.at (offset + 4) (value :: stack) world.globals ∧ lastHost = world.host)
      (invoke name args line world)

/-- The code of a call can be followed: its calls can, it was compiled in the environment of the group and
keeps lines as the group does, and the values below its locals are known. -/
structure Followed {σ : Type} (setting : Setting σ) (time : Nat) (invoke : Invoke σ) (call : Call) (ctx : Context)
    (under : List Value) : Prop where
  calls : setting.CallsRun time invoke call
  env : ctx.env = setting.env
  debug : call.debug = setting.debug
  base : under.length = call.base

section
variable {σ α : Type} (setting : Setting σ) (time : Nat) (call : Call) (under : List Value)

/-- The machine is at an offset with values on the stack above the rest, and no local was declared. -/
def Leaves (offset : Nat) (temps : List Value) (before : Scopes) (pushed : α → List Value) (a : α) (store : Store σ)
    (last : State) (lastHost : σ) : Prop :=
  SameNames store.scopes before ∧
    last = call.at offset (pushed a ++ temps ++ (store.scopes.values ++ under)) store.world.globals ∧
    lastHost = store.world.host

/-- From one offset to another the machine pushes what an evaluation gives. -/
def Leads (start finish : Nat) (temps : List Value) (scopes : Scopes) (world : World σ) (pushed : α → List Value)
    (act : Evaluating σ α) : Prop :=
  setting.Runs time Store.world (call.at start (temps ++ (scopes.values ++ under)) world.globals) world.host
    (Leaves call under finish temps scopes pushed) (act ⟨scopes, world⟩)

end

section
variable {σ : Type} {setting : Setting σ} {time : Nat} {invoke : Invoke σ} {call : Call} {ctx : Context}
  {under temps : List Value} {scope : Scope} {scopes : Scopes} {world : World σ} {offset finish : Nat} {code : Segment}

theorem Leads.bind {α β : Type} {first : Evaluating σ α} {rest : α → Evaluating σ β} {pushed : α → List Value}
    {other : β → Store σ → State → σ → Prop} (leads : Leads setting time call under offset finish temps scopes world pushed first)
    (next : ∀ a changed world, SameNames changed scopes →
      setting.Runs time Store.world (call.at finish (pushed a ++ temps ++ (changed.values ++ under)) world.globals)
        world.host other (rest a ⟨changed, world⟩)) :
    setting.Runs time Store.world (call.at offset (temps ++ (scopes.values ++ under)) world.globals) world.host other
      ((first >>= rest) ⟨scopes, world⟩) := by
  refine Setting.Runs.bind leads (fun a store last lastHost left => ?_)
  obtain ⟨same, rfl, rfl⟩ := left
  exact next a store.scopes store.world same

/-- The names of the locals may be compared with those of an earlier time. -/
theorem Leaves.since {α : Type} {pushed : α → List Value} {changed : Scopes} {a : α} {store : Store σ} {last : State}
    {host : σ} (leaves : Leaves call under finish temps changed pushed a store last host)
    (same : SameNames changed scopes) : Leaves call under finish temps scopes pushed a store last host :=
  ⟨leaves.1.trans same, leaves.2⟩

/-- A fault of an instruction is the fault of the evaluation. -/
theorem Followed.fails {fault : Fault} {line : Nat} {state failed : State} {host : σ} {w : World σ}
    (followed : Followed setting time invoke call ctx under) (expected : Expected setting.env fault)
    (stepped : Machine.step setting.program setting.natives state host =
      .failed ⟨fault, call.site line⟩ failed w.host)
    (same : failed.globals = w.globals) : setting.Stops time state host (.fault fault call.unit line) w := by
  refine ⟨expected, 0, state, host, failed, .refl, ?_, same⟩
  rw [stepped, ← followed.debug]
  rfl

private theorem pushes_run {value : Value} (pushes : Pushes call.constants value code) (has : call.Has offset code)
    (stack : List Value) (globals : HashMap String Value) (host : σ) :
    Machine.step setting.program setting.natives (call.at offset stack globals) host =
      .running (call.at (offset + Segment.size code) (value :: stack) globals) host := by
  cases pushes with
  | constant known => exact Machine.step_constant has known
  | true line => exact Machine.step_pushTrue has
  | false line => exact Machine.step_pushFalse has
  | null line => exact Machine.step_pushNull has

theorem pushes_lead {value : Value} (pushes : Pushes call.constants value code) (has : call.Has offset code) :
    Leads setting time call under offset (offset + Segment.size code) temps scopes world ([·]) (pure value) :=
  Setting.Runs.step (pushes_run pushes has _ _ _) (Setting.Runs.done ⟨SameNames.refl _, rfl, rfl⟩)

/-- The number of a slot fits a byte. -/
theorem slot_toNat {slot : Nat} {upper lower : List Value} {value : Value} (fits : Fits scope scopes)
    (room : scope.all.length ≤ maxLocals) (split : scopes.values = upper ++ value :: lower)
    (deep : lower.length = slot) : (UInt8.ofNat slot).toNat = slot := by
  have lengths := fits.length
  rw [split] at lengths
  simp only [List.length_append, List.length_cons] at lengths
  have small : slot < UInt8.size := by
    have : UInt8.size = maxLocals := rfl
    omega
  exact UInt8.toNat_ofNat_of_lt' small

private theorem readVariable_leads {name : String} {line : Nat} (followed : Followed setting time invoke call ctx under)
    (fits : Fits scope scopes) (room : scope.all.length ≤ maxLocals)
    (reads : Reads call.constants ctx scope name line code) (has : call.Has offset code) :
    Leads setting time call under offset (offset + Segment.size code) temps scopes world ([·])
      (Evaluation.readVariable call.unit name line) := by
  unfold Leads Evaluation.readVariable
  cases reads with
  | @slot slot _ found =>
    obtain ⟨upper, value, lower, split, deep, known, -⟩ := fits.local found
    have byte := slot_toNat fits room split deep
    have stack : temps ++ (scopes.values ++ under) = (temps ++ upper) ++ value :: (lower ++ under) := by
      simp [split]
    have below : (lower ++ under).length = call.base + (UInt8.ofNat slot).toNat := by
      rw [List.length_append, deep, followed.base, byte, Nat.add_comm]
    simp only [known]
    refine Setting.Runs.step ?_ (Setting.Runs.done ⟨SameNames.refl _, rfl, rfl⟩)
    rw [List.append_assoc, stack]
    exact Machine.step_getLocal has below
  | global free declared known =>
    simp only [(fits.free free).1]
    cases found : world.globals[name]? with
    | some value =>
      refine Setting.Runs.step ?_ (Setting.Runs.done ⟨SameNames.refl _, rfl, rfl⟩)
      rw [Machine.step_getGlobal has known, found]
      rfl
    | none =>
      have expected : Expected setting.env (.undefinedGlobal name) := .undefinedGlobal (followed.env ▸ declared)
      exact followed.fails expected (by rw [Machine.step_getGlobal has known, found]) (by rfl)

/-- A variable is given the value on top of the stack, which stays there. -/
theorem writeVariable_leads {name : String} {value : Value} {line : Nat}
    (followed : Followed setting time invoke call ctx under) (fits : Fits scope scopes)
    (room : scope.all.length ≤ maxLocals) (writes : Writes call.constants ctx scope name line code)
    (has : call.Has offset code) :
    Leads setting time call under offset (offset + Segment.size code) (value :: temps) scopes world (fun _ => [])
      (Evaluation.writeVariable call.unit name value line) := by
  unfold Leads Evaluation.writeVariable
  cases writes with
  | @slot slot found =>
    obtain ⟨upper, old, lower, split, deep, -, set⟩ := fits.local found
    obtain ⟨changed, known, after, same⟩ := set value
    have byte := slot_toNat fits room split deep
    have before : value :: temps ++ (scopes.values ++ under) =
        value :: ((temps ++ upper) ++ old :: (lower ++ under)) := by simp [split]
    have afterwards : value :: temps ++ (changed.values ++ under) =
        value :: ((temps ++ upper) ++ value :: (lower ++ under)) := by simp [after]
    have below : (lower ++ under).length = call.base + (UInt8.ofNat slot).toNat := by
      rw [List.length_append, deep, followed.base, byte, Nat.add_comm]
    simp only [known]
    refine Setting.Runs.step ?_ (Setting.Runs.done ⟨same, rfl, rfl⟩)
    rw [before, List.nil_append, afterwards]
    exact Machine.step_setLocal has below
  | global free declared known =>
    simp only [(fits.free free).2]
    by_cases found : world.globals.contains name = true
    · rw [if_pos found]
      refine Setting.Runs.step ?_ (Setting.Runs.done ⟨SameNames.refl _, rfl, rfl⟩)
      rw [List.cons_append, Machine.step_setGlobal has known, if_pos found]
      rfl
    · rw [if_neg found]
      have expected : Expected setting.env (.undefinedGlobal name) := .undefinedGlobal (followed.env ▸ declared)
      exact followed.fails expected (by rw [List.cons_append, Machine.step_setGlobal has known, if_neg found]) (by rfl)

/-- An operator leaves what it computes, or fails where it stands. -/
theorem operate_runs {applied : Except OperatorFault Value} {line : Nat} {start : State}
    (followed : Followed setting time invoke call ctx under)
    (stepped : Machine.step setting.program setting.natives start world.host =
      match applied with
      | .ok value =>
        .running (call.at finish (value :: (temps ++ (scopes.values ++ under))) world.globals) world.host
      | .error fault =>
        .failed ⟨.operator fault, call.site line⟩ (call.at finish (temps ++ (scopes.values ++ under)) world.globals)
          world.host) :
    setting.Runs time Store.world start world.host (Leaves call under finish temps scopes ([·]))
      (Evaluation.operate call.unit line applied ⟨scopes, world⟩) := by
  cases applied with
  | ok value => exact Setting.Runs.step stepped (Setting.Runs.done ⟨SameNames.refl _, rfl, rfl⟩)
  | error fault =>
    exact followed.fails (.operator fault) stepped rfl

/-- The jump of a logical operator goes over the right operand when the left one decides. -/
theorem step_shortcut {op : LogicalOp} {line : Nat} {distance : UInt16} {value : Value} {stack : List Value}
    {globals : HashMap String Value} {host : σ} (has : call.Has offset [⟨line, shortcut op distance⟩]) :
    Machine.step setting.program setting.natives (call.at offset (value :: stack) globals) host =
      .running (call.at (offset + 3 + if decides op value then distance.toNat else 0) (value :: stack) globals) host := by
  cases op with
  | and =>
    rw [Machine.step_jumpIfFalse has]
    cases truth : value.isTrue <;> simp [decides, truth]
  | or =>
    rw [Machine.step_jumpIfTrue has]
    rfl

/-- A logical operator leaves the value of its left operand where that one decides, and else that of the right one in its place. -/
theorem logical_leads {op : LogicalOp} {left right : Evaluating σ Value} {mid line popLine : Nat} {distance : UInt16}
    (fits : Fits scope scopes) (leftLeads : Leads setting time call under offset mid temps scopes world ([·]) left)
    (rightLeads : ∀ scopes (world : World σ), Fits scope scopes →
      Leads setting time call under (mid + 3 + 1) finish temps scopes world ([·]) right)
    (jumpHas : call.Has mid [⟨line, shortcut op distance⟩]) (popHas : call.Has (mid + 3) [⟨popLine, .pop⟩])
    (enough : mid + 3 + distance.toNat = finish) :
    Leads setting time call under offset finish temps scopes world ([·])
      (do
        let first ← left
        if decides op first then return first else right) := by
  refine leftLeads.bind (fun first changed world same => ?_)
  refine Setting.Runs.step (step_shortcut jumpHas) ?_
  cases decided : decides op first with
  | true =>
    simp only [if_true, enough]
    exact Setting.Runs.done ⟨same, rfl, rfl⟩
  | false =>
    simp only [Bool.false_eq_true, if_false, Nat.add_zero]
    refine Setting.Runs.step (Machine.step_pop popHas) ?_
    exact (rightLeads changed world (fits.sameNames same)).imp fun _ _ _ _ leaves => leaves.since same

end

/-- There are as many values as arguments. -/
theorem arguments_length {σ : Type} {unit : String} {invoke : Invoke σ} {args : List Expr} {values : List Value}
    {store after : Store σ} (evaluated : Evaluation.arguments unit invoke args store = .ok values after) :
    values.length = args.length := by
  induction args generalizing values store with
  | nil =>
    simp only [Evaluation.arguments] at evaluated
    cases evaluated
    rfl
  | cons arg args ih =>
    simp only [Evaluation.arguments, bind, EStateM.bind] at evaluated
    cases first : Evaluation.expression unit invoke arg store with
    | error stop store => simp [first] at evaluated
    | ok value mid =>
      simp only [first] at evaluated
      cases rest : Evaluation.arguments unit invoke args mid with
      | error stop store => simp [rest] at evaluated
      | ok others last =>
        simp only [rest] at evaluated
        cases evaluated
        rw [List.length_cons, List.length_cons, ih rest]

section
variable {σ : Type} {setting : Setting σ} {time : Nat} {invoke : Invoke σ} {call : Call} {ctx : Context}
  {under : List Value} {scope : Scope}

mutual

/-- The code of an expression does what evaluating the expression says. -/
theorem expression_leads {e : Expr} {code : Segment} {offset : Nat} {temps : List Value} {scopes : Scopes}
    {world : World σ} (followed : Followed setting time invoke call ctx under)
    (room : scope.all.length ≤ maxLocals) (shape : ExprCode ctx call.constants scope e code)
    (has : call.Has offset code) (fits : Fits scope scopes) :
    Leads setting time call under offset (offset + Segment.size code) temps scopes world ([·])
      (Evaluation.expression call.unit invoke e) := by
  cases e with
  | number n =>
    simp only [ExprCode] at shape
    simp only [Evaluation.expression]
    exact pushes_lead shape has
  | text s =>
    simp only [ExprCode] at shape
    simp only [Evaluation.expression]
    exact pushes_lead shape has
  | bool b =>
    simp only [ExprCode] at shape
    simp only [Evaluation.expression]
    exact pushes_lead shape has
  | null =>
    simp only [ExprCode] at shape
    simp only [Evaluation.expression]
    exact pushes_lead shape has
  | bracket path value =>
    simp only [ExprCode] at shape
    simp only [Evaluation.expression]
    exact pushes_lead shape has
  | name name line =>
    simp only [ExprCode] at shape
    simp only [Evaluation.expression]
    exact readVariable_leads followed fits room shape has
  | assign name value line =>
    simp only [ExprCode] at shape
    obtain ⟨valueCode, store, rfl, valueShape, storeShape⟩ := shape
    simp only [Evaluation.expression]
    refine (expression_leads followed room valueShape has.left fits).bind (fun value changed world same => ?_)
    have stores := fits.sameNames same
    refine (writeVariable_leads followed stores room storeShape has.right).bind (fun _ stored world sameStored => ?_)
    refine Setting.Runs.done ⟨sameStored.trans same, ?_, rfl⟩
    rw [Segment.size_append, Nat.add_assoc]
    rfl
  | binary op left right line =>
    simp only [ExprCode] at shape
    obtain ⟨leftCode, rightCode, rfl, leftShape, rightShape⟩ := shape
    simp only [Evaluation.expression]
    refine (expression_leads followed room leftShape has.left.left fits).bind (fun left changed world same => ?_)
    have fitsRight := fits.sameNames same
    refine (expression_leads followed room rightShape has.left.right fitsRight).bind
      (fun right last world sameLast => ?_)
    have place : call.Has (offset + Segment.size leftCode + Segment.size rightCode) [⟨line, .binary op⟩] := by
      rw [Nat.add_assoc, ← Segment.size_append]
      exact has.right
    have ends : offset + Segment.size (leftCode ++ rightCode ++ [⟨line, .binary op⟩]) =
        offset + Segment.size leftCode + Segment.size rightCode + 1 := by
      simp only [Segment.size_append, Nat.add_assoc]
      rfl
    rw [ends]
    refine (operate_runs followed (Machine.step_binary place)).imp (fun _ _ _ _ leaves => ?_)
    exact leaves.since (sameLast.trans same)
  | logical op left right line =>
    simp only [ExprCode] at shape
    obtain ⟨leftCode, rightCode, distance, popLine, rfl, skips, leftShape, rightShape⟩ := shape
    simp only [Evaluation.expression]
    have size : (shortcut op distance).size = 3 := by cases op <;> rfl
    have place := has.right.tail
    simp only [size] at place
    have ends : offset + Segment.size (leftCode ++ ⟨line, shortcut op distance⟩ :: ⟨popLine, .pop⟩ :: rightCode) =
        offset + Segment.size leftCode + 3 + 1 + Segment.size rightCode := by
      simp only [Segment.size_append, Segment.size, size, Nat.add_assoc]
      rfl
    have enough : offset + Segment.size leftCode + 3 + distance.toNat =
        offset + Segment.size leftCode + 3 + 1 + Segment.size rightCode := by
      simp only [skips, Segment.size, Nat.add_assoc]
      rfl
    rw [ends]
    exact logical_leads fits (expression_leads followed room leftShape has.left fits)
      (fun scopes world fits => expression_leads followed room rightShape place.tail fits) has.right.head place.head enough
  | unary op operand line =>
    simp only [ExprCode] at shape
    obtain ⟨operandCode, rfl, operandShape⟩ := shape
    simp only [Evaluation.expression]
    refine (expression_leads followed room operandShape has.left fits).bind (fun operand changed world same => ?_)
    have ends : offset + Segment.size (operandCode ++ [⟨line, .unary op⟩]) =
        offset + Segment.size operandCode + 1 := by
      rw [Segment.size_append, Nat.add_assoc]
      rfl
    rw [ends]
    refine (operate_runs followed (Machine.step_unary has.right)).imp (fun _ _ _ _ leaves => ?_)
    exact leaves.since same
  | call name args line =>
    simp only [ExprCode] at shape
    obtain ⟨argsCode, index, rfl, right, known, argsShape⟩ := shape
    obtain ⟨few, callable⟩ := callFault?_none right
    simp only [Evaluation.expression]
    refine Setting.Runs.bind (arguments_lead followed room argsShape has.left fits).known
      (fun values store last lastHost left => ?_)
    obtain ⟨evaluated, same, rfl, rfl⟩ := left
    have count := arguments_length evaluated
    have byte : (UInt8.ofNat args.length).toNat = values.length := by
      have small : args.length < UInt8.size := Nat.lt_succ_of_le few
      rw [UInt8.toNat_ofNat_of_lt' small, count]
    rw [← count, followed.env] at callable
    rw [List.append_assoc]
    refine (Setting.Runs.inWorld (followed.calls has.right known byte callable)).imp
      (fun value after last lastHost returned => ?_)
    obtain ⟨scopes, rfl, rfl⟩ := returned
    refine ⟨scopes ▸ same, ?_, rfl⟩
    rw [Segment.size_append, scopes]
    rfl
termination_by structural e

theorem arguments_lead {args : List Expr} {code : Segment} {offset : Nat} {temps : List Value} {scopes : Scopes}
    {world : World σ} (followed : Followed setting time invoke call ctx under)
    (room : scope.all.length ≤ maxLocals) (shape : ArgsCode ctx call.constants scope args code)
    (has : call.Has offset code) (fits : Fits scope scopes) :
    Leads setting time call under offset (offset + Segment.size code) temps scopes world List.reverse
      (Evaluation.arguments call.unit invoke args) := by
  cases args with
  | nil =>
    simp only [ArgsCode] at shape
    subst shape
    simp only [Evaluation.arguments]
    exact Setting.Runs.done ⟨SameNames.refl _, rfl, rfl⟩
  | cons arg args =>
    simp only [ArgsCode] at shape
    obtain ⟨first, rest, rfl, firstShape, restShape⟩ := shape
    simp only [Evaluation.arguments]
    refine (expression_leads followed room firstShape has.left fits).bind (fun value changed world same => ?_)
    have fitsRest := fits.sameNames same
    refine (arguments_lead followed room restShape has.right fitsRest).bind (fun values last world sameLast => ?_)
    refine Setting.Runs.done ⟨sameLast.trans same, ?_, rfl⟩
    simp [Segment.size_append, Nat.add_assoc]
termination_by structural args

end

end

end Scriptorium.Simulation
