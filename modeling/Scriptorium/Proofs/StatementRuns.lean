import Scriptorium.Proofs.ExpressionRuns

/-!
# Runs of statements

The code of a statement leaves the stack as it was, but for the locals that the statement declares, or it
comes to a return with the value on top. At the end of a scope the values of its locals are taken from the
stack, and what is left are the values of the locals around it.
-/
namespace Scriptorium.Simulation

open Bytecode (Instruction Placed Segment)
open Compile (BranchCode Context ExprCode OptionalCode Scope StmtCode StmtsCode jumpSize maxLocals)
open Evaluation (Evaluating Fits Flow Invoke Scopes Store World names)
open Evaluation.Scopes (SameNames)
open Machine (Call Reaches State)
open Script (Expr Stmt)
open Std (HashMap)

section
variable {σ : Type} (setting : Setting σ) (time : Nat) (call : Call) (under : List Value)

/-- After a statement the machine is at the next one and the visible locals are known, or it is at a return
with the value on top. -/
def Continues (finish : Nat) (before : Scopes) (after : Scope) : Flow → Store σ → State → σ → Prop
  | .next, store, last, lastHost => Fits after store.scopes ∧ SameNames store.scopes.tail before.tail ∧
      last = call.at finish (store.scopes.values ++ under) store.world.globals ∧ lastHost = store.world.host
  | .giveBack value, store, last, lastHost => ∃ offset line upper, call.Has offset [⟨line, .giveBack⟩] ∧
      last = call.at offset (value :: (upper ++ under)) store.world.globals ∧ lastHost = store.world.host

/-- From one offset to another the machine does what a statement says. -/
def Goes (start finish : Nat) (scopes : Scopes) (world : World σ) (after : Scope) (act : Evaluating σ Flow) : Prop :=
  setting.Runs time Store.world (call.at start (scopes.values ++ under) world.globals) world.host
    (Continues call under finish scopes after) (act ⟨scopes, world⟩)

end

section
variable {σ : Type} {setting : Setting σ} {time : Nat} {invoke : Invoke σ} {call : Call} {ctx : Context}
  {under : List Value} {scope after : Scope} {scopes : Scopes} {world : World σ} {offset finish : Nat} {code : Segment}

theorem Continues.since {changed : Scopes} {flow : Flow} {store : Store σ} {last : State} {host : σ}
    (continues : Continues call under finish changed after flow store last host)
    (same : SameNames changed.tail scopes.tail) : Continues call under finish scopes after flow store last host := by
  cases flow with
  | next =>
    obtain ⟨fits, tails, rest⟩ := continues
    exact ⟨fits, tails.trans same, rest⟩
  | giveBack value => exact continues

private theorem expressionOrNull_leads {e : Option Expr} {temps : List Value}
    (followed : Followed setting time invoke call ctx under)
    (room : scope.all.length ≤ maxLocals) (shape : OptionalCode ctx call.constants scope e code)
    (has : call.Has offset code) (fits : Fits scope scopes) :
    Leads setting time call under offset (offset + Segment.size code) temps scopes world ([·])
      (Evaluation.expressionOrNull call.unit invoke e) := by
  cases e with
  | some e => exact expression_leads followed room shape has fits
  | none => exact pushes_lead shape has

/-- A statement that begins with an expression goes on with its value on top. -/
theorem Leads.goes {mid : Nat} {first : Evaluating σ Value} {rest : Value → Evaluating σ Flow}
    (leads : Leads setting time call under offset mid [] scopes world ([·]) first)
    (next : ∀ value changed world, SameNames changed scopes →
      setting.Runs time Store.world (call.at mid (value :: (changed.values ++ under)) world.globals) world.host
        (Continues call under finish scopes after) (rest value ⟨changed, world⟩)) :
    Goes setting time call under offset finish scopes world after (first >>= rest) :=
  leads.bind next

theorem size_cons (placed : Placed) (rest : Segment) :
    Segment.size (placed :: rest) = placed.instruction.size + Segment.size rest := rfl

private theorem size_pop : Instruction.pop.size = 1 := rfl

theorem size_jump (distance : UInt16) : (Instruction.jump distance).size = 3 := rfl

theorem size_jumpIfFalse (distance : UInt16) : (Instruction.jumpIfFalse distance).size = 3 := rfl

theorem size_loop (distance : UInt16) : (Instruction.loop distance).size = 3 := rfl

private theorem size_pops (count line : Nat) : Segment.size (List.replicate count ⟨line, .pop⟩) = count := by
  induction count with
  | zero => rfl
  | succ count ih => rw [List.replicate_succ, size_cons, ih, size_pop, Nat.add_comm]

/-- Instructions that pop take the values from the top. -/
theorem pops_reach {program : Machine.Program} {natives : Natives σ} {line : Nat} {upper stack : List Value}
    {globals : HashMap String Value} {host : σ}
    (has : call.Has offset (List.replicate upper.length ⟨line, .pop⟩)) :
    Reaches program natives upper.length (call.at offset (upper ++ stack) globals) host
      (call.at (offset + upper.length) stack globals) host := by
  induction upper generalizing offset with
  | nil => exact .refl
  | cons value upper ih =>
    rw [List.length_cons, List.replicate_succ] at has
    refine .step (Machine.step_pop has.head) ?_
    rw [List.length_cons, Nat.add_comm upper.length 1, ← Nat.add_assoc]
    exact ih has.tail

/-- What a scope inside another one does is followed by the end of the scope. -/
theorem inScope_goes {inner : Scope} {act : Evaluating σ Flow} {line : Nat} (fits : Fits scope scopes)
    (goes : Goes setting time call under offset finish ([] :: scopes) world inner act)
    (has : call.Has finish (List.replicate inner.here.length ⟨line, .pop⟩)) :
    Goes setting time call under offset (finish + inner.here.length) scopes world scope (Evaluation.inScope act) := by
  unfold Evaluation.inScope
  refine Setting.Runs.modify (Setting.Runs.bind goes (fun flow store last host continues => ?_))
  cases flow with
  | giveBack value => exact Setting.Runs.done continues
  | next =>
    obtain ⟨innerScopes, innerWorld⟩ := store
    obtain ⟨innerFits, same, rfl, rfl⟩ := continues
    cases innerScopes with
    | nil => exact innerFits.elim
    | cons here outer =>
      have depth := innerFits.here_length
      have split : Scopes.values (here :: outer) ++ under = here.map Prod.snd ++ (Scopes.values outer ++ under) := by
        simp [Scopes.values]
      rw [← depth] at has
      simp only [split, ← depth]
      refine (Setting.Runs.after (pops_reach has) ?_).less (Nat.le_add_right time _)
      exact Setting.Runs.done ⟨fits.sameNames same, SameNames.tail same, rfl, rfl⟩

/-- A branch goes on with one of its parts after the condition. What is done if the condition holds is followed by a jump over the
other part. -/
theorem branch_goes {condition : Evaluating σ Value} {whenTrue whenFalse : Evaluating σ Flow} {test close : Nat}
    {overTrue overFalse : UInt16} {testLine popLine jumpLine elseLine : Nat} (fits : Fits scope scopes)
    (conditionLeads : Leads setting time call under offset test [] scopes world ([·]) condition)
    (trueGoes : ∀ scopes (world : World σ), Fits scope scopes →
      Goes setting time call under (test + 3 + 1) close scopes world scope whenTrue)
    (falseGoes : ∀ scopes (world : World σ), Fits scope scopes →
      Goes setting time call under (test + 3 + overTrue.toNat + 1) finish scopes world scope whenFalse)
    (testHas : call.Has test [⟨testLine, .jumpIfFalse overTrue⟩]) (popHas : call.Has (test + 3) [⟨popLine, .pop⟩])
    (jumpHas : call.Has close [⟨jumpLine, .jump overFalse⟩])
    (elseHas : call.Has (test + 3 + overTrue.toNat) [⟨elseLine, .pop⟩]) (enough : close + 3 + overFalse.toNat = finish) :
    Goes setting time call under offset finish scopes world scope
      (do if (← condition).isTrue then whenTrue else whenFalse) := by
  refine conditionLeads.goes (fun value changed world same => ?_)
  have changedFits := fits.sameNames same
  refine Setting.Runs.step (Machine.step_jumpIfFalse testHas) ?_
  cases truth : value.isTrue with
  | true =>
    simp only [if_true, Nat.add_zero]
    refine Setting.Runs.step (Machine.step_pop popHas) ?_
    refine Setting.Runs.more (trueGoes changed world changedFits) (fun flow store last host continues => ?_)
    cases flow with
    | giveBack value => exact Setting.Runs.done continues
    | next =>
      obtain ⟨lastFits, tails, rfl, rfl⟩ := continues
      refine Setting.Runs.step (Machine.step_jump jumpHas) ?_
      rw [enough]
      exact Setting.Runs.done ⟨lastFits, tails.trans (SameNames.tail same), rfl, rfl⟩
  | false =>
    simp only [Bool.false_eq_true, if_false]
    refine Setting.Runs.step (Machine.step_pop elseHas) ?_
    exact (falseGoes changed world changedFits).imp fun _ _ _ _ continues => continues.since (SameNames.tail same)

/-- A loop is followed pass by pass: as many passes as there is time for are as many steps at least. -/
theorem loop_runs {condition : Evaluating σ Value} {body : Evaluating σ Flow} {test inside close : Nat}
    {overBody back : UInt16} {testLine popLine backLine endLine : Nat}
    (conditionLeads : ∀ scopes (world : World σ), Fits scope scopes →
      Leads setting time call under offset test [] scopes world ([·]) condition)
    (bodyGoes : ∀ scopes (world : World σ), Fits scope scopes →
      Goes setting time call under inside close scopes world scope body)
    (testHas : call.Has test [⟨testLine, .jumpIfFalse overBody⟩]) (popHas : call.Has (test + 3) [⟨popLine, .pop⟩])
    (begins : inside = test + 3 + 1) (backHas : call.Has close [⟨backLine, .loop back⟩])
    (endHas : call.Has (test + 3 + overBody.toNat) [⟨endLine, .pop⟩]) (again : close + 3 = offset + back.toNat)
    (enough : test + 3 + overBody.toNat + 1 = finish) :
    ∀ passes ≤ time, ∀ scopes (world : World σ), Fits scope scopes →
      Goes setting passes call under offset finish scopes world scope (Evaluation.repeatWhile condition body passes) := by
  intro passes
  induction passes with
  | zero =>
    intro few scopes world fits
    exact Setting.Runs.unfinished
  | succ passes ih =>
    intro few scopes world fits
    have conditions := Setting.Runs.less (conditionLeads scopes world fits) few
    refine Setting.Runs.bind conditions (fun value store last host left => ?_)
    obtain ⟨same, rfl, rfl⟩ := left
    obtain ⟨changed, world⟩ := store
    have changedFits := fits.sameNames same
    refine Setting.Runs.step (Machine.step_jumpIfFalse testHas) ?_
    cases truth : value.isTrue with
    | false =>
      simp only [Bool.false_eq_true, if_false]
      refine Setting.Runs.step (Machine.step_pop endHas) ?_
      rw [enough]
      exact Setting.Runs.done ⟨changedFits, SameNames.tail same, rfl, rfl⟩
    | true =>
      simp only [if_true, Nat.add_zero]
      refine Setting.Runs.step (Machine.step_pop popHas) ?_
      rw [← begins]
      have bodies := Setting.Runs.less (bodyGoes changed world changedFits) few
      refine Setting.Runs.bind bodies (fun flow store last host continues => ?_)
      cases flow with
      | giveBack value => exact Setting.Runs.done continues
      | next =>
        obtain ⟨finalFits, tails, rfl, rfl⟩ := continues
        have returns : close + 3 - back.toNat = offset := by omega
        refine Setting.Runs.tick (Machine.step_loop backHas (by omega)) ?_
        rw [returns]
        refine (ih (Nat.le_of_succ_le few) store.scopes store.world finalFits).imp (fun flow _ _ _ continues => ?_)
        exact continues.since (tails.trans (SameNames.tail same))

private theorem StmtCode_room {pool : Array Value} {s : Stmt} (shape : StmtCode ctx pool scope s code after)
    (room : scope.all.length ≤ maxLocals) : after.all.length ≤ maxLocals := by
  cases s with
  | declare name isMutable initial line =>
    simp only [StmtCode] at shape
    obtain ⟨rfl, -, small, -⟩ := shape
    simp only [Scope.all, List.length_append] at small
    simp only [Scope.declare, Scope.all, List.cons_append, List.length_cons, List.length_append]
    omega
  | expr value =>
    simp only [StmtCode] at shape
    obtain ⟨_, _, _, rfl, _⟩ := shape
    exact room
  | branch condition whenTrue whenFalse =>
    simp only [StmtCode] at shape
    obtain ⟨_, _, _, _, _, _, _, _, _, _, _, _, _, _, rfl, _⟩ := shape
    exact room
  | loop condition body =>
    simp only [StmtCode] at shape
    obtain ⟨_, _, _, _, _, _, _, _, _, _, _, _, _, rfl, _⟩ := shape
    exact room
  | giveBack value line =>
    simp only [StmtCode] at shape
    obtain ⟨_, _, _, rfl, _⟩ := shape
    exact room
  | block body =>
    simp only [StmtCode] at shape
    obtain ⟨_, _, _, _, rfl, _⟩ := shape
    exact room
  | empty =>
    simp only [StmtCode] at shape
    obtain ⟨_, rfl⟩ := shape
    exact room

end

section
variable {σ : Type} {setting : Setting σ} {time : Nat} {invoke : Invoke σ} {call : Call} {ctx : Context}
  {under : List Value}

mutual

/-- The code of a statement does what the statement says. -/
theorem statement_goes {s : Stmt} {code : Segment} {scope after : Scope} {offset : Nat} {scopes : Scopes}
    {world : World σ} (followed : Followed setting time invoke call ctx under)
    (room : scope.all.length ≤ maxLocals) (shape : StmtCode ctx call.constants scope s code after)
    (has : call.Has offset code) (fits : Fits scope scopes) :
    Goes setting time call under offset (offset + Segment.size code) scopes world after
      (Evaluation.statement call.unit invoke time s) := by
  cases s with
  | expr value =>
    simp only [StmtCode] at shape
    obtain ⟨valueCode, line, rfl, rfl, valueShape⟩ := shape
    simp only [Evaluation.statement]
    refine (expression_leads followed room valueShape has.left fits).goes (fun value changed world same => ?_)
    refine Setting.Runs.step (Machine.step_pop has.right) (Setting.Runs.done ?_)
    refine ⟨fits.sameNames same, SameNames.tail same, ?_, rfl⟩
    rw [Segment.size_append, ← Nat.add_assoc]
    rfl
  | declare name isMutable initial line =>
    simp only [StmtCode] at shape
    obtain ⟨rfl, -, -, initialShape⟩ := shape
    simp only [Evaluation.statement]
    refine (expressionOrNull_leads followed room initialShape has fits).goes (fun value changed world same => ?_)
    have declared := (fits.sameNames same).declare name isMutable value
    refine Setting.Runs.modify (Setting.Runs.done ⟨declared, ?_, ?_, rfl⟩)
    · rw [Scopes.declare_tail]
      exact SameNames.tail same
    · rw [Scopes.declare_values]
      rfl
  | branch condition whenTrue whenFalse =>
    simp only [StmtCode] at shape
    obtain ⟨conditionCode, trueCode, falseCode, inner, overTrue, overFalse, testLine, popLine, closeLine, jumpLine,
      elseLine, rfl, trueSize, falseSize, rfl, conditionShape, trueShape, falseShape⟩ := shape
    simp only [Evaluation.statement]
    have nestedRoom : after.nested.all.length ≤ maxLocals := room
    have blockHas := has.right.tail
    have jumpHas := blockHas.right.head
    have elseHas := blockHas.right.tail
    have trueHas := blockHas.left.tail
    simp only [size_cons, size_pop, size_jump, size_jumpIfFalse, Segment.size_append, size_pops, jumpSize]
      at blockHas jumpHas elseHas trueSize falseSize ⊢
    have overEnds : offset + Segment.size conditionCode + 3 + (1 + (Segment.size trueCode + inner.here.length)) + 3 =
        offset + Segment.size conditionCode + 3 + overTrue.toNat := by omega
    have closes : offset + Segment.size conditionCode + 3 + (1 + (Segment.size trueCode + inner.here.length)) =
        offset + Segment.size conditionCode + 3 + 1 + Segment.size trueCode + inner.here.length := by omega
    rw [overEnds] at elseHas
    rw [closes] at jumpHas
    have falseEnds : offset + Segment.size conditionCode + 3 + overTrue.toNat + 1 + Segment.size falseCode =
        offset + (Segment.size conditionCode + (3 + (1 + (Segment.size trueCode + inner.here.length) +
          (3 + (1 + Segment.size falseCode))))) := by omega
    refine branch_goes fits (expression_leads followed room conditionShape has.left fits)
      (fun scopes world fits => inScope_goes fits (statement_goes followed nestedRoom trueShape trueHas.left fits.nested) trueHas.right)
      (fun scopes world fits => ?_) has.right.head blockHas.left.head jumpHas elseHas.head (by omega)
    rw [← falseEnds]
    exact optionalBranch_goes followed room falseShape elseHas.tail fits
  | loop condition body =>
    simp only [StmtCode] at shape
    obtain ⟨conditionCode, innerCode, inner, overBody, back, testLine, popLine, closeLine, backLine, endLine, rfl,
      bodySize, backSize, rfl, conditionShape, bodyShape⟩ := shape
    simp only [Evaluation.statement]
    have nestedRoom : after.nested.all.length ≤ maxLocals := room
    have blockHas := has.right.tail
    have backHas := blockHas.right.head
    have endHas := blockHas.right.tail
    have bodyHas := blockHas.left.tail
    simp only [size_cons, size_pop, size_loop, size_jumpIfFalse, Segment.size_append, size_pops, jumpSize]
      at blockHas backHas endHas bodySize backSize ⊢
    have overEnds : offset + Segment.size conditionCode + 3 + (1 + (Segment.size innerCode + inner.here.length)) + 3 =
        offset + Segment.size conditionCode + 3 + overBody.toNat := by omega
    have closes : offset + Segment.size conditionCode + 3 + (1 + (Segment.size innerCode + inner.here.length)) =
        offset + Segment.size conditionCode + 3 + 1 + Segment.size innerCode + inner.here.length := by omega
    rw [overEnds] at endHas
    rw [closes] at backHas
    have again : offset + Segment.size conditionCode + 3 + 1 + Segment.size innerCode + inner.here.length + 3 =
        offset + back.toNat := by omega
    have nothing : Segment.size [] = 0 := rfl
    have enough : offset + Segment.size conditionCode + 3 + overBody.toNat + 1 = offset + (Segment.size conditionCode +
        (3 + (1 + (Segment.size innerCode + inner.here.length) + (3 + (1 + Segment.size []))))) := by omega
    exact loop_runs (fun scopes world fits => expression_leads followed room conditionShape has.left fits)
      (fun scopes world fits => inScope_goes fits
        (statement_goes followed nestedRoom bodyShape bodyHas.left fits.nested) bodyHas.right)
      has.right.head blockHas.left.head rfl backHas endHas again enough time (Nat.le_refl time) scopes world fits
  | giveBack value line =>
    simp only [StmtCode] at shape
    obtain ⟨valueCode, line, rfl, rfl, valueShape⟩ := shape
    simp only [Evaluation.statement]
    refine (expressionOrNull_leads followed room valueShape has.left fits).goes (fun value changed world same => ?_)
    exact Setting.Runs.done ⟨_, line, changed.values, has.right, rfl, rfl⟩
  | block body =>
    simp only [StmtCode] at shape
    obtain ⟨bodyCode, inner, line, rfl, rfl, bodyShape⟩ := shape
    simp only [Evaluation.statement]
    rw [Segment.size_append, size_pops, ← Nat.add_assoc]
    have nestedRoom : after.nested.all.length ≤ maxLocals := room
    exact inScope_goes fits (statements_goe followed nestedRoom bodyShape has.left fits.nested) has.right
  | empty =>
    simp only [StmtCode] at shape
    obtain ⟨rfl, rfl⟩ := shape
    simp only [Evaluation.statement]
    exact Setting.Runs.done ⟨fits, SameNames.refl _, rfl, rfl⟩
termination_by structural s

theorem statements_goe {body : List Stmt} {code : Segment} {scope after : Scope} {offset : Nat} {scopes : Scopes}
    {world : World σ} (followed : Followed setting time invoke call ctx under)
    (room : scope.all.length ≤ maxLocals) (shape : StmtsCode ctx call.constants scope body code after)
    (has : call.Has offset code) (fits : Fits scope scopes) :
    Goes setting time call under offset (offset + Segment.size code) scopes world after
      (Evaluation.statements call.unit invoke time body) := by
  cases body with
  | nil =>
    simp only [StmtsCode] at shape
    obtain ⟨rfl, rfl⟩ := shape
    simp only [Evaluation.statements]
    exact Setting.Runs.done ⟨fits, SameNames.refl _, rfl, rfl⟩
  | cons s body =>
    simp only [StmtsCode] at shape
    obtain ⟨first, rest, between, rfl, firstShape, restShape⟩ := shape
    simp only [Evaluation.statements]
    refine Setting.Runs.bind (statement_goes followed room firstShape has.left fits)
      (fun flow store last host continues => ?_)
    cases flow with
    | giveBack value => exact Setting.Runs.done continues
    | next =>
      obtain ⟨betweenFits, same, rfl, rfl⟩ := continues
      rw [Segment.size_append, ← Nat.add_assoc]
      have betweenRoom := StmtCode_room firstShape room
      refine (statements_goe followed betweenRoom restShape has.right betweenFits).imp (fun _ _ _ _ continues => ?_)
      exact continues.since same
termination_by structural body

theorem optionalBranch_goes {s : Option Stmt} {code : Segment} {scope : Scope} {offset : Nat} {scopes : Scopes}
    {world : World σ} (followed : Followed setting time invoke call ctx under)
    (room : scope.all.length ≤ maxLocals) (shape : BranchCode ctx call.constants scope s code)
    (has : call.Has offset code) (fits : Fits scope scopes) :
    Goes setting time call under offset (offset + Segment.size code) scopes world scope
      (Evaluation.optionalBranch call.unit invoke time s) := by
  cases s with
  | none =>
    simp only [BranchCode] at shape
    subst shape
    simp only [Evaluation.optionalBranch]
    exact Setting.Runs.done ⟨fits, SameNames.refl _, rfl, rfl⟩
  | some s =>
    simp only [BranchCode] at shape
    obtain ⟨branchCode, inner, line, rfl, branchShape⟩ := shape
    simp only [Evaluation.optionalBranch]
    rw [Segment.size_append, size_pops, ← Nat.add_assoc]
    have nestedRoom : scope.nested.all.length ≤ maxLocals := room
    exact inScope_goes fits (statement_goes followed nestedRoom branchShape has.left fits.nested) has.right
termination_by structural s

end

end

end Scriptorium.Simulation
