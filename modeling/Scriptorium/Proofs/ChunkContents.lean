import Scriptorium.Proofs.CallRuns
import Scriptorium.Proofs.Emission
import Scriptorium.Proofs.Payloads
import Scriptorium.Proofs.SourceLines

/-!
# Contents of chunks

Code bears only lines of the trees that it is made from and the first line, so that the lines of what a group compiles
to fit into payloads when those of its sources do (`program_fits`). The numbers among its constants are those of the
trees, and no others (`program_numbers`).
-/
namespace Scriptorium

/-- The number that a value is, if it is one. -/
def Value.numbers : Value → List Float
  | number x => [x]
  | text _ | bool _ | null => []

namespace Script

mutual

/-- The numbers that an expression holds: its literals, and those that its brackets stand for. -/
def Expr.numbers (e : Expr) : List Float :=
  match e with
  | .number x => [x]
  | .text _ | .bool _ | .null | .name _ _ => []
  | .bracket _ value => value.numbers
  | .assign _ value _ => value.numbers
  | .binary _ left right _ | .logical _ left right _ => left.numbers ++ right.numbers
  | .unary _ operand _ => operand.numbers
  | .call _ args _ => Expr.numbersOf args
termination_by structural e

def Expr.numbersOf (args : List Expr) : List Float :=
  match args with
  | [] => []
  | arg :: args => arg.numbers ++ Expr.numbersOf args
termination_by structural args

end

mutual

/-- The numbers that a statement holds. -/
def Stmt.numbers (s : Stmt) : List Float :=
  match s with
  | .expr value => value.numbers
  | .declare _ _ initial _ => initial.elim [] Expr.numbers
  | .branch condition whenTrue whenFalse => condition.numbers ++ (whenTrue.numbers ++ Stmt.numbersIf whenFalse)
  | .loop condition body => condition.numbers ++ body.numbers
  | .giveBack value _ => value.elim [] Expr.numbers
  | .block body => Stmt.numbersOf body
  | .empty => []
termination_by structural s

def Stmt.numbersOf (body : List Stmt) : List Float :=
  match body with
  | [] => []
  | s :: body => s.numbers ++ Stmt.numbersOf body
termination_by structural body

def Stmt.numbersIf (s : Option Stmt) : List Float :=
  match s with
  | some s => s.numbers
  | none => []
termination_by structural s

end

/-- The numbers that a unit holds: those of its globals, its functions and its statements. -/
def ParsedUnit.numbers (parsed : ParsedUnit) : List Float :=
  parsed.globals.flatMap (fun decl => decl.initial.numbers) ++
    (parsed.functions.flatMap (fun decl => Stmt.numbersOf decl.body) ++ Stmt.numbersOf parsed.statements)

end Script

namespace Bytecode

/-- The numbers among the constants of a chunk. -/
def Chunk.numbers (chunk : Chunk) : List Float := chunk.constants.toList.flatMap Value.numbers

/-- The numbers among the constants of a unit. -/
def CompiledUnit.numbers (compiled : CompiledUnit) : List Float :=
  compiled.body.numbers ++ compiled.functions.flatMap fun function => function.chunk.numbers

end Bytecode

theorem Value.mem_numbers {value : Value} {x : Float} : x ∈ value.numbers ↔ value = .number x := by
  cases value with
  | number y => simp [numbers, eq_comm]
  | text | bool | null => simp [numbers]

theorem Bytecode.Chunk.mem_numbers {chunk : Chunk} {x : Float} : x ∈ chunk.numbers ↔ .number x ∈ chunk.constants := by
  simp [numbers, Value.mem_numbers]

namespace Compile

open Bytecode (CompiledUnit Instruction Segment)
open Script (Environment Expr FunctionDecl GlobalDecl ParsedUnit Stmt)

/-! ## Making code -/

/-- Where code is made from a line within a limit, the line stays within it, what is made is good, and the numbers
added to the constants are given. -/
def Keeps {α : Type} (limit : Nat) (code : Coding α) (added : List Float) (good : α → Prop) : Prop :=
  ∀ p a q, p.line ≤ limit → code p = .ok (a, q) →
    q.line ≤ limit ∧ good a ∧ ∀ x, .number x ∈ q.constants ↔ .number x ∈ p.constants ∨ x ∈ added

/-- A segment bears no line beyond a limit. -/
def Below (limit : Nat) (code : Segment) : Prop := ∀ placed ∈ code, placed.line ≤ limit

theorem Below.append {limit : Nat} {a b : Segment} (first : Below limit a) (second : Below limit b) : Below limit (a ++ b) :=
  List.forall_mem_append.mpr ⟨first, second⟩

theorem Below.cons {limit line : Nat} {instruction : Instruction} {code : Segment} (below : line ≤ limit)
    (rest : Below limit code) : Below limit (⟨line, instruction⟩ :: code) := List.forall_mem_cons.mpr ⟨below, rest⟩

section
variable {α β : Type} {limit : Nat} {added : List Float} {good : α → Prop} {ctx : Context} {scope : Scope} {budget : Nat}

/-- What adds no constants. -/
theorem keeps_same {code : Coding α} (same : ∀ p a q, p.line ≤ limit → code p = .ok (a, q) →
    q.line ≤ limit ∧ good a ∧ q.constants = p.constants) : Keeps limit code [] good := by
  intro p a q below made
  obtain ⟨inside, holds, constants⟩ := same p a q below made
  refine ⟨inside, holds, ?_⟩
  intro x
  simp [constants]

private theorem keeps_pure {a : α} (holds : good a) : Keeps limit (pure a) [] good := by
  refine keeps_same ?_
  intro p b q below made
  obtain ⟨rfl, rfl⟩ := pure_eq_ok.mp made
  exact ⟨below, holds, rfl⟩

private theorem keeps_bind {code : Coding α} {rest : α → Coding β} {fine : β → Prop} {others : List Float}
    (first : Keeps limit code added good) (second : ∀ a, good a → Keeps limit (rest a) others fine) :
    Keeps limit (code >>= rest) (added ++ others) fine := by
  intro p b q below made
  obtain ⟨a, mid, begun, ended⟩ := bind_eq_ok.mp made
  obtain ⟨inside, holds, numbers⟩ := first p a mid below begun
  obtain ⟨under, right, more⟩ := second a holds mid b q inside ended
  refine ⟨under, right, ?_⟩
  intro x
  rw [more, numbers, List.mem_append, or_assoc]

private theorem keeps_quiet {code : Coding α} {rest : α → Coding β} {fine : β → Prop} (first : Keeps limit code [] good)
    (second : ∀ a, good a → Keeps limit (rest a) added fine) : Keeps limit (code >>= rest) added fine :=
  keeps_bind first second

private theorem keeps_last {code : Coding α} {rest : α → Coding β} {fine : β → Prop} (first : Keeps limit code added good)
    (second : ∀ a, good a → Keeps limit (rest a) [] fine) : Keeps limit (code >>= rest) added fine := by
  have both := keeps_bind first second
  rwa [List.append_nil] at both

private theorem keeps_fail {cause : CompileCause} : Keeps limit (fail ctx cause) added good := by
  intro p a q below made
  cases made

private theorem keeps_lookAt {line : Nat} (below : line ≤ limit) : Keeps limit (lookAt line) [] fun _ => True := by
  refine keeps_same ?_
  intro p a q _ made
  rw [lookAt_eq_ok.mp made]
  exact ⟨below, trivial, rfl⟩

private theorem keeps_get : Keeps limit get [] fun progress => progress.line ≤ limit := by
  refine keeps_same ?_
  intro p a q below made
  obtain ⟨rfl, rfl⟩ := get_eq_ok.mp made
  exact ⟨below, below, rfl⟩

private theorem keeps_emit {instruction : Instruction} : Keeps limit (emit instruction) [] (Below limit) := by
  refine keeps_same ?_
  intro p a q below made
  obtain ⟨rfl, rfl⟩ := emit_eq_ok.mp made
  exact ⟨below, .cons below nofun, rfl⟩

private theorem keeps_distance {bytes : Nat} {cause : CompileCause} : Keeps limit (distance ctx bytes cause) [] fun _ => True := by
  refine keeps_same ?_
  intro p a q below made
  obtain ⟨-, -, rfl⟩ := distance_eq_ok.mp made
  exact ⟨below, trivial, rfl⟩

private theorem keeps_declareLocal {name : String} {isMutable : Bool} :
    Keeps limit (declareLocal ctx scope name isMutable) [] fun _ => True := by
  refine keeps_same ?_
  intro p a q below made
  obtain ⟨-, -, -, rfl⟩ := declareLocal_eq_ok.mp made
  exact ⟨below, trivial, rfl⟩

private theorem addConstant_numbers {constants after : Array Value} {value : Value} {index : Nat}
    (made : Bytecode.addConstant constants value = (index, after)) (x : Float) :
    .number x ∈ after ↔ .number x ∈ constants ∨ x ∈ value.numbers := by
  rw [Value.mem_numbers]
  simp only [Bytecode.addConstant] at made
  split at made
  · rename_i found lookup
    obtain ⟨rfl, rfl⟩ := Prod.mk.inj made
    cases value with
    | text s => simp
    | number _ | bool _ | null => cases lookup
  · obtain ⟨rfl, rfl⟩ := Prod.mk.inj made
    rw [Array.mem_push, eq_comm (a := value)]

private theorem keeps_constantIndex (value : Value) : Keeps limit (constantIndex ctx value) value.numbers fun _ => True := by
  intro p a q below made
  refine ⟨(constantIndex_grows made).2.2 ▸ below, trivial, ?_⟩
  obtain ⟨constants, line⟩ := p
  simp only [constantIndex] at made
  cases appended : Bytecode.addConstant constants value with
  | mk found after =>
    rw [appended] at made
    simp only at made
    split at made
    · obtain ⟨rfl, rfl⟩ := Prod.mk.inj (Except.ok.inj made)
      exact addConstant_numbers appended
    · cases made

private theorem keeps_nameIndex {name : String} : Keeps limit (nameIndex ctx name) [] fun _ => True :=
  keeps_constantIndex (.text name)

private theorem keeps_pushConstant (value : Value) : Keeps limit (pushConstant ctx value) value.numbers (Below limit) :=
  keeps_last (keeps_constantIndex value) fun _ _ => keeps_emit

private theorem keeps_readVariable {name : String} : Keeps limit (readVariable ctx scope name) [] (Below limit) := by
  unfold readVariable
  split
  · exact keeps_emit
  · split
    · exact keeps_quiet keeps_nameIndex fun _ _ => keeps_emit
    · split
      · exact keeps_fail
      · exact keeps_fail

private theorem keeps_writeVariable {name : String} : Keeps limit (writeVariable ctx scope name) [] (Below limit) := by
  unfold writeVariable
  split
  · split
    · exact keeps_emit
    · exact keeps_fail
  · split
    · exact keeps_quiet keeps_nameIndex fun _ _ => keeps_emit
    · exact keeps_fail

private theorem arguments_keeps {args : List Expr}
    (each : ∀ arg ∈ args, Keeps limit (expression ctx scope budget arg) arg.numbers (Below limit)) :
    Keeps limit (arguments ctx scope budget args) (Expr.numbersOf args) (Below limit) := by
  induction args with
  | nil =>
    unfold arguments
    exact keeps_pure nofun
  | cons arg args ih =>
    obtain ⟨first, rest⟩ := List.forall_mem_cons.mp each
    unfold arguments
    refine keeps_bind first fun code below => keeps_last (ih rest) ?_
    intro more under
    exact keeps_pure (below.append under)

/-- Without room for an expression there is no code; so it is enough to look at expressions that there is room for. -/
theorem keeps_withRoom {e : Expr} (inside : ∀ budget, Keeps limit (expression ctx scope (budget + 1) e) e.numbers (Below limit))
    (budget : Nat) : Keeps limit (expression ctx scope budget e) e.numbers (Below limit) := by
  cases budget with
  | zero =>
    unfold expression
    exact keeps_fail
  | succ budget => exact inside budget

private theorem expression_keeps {e : Expr} (within : e.Within limit) (budget : Nat) :
    Keeps limit (expression ctx scope budget e) e.numbers (Below limit) := by
  refine keeps_withRoom (fun budget => ?_) budget
  induction within generalizing budget with
  | number | text => exact keeps_pushConstant _
  | null => exact keeps_emit
  | bool value => cases value <;> exact keeps_emit
  | bracket path value =>
    cases value with
    | null => exact keeps_emit
    | number | text | bool => exact keeps_pushConstant _
  | name name below => exact keeps_quiet (keeps_lookAt below) fun _ _ => keeps_readVariable
  | assign name _ below ih =>
    refine keeps_quiet (keeps_lookAt below) fun _ _ => keeps_last (keeps_withRoom ih budget) fun valueCode first => ?_
    refine keeps_quiet (keeps_lookAt below) fun _ _ => keeps_quiet keeps_writeVariable ?_
    intro store second
    exact keeps_pure (first.append second)
  | binary op _ _ below ihLeft ihRight =>
    refine keeps_bind (keeps_withRoom ihLeft budget) fun leftCode first => ?_
    refine keeps_last (keeps_withRoom ihRight budget) fun rightCode second => ?_
    refine keeps_quiet (keeps_lookAt below) fun _ _ => keeps_quiet keeps_emit ?_
    intro last third
    exact keeps_pure ((first.append second).append third)
  | logical op _ _ below ihLeft ihRight =>
    refine keeps_bind (keeps_withRoom ihLeft budget) fun leftCode first => keeps_quiet (keeps_lookAt below) fun _ _ => ?_
    refine keeps_quiet keeps_emit fun popped second => keeps_last (keeps_withRoom ihRight budget) fun rightCode third => ?_
    refine keeps_quiet keeps_distance ?_
    intro skipped _
    exact keeps_pure (first.append (.cons below (second.append third)))
  | unary op _ below ih =>
    refine keeps_last (keeps_withRoom ih budget) fun operandCode first => keeps_quiet (keeps_lookAt below) fun _ _ => ?_
    refine keeps_quiet keeps_emit ?_
    intro last second
    exact keeps_pure (first.append second)
  | call name _ below ih =>
    refine keeps_quiet (keeps_lookAt below) fun _ _ => ?_
    split
    · exact keeps_fail
    · refine keeps_last (arguments_keeps fun arg present => keeps_withRoom (ih arg present) budget) fun argumentCode first => ?_
      refine keeps_quiet (keeps_lookAt below) fun _ _ => keeps_quiet keeps_nameIndex fun index _ => ?_
      refine keeps_quiet keeps_emit ?_
      intro last second
      exact keeps_pure (first.append second)

private theorem closing_keeps {code : Segment} {inner : Scope} (below : Below limit code) :
    Keeps limit (closing code inner) [] (Below limit) := by
  refine keeps_quiet keeps_get ?_
  intro progress under
  refine keeps_pure (below.append ?_)
  intro placed present
  rw [List.eq_of_mem_replicate present]
  exact under

private theorem expressionOrNull_keeps {e : Option Expr} (within : ∀ inner, e = some inner → inner.Within limit) :
    Keeps limit (expressionOrNull ctx scope budget e) (e.elim [] Expr.numbers) (Below limit) := by
  cases e with
  | some e => exact expression_keeps (within e rfl) budget
  | none => exact keeps_emit

private theorem optionalBranch_keeps {s : Option Stmt} (each : ∀ inner, s = some inner → ∀ scope,
      Keeps limit (statement ctx scope budget inner) inner.numbers fun made => Below limit made.1) :
    Keeps limit (optionalBranch ctx scope budget s) (Stmt.numbersIf s) (Below limit) := by
  cases s with
  | none => exact keeps_pure nofun
  | some s =>
    exact keeps_last (each s rfl scope.nested) fun _ below => closing_keeps below

private theorem statements_keeps {body : List Stmt} (each : ∀ s ∈ body, ∀ scope,
      Keeps limit (statement ctx scope budget s) s.numbers fun made => Below limit made.1) (scope : Scope) :
    Keeps limit (statements ctx scope budget body) (Stmt.numbersOf body) fun made => Below limit made.1 := by
  induction body generalizing scope with
  | nil =>
    unfold statements
    exact keeps_pure nofun
  | cons s body ih =>
    obtain ⟨first, rest⟩ := List.forall_mem_cons.mp each
    unfold statements
    refine keeps_bind (first scope) fun made below => keeps_last (ih rest made.2) ?_
    intro more under
    exact keeps_pure (below.append under)

/-- Without room for a statement there is no code either. -/
theorem keeps_withRoomFor {s : Stmt} (inside : ∀ budget scope,
      Keeps limit (statement ctx scope (budget + 1) s) s.numbers fun made => Below limit made.1) (budget : Nat) (scope : Scope) :
    Keeps limit (statement ctx scope budget s) s.numbers fun made => Below limit made.1 := by
  cases budget with
  | zero =>
    unfold statement
    exact keeps_fail
  | succ budget => exact inside budget scope

private theorem statement_keeps {s : Stmt} (within : s.Within limit) (budget : Nat) (scope : Scope) :
    Keeps limit (statement ctx scope budget s) s.numbers fun made => Below limit made.1 := by
  refine keeps_withRoomFor (fun budget scope => ?_) budget scope
  induction within generalizing budget scope with
  | expr inside =>
    refine keeps_last (expression_keeps inside budget) fun code first => keeps_quiet keeps_emit ?_
    intro last second
    exact keeps_pure (first.append second)
  | declare name isMutable inside below =>
    refine keeps_quiet (keeps_lookAt below) fun _ _ => keeps_last (expressionOrNull_keeps inside) ?_
    intro code first
    exact keeps_quiet keeps_declareLocal fun _ _ => keeps_pure first
  | branch test _ _ ihTrue ihFalse =>
    unfold statement
    refine keeps_bind (expression_keeps test budget) fun conditionCode first => keeps_quiet keeps_get fun tested below => ?_
    refine keeps_quiet keeps_emit fun popped second => keeps_bind (keeps_withRoomFor ihTrue budget _) fun made third => ?_
    refine keeps_quiet (closing_keeps third) fun closed fourth => keeps_quiet keeps_get fun ended under => ?_
    refine keeps_quiet keeps_distance fun overTrue _ => keeps_quiet keeps_emit fun popped' fifth => ?_
    refine keeps_last (optionalBranch_keeps fun s same => keeps_withRoomFor (ihFalse s same) budget) fun falseCode sixth => ?_
    refine keeps_quiet keeps_distance ?_
    intro overFalse _
    exact keeps_pure ((first.append (.cons below (second.append fourth))).append (.cons under (fifth.append sixth)))
  | loop test _ ih =>
    unfold statement
    refine keeps_bind (expression_keeps test budget) fun conditionCode first => keeps_quiet keeps_get fun tested below => ?_
    refine keeps_quiet keeps_emit fun popped second => keeps_last (keeps_withRoomFor ih budget _) fun made third => ?_
    refine keeps_quiet (closing_keeps third) fun closed fourth => keeps_quiet keeps_get fun ended under => ?_
    refine keeps_quiet keeps_distance fun back _ => keeps_quiet keeps_distance fun overBody _ => ?_
    refine keeps_quiet keeps_emit ?_
    intro last fifth
    exact keeps_pure ((first.append (.cons below (second.append fourth))).append (.cons under fifth))
  | giveBack inside below =>
    refine keeps_quiet (keeps_lookAt below) fun _ _ => keeps_last (expressionOrNull_keeps inside) ?_
    intro code first
    refine keeps_quiet keeps_emit ?_
    intro last second
    exact keeps_pure (first.append second)
  | block inside ih =>
    refine keeps_last (statements_keeps (fun s present => keeps_withRoomFor (ih s present) budget) _) fun made below => ?_
    refine keeps_quiet (closing_keeps below) ?_
    intro closed under
    exact keeps_pure under
  | empty => exact keeps_pure nofun

private theorem toChunk_fits {code : Segment} {constants : Array Value} {debug : Bool} (below : Below Json.maxInteger code) :
    (code.toChunk constants debug).Fits := by
  intro line present
  cases debug with
  | false => cases present
  | true =>
    obtain ⟨placed, inside, repeated⟩ := List.mem_flatMap.mp present
    rw [List.eq_of_mem_replicate repeated]
    exact below placed inside

private theorem chunk_contents {code : Coding Segment} {line : Nat} {debug : Bool} {made : Bytecode.Chunk}
    (keeps : Keeps Json.maxInteger code added (Below Json.maxInteger)) (start : line ≤ Json.maxInteger)
    (compiled : chunk code line debug = .ok made) : made.Fits ∧ ∀ x, x ∈ made.numbers ↔ x ∈ added := by
  obtain ⟨⟨whole, progress⟩, parts, same⟩ := except_bind_eq_ok.mp compiled
  cases same
  have ending : Keeps Json.maxInteger (do return (← emit .pushNull) ++ (← emit .giveBack)) [] (Below Json.maxInteger) :=
    keeps_quiet keeps_emit fun _ first => keeps_quiet keeps_emit fun _ second => keeps_pure (first.append second)
  have all := keeps_bind keeps fun body first => keeps_bind ending fun last second => keeps_pure (first.append second)
  obtain ⟨-, below, numbers⟩ := all ⟨#[], line⟩ whole progress start parts
  refine ⟨toChunk_fits below, ?_⟩
  intro x
  rw [Bytecode.Chunk.mem_numbers]
  simpa [Segment.toChunk] using numbers x

private theorem body_keeps {body : List Stmt} (within : ∀ s ∈ body, s.Within limit) :
    Keeps limit (Compile.body ctx scope body) (Stmt.numbersOf body) (Below limit) := by
  refine keeps_last (statements_keeps (fun s present scope => statement_keeps (within s present) _ scope) scope) ?_
  intro made below
  exact keeps_pure below

private theorem globalCode_keeps {decl : GlobalDecl} (within : decl.Within limit) :
    Keeps limit (globalCode ctx decl) decl.initial.numbers (Below limit) := by
  refine keeps_quiet (keeps_lookAt within.line) fun _ _ => keeps_last (expression_keeps within.initial _) ?_
  intro value first
  refine keeps_quiet keeps_nameIndex fun index _ => keeps_quiet keeps_emit ?_
  intro last second
  exact keeps_pure (first.append second)

private theorem globalsCode_keeps {decls : List GlobalDecl} (within : ∀ decl ∈ decls, decl.Within limit) :
    Keeps limit (globalsCode ctx decls) (decls.flatMap fun decl => decl.initial.numbers) (Below limit) := by
  induction decls with
  | nil => exact keeps_pure nofun
  | cons decl decls ih =>
    obtain ⟨first, rest⟩ := List.forall_mem_cons.mp within
    refine keeps_bind (globalCode_keeps first) fun code below => keeps_last (ih rest) ?_
    intro more under
    exact keeps_pure (below.append under)

end

private theorem mem_flatMap_forall₂ {α β γ : Type} {as : List α} {bs : List β} {f : α → List γ} {g : β → List γ}
    (all : List.Forall₂ (fun a b => ∀ x, x ∈ g b ↔ x ∈ f a) as bs) (x : γ) : x ∈ bs.flatMap g ↔ x ∈ as.flatMap f := by
  induction all with
  | nil => rfl
  | cons first _ ih => rw [List.flatMap_cons, List.flatMap_cons, List.mem_append, List.mem_append, first, ih]

section
variable {env : Environment} {debug : Bool} {parsed : ParsedUnit}

private theorem function_contents {ctx : Context} {decl : FunctionDecl} {made : Bytecode.Function}
    (within : decl.Within Json.maxInteger) (compiled : function ctx debug decl = .ok made) :
    made.Fits ∧ ∀ x, x ∈ made.chunk.numbers ↔ x ∈ Stmt.numbersOf decl.body := by
  obtain ⟨-, arity, few, -⟩ := Simulation.function_eq_ok compiled
  obtain ⟨chunk, chunked, same⟩ := except_bind_eq_ok.mp compiled
  cases same
  have params : Keeps Json.maxInteger (parameters ctx decl.params) [] fun _ => True := by
    refine keeps_same ?_
    intro p scope q below declared
    rw [(Simulation.parameters_eq_ok declared).1]
    exact ⟨below, trivial, rfl⟩
  obtain ⟨fits, numbers⟩ := chunk_contents (keeps_quiet params fun scope _ => body_keeps within.body) within.line chunked
  exact ⟨⟨few.trans (by decide), fits⟩, numbers⟩

theorem initialValues_contents {made : CompiledUnit} (within : parsed.Within Json.maxInteger)
    (compiled : initialValues env debug parsed = .ok made) :
    made.Fits ∧ ∀ x, x ∈ made.numbers ↔ x ∈ parsed.globals.flatMap fun decl => decl.initial.numbers := by
  obtain ⟨chunk, chunked, same⟩ := except_bind_eq_ok.mp compiled
  cases same
  obtain ⟨fits, numbers⟩ := chunk_contents (globalsCode_keeps within.globals) (by decide) chunked
  refine ⟨⟨fits, nofun⟩, ?_⟩
  intro x
  rw [← numbers, CompiledUnit.numbers]
  simp

theorem compileUnit_contents {made : CompiledUnit} (within : parsed.Within Json.maxInteger)
    (compiled : compileUnit env debug parsed = .ok made) : made.Fits ∧ ∀ x, x ∈ made.numbers ↔
      x ∈ parsed.functions.flatMap (fun decl => Stmt.numbersOf decl.body) ∨ x ∈ Stmt.numbersOf parsed.statements := by
  obtain ⟨functions, mapped, rest⟩ := except_bind_eq_ok.mp compiled
  obtain ⟨main, chunked, same⟩ := except_bind_eq_ok.mp rest
  cases same
  obtain ⟨fits, numbers⟩ := chunk_contents (body_keeps within.statements) (by decide) chunked
  have each := (List.forall₂_and_left _ _).mpr ⟨within.functions, mapM_eq_ok mapped⟩
  refine ⟨⟨fits, ?_⟩, ?_⟩
  · intro function present
    obtain ⟨decl, declared, made⟩ := mapM_mem mapped present
    exact (function_contents (within.functions decl declared) made).1
  · intro x
    rw [CompiledUnit.numbers, List.mem_append, numbers, or_comm]
    refine or_congr_left (mem_flatMap_forall₂ (each.imp ?_) x)
    intro decl function ⟨inside, made⟩
    exact (function_contents inside made).2

end

end Compile

/-! ## Programs -/

/-- The numbers among the constants of a program. -/
def Machine.Program.numbers (made : Machine.Program) : List Float := made.bodies.flatMap Bytecode.CompiledUnit.numbers

namespace Compile

open Bytecode (CompiledUnit)
open Script (Environment ParsedUnit)

section
variable {env : Environment} {debug : Bool} {units : List ParsedUnit} {made : Machine.Program}

/-- What a group compiles to fits into payloads when the lines of its units do. -/
theorem program_fits (within : ∀ parsed ∈ units, parsed.Within Json.maxInteger)
    (compiled : program env debug units = .ok made) : ∀ compiled ∈ made.bodies, compiled.Fits := by
  obtain ⟨initials, first, rest⟩ := except_bind_eq_ok.mp compiled
  obtain ⟨stored, second, same⟩ := except_bind_eq_ok.mp rest
  cases same
  intro unit present
  rcases List.mem_append.mp present with initial | body
  · obtain ⟨_, -, mapped⟩ := except_bind_eq_ok.mp first
    obtain ⟨parsed, kept, made⟩ := mapM_mem mapped initial
    exact (initialValues_contents (within parsed (List.mem_of_mem_filter kept)) made).1
  · obtain ⟨parsed, there, made⟩ := mapM_mem second body
    exact (compileUnit_contents (within parsed there) made).1

/-- The numbers in what a group compiles to are those that its units hold. -/
theorem program_numbers (within : ∀ parsed ∈ units, parsed.Within Json.maxInteger)
    (compiled : program env debug units = .ok made) (x : Float) :
    x ∈ made.numbers ↔ ∃ parsed ∈ units, x ∈ parsed.numbers := by
  obtain ⟨initials, first, rest⟩ := except_bind_eq_ok.mp compiled
  obtain ⟨stored, second, same⟩ := except_bind_eq_ok.mp rest
  cases same
  obtain ⟨_, -, mapped⟩ := except_bind_eq_ok.mp first
  have kept : ∀ parsed ∈ units.filter (!·.globals.isEmpty), parsed.Within Json.maxInteger :=
    fun parsed present => within parsed (List.mem_of_mem_filter present)
  have globals : x ∈ initials.flatMap CompiledUnit.numbers ↔ x ∈ (units.filter (!·.globals.isEmpty)).flatMap
      fun parsed => parsed.globals.flatMap fun decl => decl.initial.numbers := by
    refine mem_flatMap_forall₂ (((List.forall₂_and_left _ _).mpr ⟨kept, mapM_eq_ok mapped⟩).imp ?_) x
    intro parsed made ⟨inside, compiled⟩
    exact (initialValues_contents inside compiled).2
  have bodies : x ∈ stored.flatMap CompiledUnit.numbers ↔ x ∈ units.flatMap fun parsed =>
      parsed.functions.flatMap (fun decl => Script.Stmt.numbersOf decl.body) ++ Script.Stmt.numbersOf parsed.statements := by
    refine mem_flatMap_forall₂ (((List.forall₂_and_left _ _).mpr ⟨within, mapM_eq_ok second⟩).imp ?_) x
    intro parsed made ⟨inside, compiled⟩ y
    rw [(compileUnit_contents inside compiled).2, List.mem_append]
  rw [Machine.Program.numbers, Machine.Program.bodies, List.flatMap_append, List.mem_append, globals, bodies]
  constructor
  · rintro (initial | other)
    · obtain ⟨parsed, kept, present⟩ := List.mem_flatMap.mp initial
      exact ⟨parsed, List.mem_of_mem_filter kept, List.mem_append_left _ present⟩
    · obtain ⟨parsed, there, present⟩ := List.mem_flatMap.mp other
      exact ⟨parsed, there, List.mem_append_right _ present⟩
  · rintro ⟨parsed, there, present⟩
    rcases List.mem_append.mp present with initial | other
    · refine .inl (List.mem_flatMap.mpr ⟨parsed, List.mem_filter.mpr ⟨there, ?_⟩, initial⟩)
      cases empty : parsed.globals with
      | nil =>
        rw [empty] at initial
        cases initial
      | cons decl decls => rfl
    · exact .inr (List.mem_flatMap.mpr ⟨parsed, there, other⟩)

end

end Compile

end Scriptorium
