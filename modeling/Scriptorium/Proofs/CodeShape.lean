import Mathlib
import Scriptorium.Compile.Group

/-!
# The shape of code

What the code of expressions and statements looks like, apart from how it is made: `ExprCode` and
`StmtCode` relate a tree to a segment over the finished table of constants of its chunk. Lines are fixed
where an instruction can fail, and left open elsewhere.

Making code only appends to the table of constants (`Grows`), so that the code of a part has its shape
over every later table as well. The main statements are `expression_code` and `statement_code`.
-/
namespace Scriptorium.Compile

open Bytecode (Instruction Segment)
open Script (Expr Stmt Environment)

/-- Every constant of one table stands in the other at the same index. -/
def Grows (a b : Array Value) : Prop :=
  ∀ (i : Nat) (value : Value), a[i]? = some value → b[i]? = some value

theorem Grows.refl (a : Array Value) : Grows a a := fun _ _ found => found

theorem Grows.trans {a b c : Array Value} (first : Grows a b) (second : Grows b c) : Grows a c :=
  fun i value found => second i value (first i value found)

theorem getElem?_push_of_some {α : Type} {items : Array α} {i : Nat} {item other : α} (found : items[i]? = some item) :
    (items.push other)[i]? = some item := by
  have inside := (Array.getElem?_eq_some_iff.mp found).1
  rw [Array.getElem?_push, if_neg (Nat.ne_of_lt inside), found]

/-- Adding a constant moves none of the others, and gives the index at which it stands. -/
theorem addConstant_grows {constants after : Array Value} {value : Value} {index : Nat}
    (added : Bytecode.addConstant constants value = (index, after)) :
    Grows constants after ∧ after[index]? = some value := by
  simp only [Bytecode.addConstant] at added
  split at added
  · rename_i found lookup
    obtain ⟨rfl, rfl⟩ := Prod.mk.inj added
    refine ⟨Grows.refl _, ?_⟩
    cases value with
    | text s =>
      obtain ⟨inside, same, -⟩ := Array.findIdx?_eq_some_iff_getElem.mp lookup
      rw [Array.getElem?_eq_getElem inside]
      split at same
      · rename_i t is_text
        rw [is_text, eq_of_beq same]
      · cases same
    | number _ | bool _ | null => cases lookup
  · obtain ⟨rfl, rfl⟩ := Prod.mk.inj added
    exact ⟨fun _ _ found => getElem?_push_of_some found, Array.getElem?_push_size⟩

section
variable (pool : Array Value)

/-- Code that pushes a value that is known when it is made. -/
inductive Pushes : Value → Segment → Prop
  | constant {line : Nat} {index : UInt16} {value : Value} (known : pool[index.toNat]? = some value) :
      Pushes value [⟨line, .constant index⟩]
  | true (line : Nat) : Pushes (.bool true) [⟨line, .pushTrue⟩]
  | false (line : Nat) : Pushes (.bool false) [⟨line, .pushFalse⟩]
  | null (line : Nat) : Pushes .null [⟨line, .pushNull⟩]

variable (ctx : Context) (scope : Scope) (name : String) (line : Nat)

/-- Code that pushes the value of a variable. -/
inductive Reads : Segment → Prop
  | slot {slot : Nat} {isMutable : Bool} (found : scope.resolve? name = some (slot, isMutable)) :
      Reads [⟨line, .getLocal (UInt8.ofNat slot)⟩]
  | global {index : UInt16} (free : scope.resolve? name = none) (declared : ctx.env.hasGlobal name = true)
      (known : pool[index.toNat]? = some (.text name)) : Reads [⟨line, .getGlobal index⟩]

/-- Code that stores the top of the stack into a variable. -/
inductive Writes : Segment → Prop
  | slot {slot : Nat} (found : scope.resolve? name = some (slot, true)) :
      Writes [⟨line, .setLocal (UInt8.ofNat slot)⟩]
  | global {index : UInt16} (free : scope.resolve? name = none) (declared : ctx.env.hasGlobal name = true)
      (known : pool[index.toNat]? = some (.text name)) : Writes [⟨line, .setGlobal index⟩]

end

section
variable (ctx : Context) (pool : Array Value)

mutual

/-- What the code of an expression looks like. -/
def ExprCode (scope : Scope) (e : Expr) (code : Segment) : Prop :=
  match e with
  | .number n => Pushes pool (.number n) code
  | .text s => Pushes pool (.text s) code
  | .bool b => Pushes pool (.bool b) code
  | .null => Pushes pool .null code
  | .bracket _ value => Pushes pool value code
  | .name name line => Reads pool ctx scope name line code
  | .assign name value line => ∃ valueCode store, code = valueCode ++ store ∧
      ExprCode scope value valueCode ∧ Writes pool ctx scope name line store
  | .binary op left right line => ∃ leftCode rightCode, code = leftCode ++ rightCode ++ [⟨line, .binary op⟩] ∧
      ExprCode scope left leftCode ∧ ExprCode scope right rightCode
  | .logical op left right line => ∃ leftCode rightCode distance popLine,
      code = leftCode ++ ⟨line, shortcut op distance⟩ :: ⟨popLine, .pop⟩ :: rightCode ∧
      distance.toNat = Segment.size (⟨popLine, .pop⟩ :: rightCode) ∧
      ExprCode scope left leftCode ∧ ExprCode scope right rightCode
  | .unary op operand line => ∃ operandCode, code = operandCode ++ [⟨line, .unary op⟩] ∧
      ExprCode scope operand operandCode
  | .call name args line => ∃ (argsCode : Segment) (index : UInt16),
      code = argsCode ++ [⟨line, .call index (UInt8.ofNat args.length)⟩] ∧
      callFault? ctx scope name args.length = none ∧ pool[index.toNat]? = some (.text name) ∧
      ArgsCode scope args argsCode
termination_by structural e

/-- What the code of the arguments of a call looks like. -/
def ArgsCode (scope : Scope) (args : List Expr) (code : Segment) : Prop :=
  match args with
  | [] => code = []
  | arg :: args => ∃ first rest, code = first ++ rest ∧ ExprCode scope arg first ∧ ArgsCode scope args rest
termination_by structural args

end

/-- What the code of an optional expression looks like. -/
def OptionalCode (scope : Scope) : Option Expr → Segment → Prop
  | some e, code => ExprCode ctx pool scope e code
  | none, code => Pushes pool .null code

mutual

/-- What the code of a statement looks like, and the scope after it. -/
def StmtCode (scope : Scope) (s : Stmt) (code : Segment) (after : Scope) : Prop :=
  match s with
  | .expr value => ∃ valueCode line, code = valueCode ++ [⟨line, .pop⟩] ∧ after = scope ∧
      ExprCode ctx pool scope value valueCode
  | .declare name isMutable initial _ => after = scope.declare name isMutable ∧
      scope.declares name = false ∧ scope.all.length < maxLocals ∧ OptionalCode ctx pool scope initial code
  | .branch condition whenTrue whenFalse =>
      ∃ (conditionCode trueCode falseCode : Segment) (inner : Scope) (overTrue overFalse : UInt16)
        (testLine popLine closeLine jumpLine elseLine : Nat),
      let trueBlock := ⟨popLine, .pop⟩ :: (trueCode ++ List.replicate inner.here.length ⟨closeLine, .pop⟩)
      code = conditionCode ++ ⟨testLine, .jumpIfFalse overTrue⟩ :: (trueBlock ++
        ⟨jumpLine, .jump overFalse⟩ :: ⟨elseLine, .pop⟩ :: falseCode) ∧
      overTrue.toNat = Segment.size trueBlock + jumpSize ∧
      overFalse.toNat = Segment.size (⟨elseLine, .pop⟩ :: falseCode) ∧ after = scope ∧
      ExprCode ctx pool scope condition conditionCode ∧ StmtCode scope.nested whenTrue trueCode inner ∧
      BranchCode scope whenFalse falseCode
  | .loop condition body =>
      ∃ (conditionCode innerCode : Segment) (inner : Scope) (overBody back : UInt16)
        (testLine popLine closeLine backLine endLine : Nat),
      let bodyCode := ⟨popLine, .pop⟩ :: (innerCode ++ List.replicate inner.here.length ⟨closeLine, .pop⟩)
      code = conditionCode ++ ⟨testLine, .jumpIfFalse overBody⟩ :: (bodyCode ++
        [⟨backLine, .loop back⟩, ⟨endLine, .pop⟩]) ∧
      overBody.toNat = Segment.size bodyCode + jumpSize ∧
      back.toNat = Segment.size conditionCode + jumpSize + Segment.size bodyCode + jumpSize ∧
      after = scope ∧ ExprCode ctx pool scope condition conditionCode ∧
      StmtCode scope.nested body innerCode inner
  | .giveBack value _ => ∃ valueCode line, code = valueCode ++ [⟨line, .giveBack⟩] ∧ after = scope ∧
      OptionalCode ctx pool scope value valueCode
  | .block body => ∃ bodyCode inner line, code = bodyCode ++ List.replicate inner.here.length ⟨line, .pop⟩ ∧
      after = scope ∧ StmtsCode scope.nested body bodyCode inner
  | .empty => code = [] ∧ after = scope
termination_by structural s

/-- What the code of statements looks like, and the scope after them. -/
def StmtsCode (scope : Scope) (body : List Stmt) (code : Segment) (after : Scope) : Prop :=
  match body with
  | [] => code = [] ∧ after = scope
  | s :: body => ∃ first rest between, code = first ++ rest ∧ StmtCode scope s first between ∧
      StmtsCode between body rest after
termination_by structural body

/-- What the code of a branch looks like that may be absent. -/
def BranchCode (scope : Scope) (s : Option Stmt) (code : Segment) : Prop :=
  match s with
  | some s => ∃ branchCode inner line, code = branchCode ++ List.replicate inner.here.length ⟨line, .pop⟩ ∧
      StmtCode scope.nested s branchCode inner
  | none => code = []
termination_by structural s

end

end

/-! ## Making code -/

/-- Code is made by parts, and both parts have to succeed. -/
theorem bind_eq_ok {α β : Type} {first : Coding α} {rest : α → Coding β} {p q : Progress} {b : β} :
    (first >>= rest) p = .ok (b, q) ↔ ∃ a mid, first p = .ok (a, mid) ∧ rest a mid = .ok (b, q) := by
  show (StateT.bind first rest) p = _ ↔ _
  simp only [StateT.bind, bind, Except.bind]
  cases first p with
  | error fault => simp
  | ok result =>
    constructor
    · intro made
      exact ⟨result.1, result.2, rfl, made⟩
    · rintro ⟨a, mid, same, made⟩
      cases same
      exact made

theorem except_bind_eq_ok {ε α β : Type} {first : Except ε α} {rest : α → Except ε β} {b : β} :
    (first >>= rest) = .ok b ↔ ∃ a, first = .ok a ∧ rest a = .ok b := by
  cases first with
  | error fault => simp [bind, Except.bind]
  | ok a => simp [bind, Except.bind]

theorem pure_eq_ok {α : Type} {a b : α} {p q : Progress} :
    (pure a : Coding α) p = .ok (b, q) ↔ a = b ∧ p = q := by
  show Except.ok (a, p) = .ok (b, q) ↔ _
  simp

private theorem fail_ne_ok {α : Type} {ctx : Context} {cause : CompileCause} {p q : Progress} {a : α} :
    fail ctx cause p ≠ .ok (a, q) := by
  simp [fail]

theorem lookAt_eq_ok {line : Nat} {p q : Progress} {u : Unit} :
    lookAt line p = .ok (u, q) ↔ q = { p with line } := by
  show Except.ok ((), _) = .ok (u, q) ↔ _
  simp [eq_comm]

theorem emit_eq_ok {instruction : Instruction} {p q : Progress} {code : Segment} :
    emit instruction p = .ok (code, q) ↔ code = [⟨p.line, instruction⟩] ∧ q = p := by
  simp [emit, eq_comm]

theorem get_eq_ok {p q r : Progress} : (get : Coding Progress) p = .ok (r, q) ↔ r = p ∧ q = p := by
  show Except.ok (p, p) = .ok (r, q) ↔ _
  simp [eq_comm]

theorem distance_eq_ok {ctx : Context} {bytes : Nat} {cause : CompileCause} {p q : Progress} {d : UInt16} :
    distance ctx bytes cause p = .ok (d, q) ↔ bytes < UInt16.size ∧ d = UInt16.ofNat bytes ∧ q = p := by
  unfold distance
  split
  · rename_i small
    rw [pure_eq_ok]
    simp [small, eq_comm]
  · rename_i large
    simp [fail, large]

theorem constantIndex_grows {ctx : Context} {value : Value} {p q : Progress} {index : UInt16}
    (made : constantIndex ctx value p = .ok (index, q)) :
    Grows p.constants q.constants ∧ q.constants[index.toNat]? = some value ∧ q.line = p.line := by
  obtain ⟨constants, line⟩ := p
  simp only [constantIndex] at made
  cases added : Bytecode.addConstant constants value with
  | mk found after =>
    rw [added] at made
    simp only at made
    split at made
    · rename_i small
      obtain ⟨rfl, rfl⟩ := Prod.mk.inj (Except.ok.inj made)
      have known := addConstant_grows added
      refine ⟨known.1, ?_, rfl⟩
      rw [UInt16.toNat_ofNat_of_lt' small]
      exact known.2
    · cases made

/-- Making a part of the code turns one table into another, and whatever the table becomes in the end, the
part has its shape over it. -/
def Makes (before after : Array Value) (shape : Array Value → Prop) : Prop :=
  Grows before after ∧ ∀ pool, Grows after pool → shape pool

theorem Makes.refl {constants : Array Value} {shape : Array Value → Prop} (holds : ∀ pool, shape pool) :
    Makes constants constants shape :=
  ⟨Grows.refl _, fun pool _ => holds pool⟩

theorem Makes.both {before mid after : Array Value} {first second both : Array Value → Prop}
    (a : Makes before mid first) (b : Makes mid after second)
    (holds : ∀ pool, first pool → second pool → both pool) : Makes before after both :=
  ⟨a.1.trans b.1, fun pool later => holds pool (a.2 pool (b.1.trans later)) (b.2 pool later)⟩

theorem Makes.imp {before after : Array Value} {first second : Array Value → Prop}
    (a : Makes before after first) (holds : ∀ pool, first pool → second pool) : Makes before after second :=
  ⟨a.1, fun pool later => holds pool (a.2 pool later)⟩

private theorem pushConstant_code {ctx : Context} {value : Value} {p q : Progress} {code : Segment}
    (made : pushConstant ctx value p = .ok (code, q)) : Makes p.constants q.constants (Pushes · value code) := by
  simp only [pushConstant, bind_eq_ok, emit_eq_ok] at made
  obtain ⟨index, mid, indexed, rfl, rfl⟩ := made
  obtain ⟨grows, known, -⟩ := constantIndex_grows indexed
  exact ⟨grows, fun pool later => .constant (later _ _ known)⟩

private theorem readVariable_code {ctx : Context} {scope : Scope} {name : String} {p q : Progress} {code : Segment}
    (made : readVariable ctx scope name p = .ok (code, q)) :
    Makes p.constants q.constants (Reads · ctx scope name p.line code) := by
  unfold readVariable at made
  cases found : scope.resolve? name with
  | some slot =>
    simp only [found] at made
    obtain ⟨rfl, rfl⟩ := emit_eq_ok.mp made
    exact ⟨Grows.refl _, fun _ _ => .slot found⟩
  | none =>
    simp only [found] at made
    by_cases declared : ctx.env.hasGlobal name = true
    · simp only [declared, ↓reduceIte, nameIndex, bind_eq_ok, emit_eq_ok] at made
      obtain ⟨index, mid, indexed, rfl, rfl⟩ := made
      obtain ⟨grows, known, line⟩ := constantIndex_grows indexed
      rw [line]
      exact ⟨grows, fun pool later => .global found declared (later _ _ known)⟩
    · simp only [declared, Bool.false_eq_true, ↓reduceIte] at made
      split at made <;> exact absurd made fail_ne_ok

private theorem writeVariable_code {ctx : Context} {scope : Scope} {name : String} {p q : Progress} {code : Segment}
    (made : writeVariable ctx scope name p = .ok (code, q)) :
    Makes p.constants q.constants (Writes · ctx scope name p.line code) := by
  unfold writeVariable at made
  cases found : scope.resolve? name with
  | some slot =>
    obtain ⟨slot, isMutable⟩ := slot
    simp only [found] at made
    cases isMutable with
    | true =>
      obtain ⟨rfl, rfl⟩ := emit_eq_ok.mp made
      exact ⟨Grows.refl _, fun _ _ => .slot found⟩
    | false => exact absurd made fail_ne_ok
  | none =>
    simp only [found] at made
    by_cases declared : ctx.env.hasGlobal name = true
    · simp only [declared, ↓reduceIte, nameIndex, bind_eq_ok, emit_eq_ok] at made
      obtain ⟨index, mid, indexed, rfl, rfl⟩ := made
      obtain ⟨grows, known, line⟩ := constantIndex_grows indexed
      rw [line]
      exact ⟨grows, fun pool later => .global found declared (later _ _ known)⟩
    · simp only [declared, Bool.false_eq_true, ↓reduceIte] at made
      exact absurd made fail_ne_ok

mutual

theorem expression_code {ctx : Context} {scope : Scope} {budget : Nat} {e : Expr} {p q : Progress}
    {code : Segment} (made : expression ctx scope budget e p = .ok (code, q)) :
    Makes p.constants q.constants (ExprCode ctx · scope e code) := by
  cases budget with
  | zero => exact absurd made (by simp [expression, fail_ne_ok])
  | succ budget =>
    cases e with
    | number n =>
      simp only [expression] at made
      simp only [ExprCode]
      exact pushConstant_code made
    | text s =>
      simp only [expression] at made
      simp only [ExprCode]
      exact pushConstant_code made
    | bool b =>
      simp only [ExprCode]
      cases b with
      | true =>
        simp only [expression, emit_eq_ok] at made
        obtain ⟨rfl, rfl⟩ := made
        exact Makes.refl (fun _ => .true _)
      | false =>
        simp only [expression, emit_eq_ok] at made
        obtain ⟨rfl, rfl⟩ := made
        exact Makes.refl (fun _ => .false _)
    | null =>
      simp only [expression, emit_eq_ok] at made
      obtain ⟨rfl, rfl⟩ := made
      simp only [ExprCode]
      exact Makes.refl (fun _ => .null _)
    | bracket path value =>
      simp only [ExprCode]
      cases value with
      | null =>
        simp only [expression, emit_eq_ok] at made
        obtain ⟨rfl, rfl⟩ := made
        exact Makes.refl (fun _ => .null _)
      | number _ | text _ | bool _ =>
        simp only [expression] at made
        exact pushConstant_code made
    | name name line =>
      simp only [expression, bind_eq_ok, lookAt_eq_ok] at made
      obtain ⟨_, mid, rfl, made⟩ := made
      simp only [ExprCode]
      exact readVariable_code made
    | assign name value line =>
      simp only [expression, bind_eq_ok, lookAt_eq_ok, pure_eq_ok] at made
      obtain ⟨_, mid, rfl, valueCode, mid, valueMade, _, _, rfl, store, _, stored, rfl, rfl⟩ := made
      have valueShape := expression_code valueMade
      have storeShape := writeVariable_code stored
      refine valueShape.both storeShape (fun pool valueShape storeShape => ?_)
      simp only [ExprCode]
      exact ⟨valueCode, store, rfl, valueShape, storeShape⟩
    | binary op left right line =>
      simp only [expression, bind_eq_ok, lookAt_eq_ok, emit_eq_ok, pure_eq_ok] at made
      obtain ⟨leftCode, mid, leftMade, rightCode, last, rightMade, _, _, rfl, _, _, ⟨rfl, rfl⟩, rfl, rfl⟩ := made
      have leftShape := expression_code leftMade
      have rightShape := expression_code rightMade
      refine leftShape.both rightShape (fun pool leftShape rightShape => ?_)
      simp only [ExprCode]
      exact ⟨leftCode, rightCode, rfl, leftShape, rightShape⟩
    | logical op left right line =>
      simp only [expression, bind_eq_ok, lookAt_eq_ok, emit_eq_ok, pure_eq_ok, distance_eq_ok] at made
      obtain ⟨leftCode, mid, leftMade, _, _, rfl, _, _, ⟨rfl, rfl⟩, rightCode, last, rightMade, d, _,
        ⟨small, rfl, rfl⟩, rfl, rfl⟩ := made
      have leftShape := expression_code leftMade
      have rightShape := expression_code rightMade
      refine leftShape.both rightShape (fun pool leftShape rightShape => ?_)
      simp only [ExprCode]
      exact ⟨leftCode, rightCode, _, line, rfl, UInt16.toNat_ofNat_of_lt' small, leftShape, rightShape⟩
    | unary op operand line =>
      simp only [expression, bind_eq_ok, lookAt_eq_ok, emit_eq_ok, pure_eq_ok] at made
      obtain ⟨operandCode, mid, operandMade, _, _, rfl, _, _, ⟨rfl, rfl⟩, rfl, rfl⟩ := made
      have operandShape := expression_code operandMade
      refine operandShape.imp (fun pool operandShape => ?_)
      simp only [ExprCode]
      exact ⟨operandCode, rfl, operandShape⟩
    | call name args line =>
      simp only [expression, bind_eq_ok, lookAt_eq_ok] at made
      obtain ⟨_, _, rfl, made⟩ := made
      cases fault : callFault? ctx scope name args.length with
      | some cause =>
        simp only [fault] at made
        exact absurd made fail_ne_ok
      | none =>
        simp only [fault, bind_eq_ok, lookAt_eq_ok, emit_eq_ok, pure_eq_ok, nameIndex] at made
        obtain ⟨argsCode, mid, argsMade, _, _, rfl, index, last, indexed, _, _, ⟨rfl, rfl⟩, rfl, rfl⟩ := made
        have argsShape := arguments_code argsMade
        obtain ⟨grows, known, lineKept⟩ := constantIndex_grows indexed
        refine ⟨argsShape.1.trans grows, fun pool later => ?_⟩
        have argsShape := argsShape.2 pool (grows.trans later)
        have named := later _ _ known
        simp only [ExprCode]
        exact ⟨argsCode, index, by simp only [lineKept], fault, named, argsShape⟩
termination_by structural e

theorem arguments_code {ctx : Context} {scope : Scope} {budget : Nat} {args : List Expr} {p q : Progress}
    {code : Segment} (made : arguments ctx scope budget args p = .ok (code, q)) :
    Makes p.constants q.constants (ArgsCode ctx · scope args code) := by
  cases args with
  | nil =>
    simp only [arguments, pure_eq_ok] at made
    obtain ⟨rfl, rfl⟩ := made
    exact Makes.refl (fun _ => by simp only [ArgsCode])
  | cons arg args =>
    simp only [arguments, bind_eq_ok, pure_eq_ok] at made
    obtain ⟨first, mid, firstMade, rest, last, restMade, rfl, rfl⟩ := made
    have firstShape := expression_code firstMade
    have restShape := arguments_code restMade
    refine firstShape.both restShape (fun pool firstShape restShape => ?_)
    simp only [ArgsCode]
    exact ⟨first, rest, rfl, firstShape, restShape⟩
termination_by structural args

end

private theorem closing_eq_ok {code closed : Segment} {inner : Scope} {p q : Progress} :
    closing code inner p = .ok (closed, q) ↔
      closed = code ++ List.replicate inner.here.length ⟨p.line, .pop⟩ ∧ q = p := by
  simp only [closing, bind_eq_ok, get_eq_ok, pure_eq_ok]
  constructor
  · rintro ⟨_, _, ⟨rfl, rfl⟩, rfl, rfl⟩
    exact ⟨rfl, rfl⟩
  · rintro ⟨rfl, rfl⟩
    exact ⟨_, _, ⟨rfl, rfl⟩, rfl, rfl⟩

theorem declareLocal_eq_ok {ctx : Context} {scope after : Scope} {name : String} {isMutable : Bool}
    {p q : Progress} :
    declareLocal ctx scope name isMutable p = .ok (after, q) ↔
      scope.declares name = false ∧ scope.all.length < maxLocals ∧ after = scope.declare name isMutable ∧
        q = p := by
  unfold declareLocal
  split
  · rename_i again
    simp [again, fail_ne_ok]
  · rename_i new
    split
    · rename_i full
      have not : ¬ scope.all.length < maxLocals := by omega
      simp [not, fail_ne_ok]
    · rename_i room
      rw [pure_eq_ok]
      simp [new, Nat.lt_of_not_le room, eq_comm]

private theorem expressionOrNull_code {ctx : Context} {scope : Scope} {budget : Nat} {e : Option Expr} {p q : Progress}
    {code : Segment} (made : expressionOrNull ctx scope budget e p = .ok (code, q)) :
    Makes p.constants q.constants (OptionalCode ctx · scope e code) := by
  cases e with
  | some e => exact expression_code made
  | none =>
    obtain ⟨rfl, rfl⟩ := emit_eq_ok.mp made
    exact Makes.refl (fun _ => .null _)

mutual

theorem statement_code {ctx : Context} {scope after : Scope} {budget : Nat} {s : Stmt} {p q : Progress}
    {code : Segment} (made : statement ctx scope budget s p = .ok ((code, after), q)) :
    Makes p.constants q.constants (StmtCode ctx · scope s code after) := by
  cases budget with
  | zero => exact absurd made (by simp [statement, fail_ne_ok])
  | succ budget =>
    cases s with
    | expr value =>
      simp only [statement, bind_eq_ok, emit_eq_ok, pure_eq_ok, Prod.mk.injEq] at made
      obtain ⟨valueCode, _, valueMade, _, _, ⟨rfl, rfl⟩, ⟨rfl, rfl⟩, rfl⟩ := made
      have valueShape := expression_code valueMade
      refine valueShape.imp (fun pool valueShape => ?_)
      simp only [StmtCode]
      exact ⟨valueCode, _, rfl, trivial, valueShape⟩
    | declare name isMutable initial line =>
      simp only [statement, bind_eq_ok, lookAt_eq_ok, pure_eq_ok, declareLocal_eq_ok, Prod.mk.injEq] at made
      obtain ⟨_, _, rfl, initialCode, _, initialMade, _, _, ⟨new, room, rfl, rfl⟩, ⟨rfl, rfl⟩, rfl⟩ := made
      have initialShape := expressionOrNull_code initialMade
      refine initialShape.imp (fun pool initialShape => ?_)
      simp only [StmtCode]
      exact ⟨trivial, new, room, initialShape⟩
    | branch condition whenTrue whenFalse =>
      simp only [statement, bind_eq_ok, get_eq_ok, emit_eq_ok, closing_eq_ok, distance_eq_ok, pure_eq_ok,
        Prod.mk.injEq] at made
      obtain ⟨conditionCode, _, conditionMade, _, _, ⟨rfl, rfl⟩, _, tested, ⟨rfl, rfl⟩, ⟨trueCode, inner⟩, _,
        trueMade, _, _, ⟨rfl, rfl⟩, _, _, ⟨rfl, rfl⟩, overTrue, _, ⟨trueSmall, rfl, rfl⟩, _, done, ⟨rfl, rfl⟩,
        falseCode, _, falseMade, overFalse, _, ⟨falseSmall, rfl, rfl⟩, ⟨rfl, rfl⟩, rfl⟩ := made
      have conditionShape := expression_code conditionMade
      have trueShape := statement_code trueMade
      have falseShape := optionalBranch_code falseMade
      refine conditionShape.both (trueShape.both falseShape (fun _ => And.intro)) (fun pool conditionShape shapes => ?_)
      simp only [StmtCode]
      exact ⟨conditionCode, trueCode, falseCode, inner, _, _, tested.line, tested.line, done.line, done.line,
        done.line, by simp, UInt16.toNat_ofNat_of_lt' trueSmall, UInt16.toNat_ofNat_of_lt' falseSmall, trivial,
        conditionShape, shapes.1, shapes.2⟩
    | loop condition body =>
      simp only [statement, bind_eq_ok, get_eq_ok, emit_eq_ok, closing_eq_ok, distance_eq_ok, pure_eq_ok,
        Prod.mk.injEq] at made
      obtain ⟨conditionCode, _, conditionMade, _, _, ⟨rfl, rfl⟩, _, tested, ⟨rfl, rfl⟩, ⟨innerCode, inner⟩, _,
        bodyMade, _, _, ⟨rfl, rfl⟩, _, _, ⟨rfl, rfl⟩, back, _, ⟨backSmall, rfl, rfl⟩, overBody, _,
        ⟨bodySmall, rfl, rfl⟩, _, done, ⟨rfl, rfl⟩, ⟨rfl, rfl⟩, rfl⟩ := made
      have conditionShape := expression_code conditionMade
      have bodyShape := statement_code bodyMade
      refine conditionShape.both bodyShape (fun pool conditionShape bodyShape => ?_)
      simp only [StmtCode]
      exact ⟨conditionCode, innerCode, inner, _, _, tested.line, tested.line, done.line, done.line, done.line,
        by simp, UInt16.toNat_ofNat_of_lt' bodySmall, UInt16.toNat_ofNat_of_lt' backSmall, trivial,
        conditionShape, bodyShape⟩
    | giveBack value line =>
      simp only [statement, bind_eq_ok, lookAt_eq_ok, emit_eq_ok, pure_eq_ok, Prod.mk.injEq] at made
      obtain ⟨_, _, rfl, valueCode, _, valueMade, _, _, ⟨rfl, rfl⟩, ⟨rfl, rfl⟩, rfl⟩ := made
      have valueShape := expressionOrNull_code valueMade
      refine valueShape.imp (fun pool valueShape => ?_)
      simp only [StmtCode]
      exact ⟨valueCode, _, rfl, trivial, valueShape⟩
    | block body =>
      simp only [statement, bind_eq_ok, closing_eq_ok, pure_eq_ok, Prod.mk.injEq] at made
      obtain ⟨⟨bodyCode, inner⟩, mid, bodyMade, _, _, ⟨rfl, rfl⟩, ⟨rfl, rfl⟩, rfl⟩ := made
      have bodyShape := statements_code bodyMade
      refine bodyShape.imp (fun pool bodyShape => ?_)
      simp only [StmtCode]
      exact ⟨bodyCode, inner, _, rfl, trivial, bodyShape⟩
    | empty =>
      simp only [statement, pure_eq_ok, Prod.mk.injEq] at made
      obtain ⟨⟨rfl, rfl⟩, rfl⟩ := made
      exact Makes.refl (fun _ => by simp only [StmtCode, and_self])
termination_by structural s

theorem statements_code {ctx : Context} {scope after : Scope} {budget : Nat} {body : List Stmt}
    {p q : Progress} {code : Segment}
    (made : statements ctx scope budget body p = .ok ((code, after), q)) :
    Makes p.constants q.constants (StmtsCode ctx · scope body code after) := by
  cases body with
  | nil =>
    simp only [statements, pure_eq_ok, Prod.mk.injEq] at made
    obtain ⟨⟨rfl, rfl⟩, rfl⟩ := made
    exact Makes.refl (fun _ => by simp only [StmtsCode, and_self])
  | cons s body =>
    simp only [statements, bind_eq_ok, pure_eq_ok, Prod.mk.injEq] at made
    obtain ⟨⟨first, between⟩, mid, firstMade, ⟨rest, last⟩, _, restMade, ⟨rfl, rfl⟩, rfl⟩ := made
    have firstShape := statement_code firstMade
    have restShape := statements_code restMade
    refine firstShape.both restShape (fun pool firstShape restShape => ?_)
    simp only [StmtsCode]
    exact ⟨first, rest, between, rfl, firstShape, restShape⟩
termination_by structural body

theorem optionalBranch_code {ctx : Context} {scope : Scope} {budget : Nat} {s : Option Stmt}
    {p q : Progress} {code : Segment} (made : optionalBranch ctx scope budget s p = .ok (code, q)) :
    Makes p.constants q.constants (BranchCode ctx · scope s code) := by
  cases s with
  | some s =>
    simp only [optionalBranch, bind_eq_ok, closing_eq_ok] at made
    obtain ⟨⟨branchCode, inner⟩, mid, branchMade, rfl, rfl⟩ := made
    have branchShape := statement_code branchMade
    refine branchShape.imp (fun pool branchShape => ?_)
    simp only [BranchCode]
    exact ⟨branchCode, inner, _, rfl, branchShape⟩
  | none =>
    simp only [optionalBranch, pure_eq_ok] at made
    obtain ⟨rfl, rfl⟩ := made
    exact Makes.refl (fun _ => by simp only [BranchCode])
termination_by structural s

end

end Scriptorium.Compile
