import Scriptorium.Proofs.PrintedTokens

/-!
# Parsing printed expressions

The printed form of an expression is parsed back to it (`parses`), whatever follows that does not go on with it (`Ends`,
`Closes`). Operators of one level stand in a row that the parser reads from left to right, while the last of them is the root of
the tree; so a row is read together with what the parser does after it (`Row`).
-/
namespace Scriptorium.Script

namespace Parser

/-- The state before tokens on the first line, after which the source ends. -/
def on (tokens : List Token) : State := .start ⟨tokens.map (⟨·, 1⟩), .finish 1⟩

/-- A parser takes tokens up to a rest and gives a value where something fits, and where it does not, the nesting is too deep. -/
def Reads {α : Type} (p : Parser α) (tokens : List Token) (fits : Prop) (a : α) (rest : List Token) : Prop :=
  (fits ∧ p (on tokens) = .ok a (on rest)) ∨
    (¬ fits ∧ ∃ s, p (on tokens) = .error ⟨1, .nestedTooDeeply⟩ s ∧ s.warnings = [])

section
variable {α β : Type} {p : Parser α} {f : α → Parser β} {tokens mid rest : List Token} {fits more : Prop} {a : α} {b : β}

theorem Reads.bind (first : Reads p tokens fits a mid) (after : Reads (f a) mid more b rest) :
    Reads (p >>= f) tokens (fits ∧ more) b rest := by
  have run : (p >>= f) (on tokens) = EStateM.bind p f (on tokens) := rfl
  rcases first with ⟨fit, given⟩ | ⟨deep, s, failed, quiet⟩
  · rw [EStateM.bind, given] at run
    rcases after with ⟨fit', given'⟩ | ⟨deep, s, failed, quiet⟩
    · exact .inl ⟨⟨fit, fit'⟩, run.trans given'⟩
    · exact .inr ⟨fun both => deep both.2, s, run.trans failed, quiet⟩
  · rw [EStateM.bind, failed] at run
    exact .inr ⟨fun both => deep both.1, s, run, quiet⟩

theorem Reads.congr (reads : Reads p tokens fits a rest) (same : fits ↔ more) : Reads p tokens more a rest := by
  rwa [propext same] at reads

/-- What comes before always fits. -/
theorem Reads.after (first : Reads p tokens True a mid) (next : Reads (f a) mid fits b rest) : Reads (p >>= f) tokens fits b rest :=
  (first.bind next).congr (iff_of_eq (true_and fits))

/-- What comes after always fits. -/
theorem Reads.before (first : Reads p tokens fits a mid) (next : Reads (f a) mid True b rest) : Reads (p >>= f) tokens fits b rest :=
  (first.bind next).congr (iff_of_eq (and_true fits))

theorem Reads.map {g : α → β} (reads : Reads p tokens fits a rest) : Reads (g <$> p) tokens fits (g a) rest := by
  have run : (g <$> p) (on tokens) = EStateM.map g p (on tokens) := rfl
  rcases reads with ⟨fit, given⟩ | ⟨deep, s, failed, quiet⟩
  · rw [EStateM.map, given] at run
    exact .inl ⟨fit, run⟩
  · rw [EStateM.map, failed] at run
    exact .inr ⟨deep, s, run, quiet⟩

theorem reads_pure : Reads (pure a : Parser α) rest True a rest := .inl ⟨trivial, rfl⟩

theorem reads_refusal (beyond : ¬ fits) : Reads (failHere .nestedTooDeeply) tokens fits a rest := by
  refine .inr ⟨beyond, on tokens, ?_, rfl⟩
  cases tokens <;> rfl

theorem reads_peek : Reads peek tokens True tokens.head? tokens := by
  cases tokens <;> exact .inl ⟨trivial, rfl⟩

theorem reads_line : Reads line tokens True 1 tokens := by
  cases tokens <;> exact .inl ⟨trivial, rfl⟩

theorem reads_settle : Reads settle tokens True () tokens := by
  cases tokens <;> exact .inl ⟨trivial, rfl⟩

theorem reads_advance {token : Token} : Reads advance (token :: rest) True () rest := by
  have next : Reads (modify State.next) (token :: rest) True () rest := .inl ⟨trivial, rfl⟩
  exact next.after reads_settle

private theorem reads_isAt (token : Token) (tokens : List Token) : Reads (isAt token) tokens True
    (tokens.head? == some token) tokens :=
  reads_peek.after reads_pure

theorem reads_at {token : Token} : Reads (isAt token) (token :: rest) True true (token :: rest) := by
  have here := reads_isAt token (token :: rest)
  rwa [List.head?_cons, beq_self_eq_true] at here

theorem reads_notAt {token : Token} (other : tokens.head? ≠ some token) : Reads (isAt token) tokens True false tokens := by
  have here := reads_isAt token tokens
  rwa [beq_eq_false_iff_ne.mpr other] at here

theorem reads_accept {sign : Symbol} : Reads (accept sign) (.symbol sign :: rest) True true rest :=
  reads_at.after (reads_advance.after reads_pure)

theorem reads_reject {sign : Symbol} (other : tokens.head? ≠ some (.symbol sign)) :
    Reads (accept sign) tokens True false tokens :=
  (reads_notAt other).after reads_pure

theorem reads_acceptWord {word : Keyword} : Reads (acceptWord word) (.keyword word :: rest) True true rest :=
  reads_at.after (reads_advance.after reads_pure)

theorem reads_rejectWord {word : Keyword} (other : tokens.head? ≠ some (.keyword word)) :
    Reads (acceptWord word) tokens True false tokens :=
  (reads_notAt other).after reads_pure

theorem reads_expect {sign : Symbol} {what : Expectation} : Reads (expect sign what) (.symbol sign :: rest) True () rest :=
  reads_at.after reads_advance

theorem reads_name {word : String} {what : Expectation} : Reads (name what) (.name word :: rest) True word rest :=
  reads_peek.after (reads_advance.after reads_pure)

end

section
variable {α β ι : Type} {pass : β → Parser (β × Bool)} {b b' : β} {tokens mid rest : List Token} {fits more : Prop}

theorem reads_iterate_last (last : Reads (pass b) tokens fits (b', false) rest) : Reads (iterate pass b) tokens fits b' rest := by
  unfold Reads
  rw [iterate]
  rcases last with ⟨fit, given⟩ | ⟨deep, s, failed, quiet⟩
  · rw [given]
    exact .inl ⟨fit, rfl⟩
  · rw [failed]
    exact .inr ⟨deep, s, rfl, quiet⟩

theorem reads_iterate_step {c : β} (first : Reads (pass b) tokens fits (b', true) mid) (shorter : mid.length < tokens.length)
    (others : Reads (iterate pass b') mid more c rest) : Reads (iterate pass b) tokens (fits ∧ more) c rest := by
  have fewer : (on mid).remaining < (on tokens).remaining := by simpa [on, State.start] using shorter
  unfold Reads
  rw [iterate]
  rcases first with ⟨fit, given⟩ | ⟨deep, s, failed, quiet⟩
  · simp only [given, fewer, if_true]
    rcases others with ⟨fit', given'⟩ | ⟨deep, s, failed, quiet⟩
    · exact .inl ⟨⟨fit, fit'⟩, given'⟩
    · exact .inr ⟨fun both => deep both.2, s, failed, quiet⟩
  · rw [failed]
    exact .inr ⟨fun both => deep both.1, s, rfl, quiet⟩

/-- A loop that reads one item after the other, where it is known what it holds after each of them. A pass may depend on the
items before it and on the tokens after it. -/
theorem reads_iterate {spell : ι → List Token} {fit : ι → Prop} {c : β} {after : List Token} (items : List ι) (state : List ι → β)
    (each : ∀ before item others, items = before ++ item :: others → spell item ≠ [] ∧
      Reads (pass (state before)) (spell item ++ (others.flatMap spell ++ rest)) (fit item) (state (before ++ [item]), true)
        (others.flatMap spell ++ rest))
    (last : Reads (iterate pass (state items)) rest more c after) :
    Reads (iterate pass (state [])) (items.flatMap spell ++ rest) ((∀ item ∈ items, fit item) ∧ more) c after := by
  -- after the first item, the same holds of what is known with that item in front
  induction items generalizing state with
  | nil => exact last.congr (by simp)
  | cons item others ih =>
    obtain ⟨filled, first⟩ := each [] item others rfl
    have next := ih (fun before => state (item :: before))
      (fun before other later same => each (item :: before) other later (by rw [same]; rfl)) last
    rw [List.flatMap_cons, List.append_assoc]
    refine (reads_iterate_step first ?_ next).congr (by rw [List.forall_mem_cons, and_assoc])
    have long := List.length_pos_iff.mpr filled
    simp only [List.length_append]
    omega

/-- Items up to a symbol that none of them begins with. -/
theorem reads_itemsUntil {stop : Symbol} {item : Parser α} {spell : ι → List Token} {give : ι → α} {fit : ι → Prop} (items : List ι)
    (each : ∀ before i others, items = before ++ i :: others → (∃ token tail, spell i = token :: tail ∧ token ≠ .symbol stop) ∧
      Reads item (spell i ++ (others.flatMap spell ++ .symbol stop :: rest)) (fit i) (give i)
        (others.flatMap spell ++ .symbol stop :: rest)) :
    Reads (itemsUntil stop item) (items.flatMap spell ++ .symbol stop :: rest) (∀ i ∈ items, fit i) (items.map give)
      (.symbol stop :: rest) := by
  have all : ((∀ i ∈ items, fit i) ∧ True) ↔ ∀ i ∈ items, fit i := by simp
  refine Reads.before (a := (items.map give).reverse) ?_ (by simpa only [List.reverse_reverse] using reads_pure)
  refine Reads.congr (reads_iterate items (fun before => (before.map give).reverse) ?_ ?_) all
  · intro before i others same
    obtain ⟨⟨token, tail, begins, other⟩, reads⟩ := each before i others same
    refine ⟨by simp [begins], reads_peek.after ?_⟩
    rw [begins] at reads ⊢
    simp only [List.cons_append, List.head?_cons, if_neg other, List.map_append, List.map_singleton, List.reverse_append,
      List.reverse_singleton, List.nil_append]
    exact reads.before reads_pure
  · refine reads_iterate_last (reads_peek.after ?_)
    simp only [List.head?_cons, if_true]
    exact reads_pure

private theorem commaSeparated_append (init : List (List Token)) (last : List Token) :
    commaSeparated (init ++ [last]) = init.flatMap (· ++ [.symbol .comma]) ++ last := by
  induction init with
  | nil => exact List.intercalate_singleton
  | cons first init ih =>
    have next : ∃ item items, init ++ [last] = item :: items := by
      cases init <;> exact ⟨_, _, rfl⟩
    obtain ⟨item, items, same⟩ := next
    rw [commaSeparated] at ih ⊢
    rw [List.cons_append, same, List.intercalate_cons_cons, ← same, ih, List.flatMap_cons]
    simp only [List.append_assoc]

theorem commaSeparated_begins {item tail : List Token} {token : Token} (begins : item = token :: tail) (items : List (List Token)) :
    ∃ others, commaSeparated (item :: items) = token :: others := by
  rw [begins, commaSeparated]
  cases items with
  | nil => exact ⟨_, List.intercalate_singleton⟩
  | cons next items =>
    rw [List.intercalate_cons_cons]
    exact ⟨_, rfl⟩

/-- One or more items between commas. An item may depend on those before it, and on the comma or the rest after it. -/
theorem reads_separated {item : List α → Parser α} {spell : ι → List Token} {give : ι → α} {fit : ι → Prop} {items : List ι}
    (filled : items ≠ []) (ends : rest.head? ≠ some (.symbol .comma))
    (each : ∀ before i others next, items = before ++ i :: others → next = rest ∨ (∃ tail, next = .symbol .comma :: tail) →
      Reads (item (before.map give).reverse) (spell i ++ next) (fit i) (give i) next) :
    Reads (separated item) (commaSeparated (items.map spell) ++ rest) (∀ i ∈ items, fit i) (items.map give) rest := by
  rcases List.eq_nil_or_concat items with rfl | ⟨init, final, rfl⟩
  · exact absurd rfl filled
  rw [List.concat_eq_append] at each ⊢
  have all : ((∀ i ∈ init, fit i) ∧ fit final) ↔ ∀ i ∈ init ++ [final], fit i := by simp [or_imp, forall_and]
  have tokens : commaSeparated ((init ++ [final]).map spell) ++ rest =
      init.flatMap (fun i => spell i ++ [.symbol .comma]) ++ (spell final ++ rest) := by
    rw [List.map_append, List.map_singleton, commaSeparated_append, List.flatMap_map, List.append_assoc]
  refine Reads.before (a := ((init ++ [final]).map give).reverse) ?_ (by simpa only [List.reverse_reverse] using reads_pure)
  rw [tokens]
  refine Reads.congr (reads_iterate init (fun before => (before.map give).reverse) ?_ ?_) all
  · intro before i others same
    refine ⟨by simp, ?_⟩
    have first := each before i (others ++ [final])
      (.symbol .comma :: (others.flatMap (fun i => spell i ++ [.symbol .comma]) ++ (spell final ++ rest)))
      (by rw [same, List.append_assoc, List.cons_append]) (.inr ⟨_, rfl⟩)
    rw [List.append_assoc, List.singleton_append]
    simp only [List.map_append, List.map_singleton, List.reverse_append, List.reverse_singleton, List.singleton_append]
    exact first.before (reads_accept.after reads_pure)
  · have last := each init final [] rest rfl (.inl rfl)
    rw [List.map_append, List.reverse_append, List.map_singleton, List.reverse_singleton, List.singleton_append]
    exact reads_iterate_last (last.before ((reads_reject ends).after reads_pure))

end

/-! ## What follows an expression -/

/-- The tokens do not go on with an operation of a level: they begin neither with an operator of it or of one that binds tighter,
nor with what makes a call. -/
def Ends (level : Nat) : List Token → Prop
  | .symbol sign :: _ => sign ≠ .leftParen ∧ ∀ op, Connective.ofSymbol? sign = some op → level < op.level
  | _ => True

/-- The tokens begin with a symbol that closes an expression. -/
def Closes (rest : List Token) : Prop :=
  ∃ sign tail, rest = .symbol sign :: tail ∧ (sign = .rightParen ∨ sign = .comma ∨ sign = .semicolon)

theorem closes_rightParen {rest : List Token} : Closes (.symbol .rightParen :: rest) := ⟨_, _, rfl, .inl rfl⟩

private theorem closes_comma {rest : List Token} : Closes (.symbol .comma :: rest) := ⟨_, _, rfl, .inr (.inl rfl)⟩

theorem closes_semicolon {rest : List Token} : Closes (.symbol .semicolon :: rest) := ⟨_, _, rfl, .inr (.inr rfl)⟩

theorem Ends.less {level most : Nat} {rest : List Token} (ends : Ends most rest) (below : level ≤ most) : Ends level rest := by
  unfold Ends at ends ⊢
  split
  · exact ⟨ends.1, fun op same => below.trans_lt (ends.2 op same)⟩
  · trivial

theorem Closes.ends {rest : List Token} (closes : Closes rest) (level : Nat) : Ends level rest := by
  obtain ⟨sign, tail, rfl, rfl | rfl | rfl⟩ := closes
  all_goals exact ⟨by decide, nofun⟩

private theorem ends_assign (level : Nat) (rest : List Token) : Ends level (.symbol .assign :: rest) := by
  refine ⟨by decide, ?_⟩
  rintro op ⟨⟩

private theorem ends_connective (op : Connective) {level : Nat} (below : level < op.level) (rest : List Token) :
    Ends level (.symbol op.symbol :: rest) := by
  refine ⟨?_, ?_⟩
  · rcases op with (_ | _) | (_ | _) <;> decide
  · intro other same
    rw [Connective.ofSymbol?_symbol, Option.some_inj] at same
    rwa [← same]

section
variable {rest : List Token} {level : Nat}

private theorem reads_noConnective (ends : Ends level rest) : Reads (connectiveAt level) rest True none rest := by
  refine reads_peek.after ?_
  split
  · rename_i sign head
    obtain ⟨tail, rfl⟩ := List.head?_eq_some_iff.mp head
    have none : (Connective.ofSymbol? sign).filter (·.level == level) = none := by
      rw [Option.filter_eq_none_iff]
      intro op same
      have higher := ends.2 op same
      simp only [beq_iff_eq]
      omega
    rw [none]
    exact reads_pure
  · exact reads_pure

private theorem reads_connective (op : Connective) :
    Reads (connectiveAt op.level) (.symbol op.symbol :: rest) True (some op) (.symbol op.symbol :: rest) := by
  refine reads_peek.after ?_
  have found : (Connective.ofSymbol? op.symbol).filter (·.level == op.level) = some op := by
    rw [Connective.ofSymbol?_symbol]
    simp
  simp only [List.head?_cons, found]
  exact reads_pure

end

section
variable (ctx : Context) {level ops nesting : Nat} {tokens : List Token} {e : Expr}

/-- Tokens are read as an operand of a level, with their nesting. -/
def Operand (level : Nat) (tokens : List Token) (nesting : Nat) (e : Expr) : Prop :=
  ∀ (budget : Nat) {rest : List Token}, Ends level rest →
    Reads (operation ctx level budget) (tokens ++ rest) (nesting ≤ budget) e rest

/-- Tokens are read as a row with some operators of a level, whatever comes of what follows it. -/
def Row (level : Nat) (tokens : List Token) (nesting ops : Nat) (e : Expr) : Prop :=
  ∀ (budget : Nat) {rest last : List Token} {more : Prop} {whole : Expr}, Ends level rest →
    Reads (operationFrom ctx level (budget - ops) e) rest more whole last →
    Reads (operation ctx (level + 1) budget) (tokens ++ rest) (nesting ≤ budget ∧ more) whole last

/-- Tokens are read as an expression, with their nesting. -/
def Whole (tokens : List Token) (nesting : Nat) (e : Expr) : Prop :=
  ∀ (budget : Nat) {rest : List Token}, Closes rest →
    Reads (expression ctx budget) (tokens ++ rest) (nesting + 1 ≤ budget) e rest

variable {ctx}

private theorem reads_lastOperator {budget : Nat} {rest : List Token} (ends : Ends (level + 1) rest) :
    Reads (operationFrom ctx level budget e) rest True e rest := by
  rw [operationFrom]
  exact (reads_noConnective ends).after reads_pure

/-- An operand is a row without operators. -/
theorem Operand.row (operand : Operand ctx level tokens nesting e) : Row ctx level tokens nesting 0 e := by
  intro budget rest last more whole ends after
  rw [operation]
  exact (operand budget ends).bind after

theorem Row.operand (row : Row ctx level tokens nesting ops e) : Operand ctx (level + 1) tokens nesting e := by
  intro budget rest ends
  exact (row budget (ends.less (Nat.le_succ level)) (reads_lastOperator ends)).congr (iff_of_eq (and_true _))

theorem Operand.looser (operand : Operand ctx level tokens nesting e) {most : Nat} (above : level ≤ most) :
    Operand ctx most tokens nesting e := by
  induction above with
  | refl => exact operand
  | step _ ih => exact ih.row.operand

/-- A row goes on with an operator and a right operand. -/
theorem Row.apply {op : Connective} (same : op.level = level + 1) {left right : List Token} {first second : Nat} {l r : Expr}
    (row : Row ctx level left first ops l) (operand : Operand ctx level right second r) :
    Row ctx level (left ++ .symbol op.symbol :: right) (max first (ops + 1 + second)) (ops + 1) (op.apply 1 l r) := by
  intro budget rest last more whole ends after
  -- the row in front has taken `ops` levels of the budget, and the operator takes one more
  have step : Reads (operationFrom ctx level (budget - ops) l) (.symbol op.symbol :: (right ++ rest))
      (0 < budget - ops ∧ second ≤ budget - ops - 1 ∧ more) whole last := by
    rw [operationFrom, ← same]
    refine (reads_connective op).after (reads_line.after (reads_advance.after ?_))
    cases left : budget - ops with
    | zero => exact reads_refusal (by omega)
    | succ budget' =>
      have next := (operand budget' ends).bind (f := fun r => operationFrom ctx level budget' (op.apply 1 l r))
        (by rwa [show budget' = budget - (ops + 1) by omega])
      exact next.congr (by simp)
  rw [List.append_assoc, List.cons_append]
  refine (row budget (ends_connective op (by omega) _) step).congr ?_
  rw [← and_assoc, ← and_assoc, and_congr_left_iff]
  intro _
  omega

/-- An operand of the loosest level is an expression, unless an assignment follows. -/
theorem Operand.whole (operand : Operand ctx Connective.levels tokens nesting e) : Whole ctx tokens nesting e := by
  intro budget rest closes
  cases budget with
  | zero =>
    rw [expression]
    exact reads_refusal (by omega)
  | succ budget =>
    rw [expression, assignment]
    refine ((operand budget (closes.ends _)).before (reads_line.after (reads_peek.after ?_))).congr (by omega)
    obtain ⟨sign, tail, rfl, rfl | rfl | rfl⟩ := closes
    all_goals exact reads_pure

end

/-! ## Operands -/

section
variable {ctx : Context} {budget nesting : Nat} {tokens rest : List Token} {fits : Prop} {e : Expr}

/-- What is read as a primary expression is an operand, unless it is called or a unary operator stands in front. -/
theorem reads_unary_of_primary (plain : ∀ sign, tokens.head? = some (.symbol sign) → unaryOp? sign = none)
    (ends : Ends 0 rest) (reads : Reads (primary ctx budget) tokens fits e rest) : Reads (unary ctx budget) tokens fits e rest := by
  have uncalled : rest.head? ≠ some (.symbol .leftParen) := by
    intro head
    obtain ⟨tail, rfl⟩ := List.head?_eq_some_iff.mp head
    exact ends.1 rfl
  have called : Reads (call ctx budget) tokens fits e rest := by
    rw [call]
    exact reads.before ((reads_notAt uncalled).after reads_pure)
  rw [unary]
  refine reads_line.after (reads_peek.after ?_)
  split
  · rename_i sign head
    rw [plain sign head]
    exact called
  · exact called

/-- The expression that a token is by itself, on the first line. -/
def atom? : Token → Option Expr
  | .number value => some (.number value)
  | .text value => some (.text value)
  | .keyword .trueWord => some (.bool true)
  | .keyword .falseWord => some (.bool false)
  | .keyword .nullWord => some .null
  | .name word => some (.name word 1)
  | _ => none

private theorem reads_atom {token : Token} (known : atom? token = some e) : Reads (primary ctx budget)
    (token :: rest) True e rest := by
  rw [primary]
  refine reads_line.after (reads_peek.after ?_)
  unfold atom? at known
  split at known
  case h_7 => cases known
  all_goals
    cases known
    exact reads_advance.after reads_pure

private theorem operand_atom {token : Token} (known : atom? token = some e) : Operand ctx 0 [token] 0 e := by
  intro budget rest ends
  rw [operation]
  refine reads_unary_of_primary ?_ ends ((reads_atom known).congr (by simp))
  rintro sign ⟨⟩
  cases known

/-- An expression in parentheses is an operand. -/
theorem Whole.enclosed (whole : Whole ctx tokens nesting e) :
    Operand ctx 0 (.symbol .leftParen :: (tokens ++ [.symbol .rightParen])) (nesting + 1) e := by
  intro budget rest ends
  rw [operation, List.cons_append, List.append_assoc, List.singleton_append]
  refine reads_unary_of_primary ?_ ends ?_
  · rintro _ ⟨⟩
    rfl
  · rw [primary]
    refine reads_line.after (reads_peek.after (reads_advance.after ?_))
    exact (whole budget closes_rightParen).before (reads_expect.after reads_pure)

/-- A unary operator in front of an operand makes one. -/
theorem Operand.unary (op : UnaryOp) (operand : Operand ctx 0 tokens nesting e) :
    Operand ctx 0 (.symbol (unarySymbol op) :: tokens) (nesting + 1) (.unary op e 1) := by
  intro budget rest ends
  have known : unaryOp? (unarySymbol op) = some op := by cases op <;> rfl
  rw [operation, Parser.unary]
  refine reads_line.after (reads_peek.after ?_)
  simp only [List.cons_append, List.head?_cons, known]
  refine reads_advance.after ?_
  cases budget with
  | zero => exact reads_refusal (by omega)
  | succ budget =>
    have inner := operand budget ends
    rw [operation] at inner
    exact Reads.congr (inner.before reads_pure) (by omega)

/-- A name and arguments make an operand. -/
theorem operand_call (callee : String) {args : List Expr} (known : ∀ arg ∈ args, Whole ctx arg.tokens arg.nesting (arg.onLine 1))
    (opens : ∀ arg ∈ args, ∃ token tail, arg.tokens = token :: tail ∧ token ≠ .symbol .rightParen) (line : Nat) :
    Operand ctx 0 (Expr.call callee args line).tokens (Expr.nestingOf args) (.call callee (args.map (Expr.onLine 1)) 1) := by
  intro budget rest ends
  have called : Reads (call ctx budget) ((Expr.call callee args line).tokens ++ rest) (Expr.nestingOf args ≤ budget)
      (.call callee (args.map (Expr.onLine 1)) 1) rest := by
    simp only [Expr.tokens, Expr.tokensOf_eq, List.cons_append, List.append_assoc, List.nil_append]
    rw [call]
    refine Reads.after (reads_atom rfl) (reads_at.after (reads_advance.after ?_))
    dsimp only
    cases args with
    | nil =>
      refine Reads.congr ?_ (iff_of_true trivial (Nat.zero_le budget))
      exact reads_at.after (reads_pure.after (reads_expect.after reads_pure))
    | cons arg args =>
      obtain ⟨token, tail, begins, other⟩ := opens arg List.mem_cons_self
      obtain ⟨others, same⟩ := commaSeparated_begins begins (args.map Expr.tokens)
      have unclosed : (commaSeparated ((arg :: args).map Expr.tokens) ++ .symbol .rightParen :: rest).head? ≠
          some (.symbol .rightParen) := by
        rw [List.map_cons, same]
        simpa using other
      refine (reads_notAt unclosed).after ?_
      refine (Reads.congr (reads_separated (List.cons_ne_nil arg args) (by simp) ?_) Expr.nestingOf_le.symm).before
        (reads_expect.after reads_pure)
      intro before i later next here follows
      refine known i (by rw [here]; simp) budget ?_
      rcases follows with rfl | ⟨tail, rfl⟩
      · exact closes_rightParen
      · exact closes_comma
  rw [operation, Parser.unary]
  simp only [Expr.tokens, List.cons_append] at called ⊢
  exact reads_line.after (reads_peek.after called)

end

/-- The printed form of an expression is read as an expression, as an operand of every level that it is tight enough for, and as a
row of its own level. -/
structure Parses (ctx : Context) (e : Expr) : Prop where
  whole : Whole ctx e.tokens e.nesting (e.onLine 1)
  operand : ∀ level, 0 < e.rank → unaryRank ≤ e.rank + level → Operand ctx level e.tokens e.nesting (e.onLine 1)
  row : ∀ level, 0 < e.rank → e.rank + level + 1 = unaryRank → Row ctx level e.tokens e.nesting e.row (e.onLine 1)

section
variable {ctx : Context} {e : Expr} {level place : Nat}

theorem Parses.of_operand (tight : unaryRank ≤ e.rank) (operand : Operand ctx 0 e.tokens e.nesting (e.onLine 1)) :
    Parses ctx e where
  whole := (operand.looser (Nat.zero_le _)).whole
  operand level _ _ := operand.looser (Nat.zero_le level)
  row level _ same := by omega

theorem Parses.of_row (level : Nat) (positive : 0 < e.rank) (same : e.rank + level + 1 = unaryRank)
    (row : Row ctx level e.tokens e.nesting e.row (e.onLine 1)) : Parses ctx e where
  whole := by
    have below : level + 1 ≤ Connective.levels := by
      simp only [unaryRank, Connective.levels] at same ⊢
      omega
    exact (row.operand.looser below).whole
  operand other _ tight := row.operand.looser (by omega)
  row other _ same' := by
    obtain rfl : other = level := by omega
    exact row

/-- Wherever an expression can stand, it is read as an operand of that place, in parentheses or without. -/
theorem Parses.placed (parses : Parses ctx e) (positive : 0 < place) (same : place + level = unaryRank) :
    Operand ctx level (enclosed e.rank place e.tokens) (enclosedNesting e.rank place e.nesting) (e.onLine 1) := by
  unfold enclosed enclosedNesting
  split
  · exact parses.whole.enclosed.looser (Nat.zero_le level)
  · exact parses.operand level (by omega) (by omega)

/-- On the left of an operator, an expression of the same rank is read as the row in front of it. -/
theorem Parses.placedLeft (parses : Parses ctx e) (positive : 0 < place) (same : place + level + 1 = unaryRank) :
    Row ctx level (enclosed e.rank place e.tokens) (enclosedNesting e.rank place e.nesting)
      (if e.rank = place then e.row else 0) (e.onLine 1) := by
  by_cases equal : e.rank = place
  · rw [if_pos equal, enclosed, enclosedNesting, equal, if_neg (lt_irrefl place), if_neg (lt_irrefl place)]
    exact parses.row level (equal ▸ positive) (by rw [equal]; exact same)
  · have tighter : e.rank < place ↔ e.rank < place + 1 := by omega
    rw [if_neg equal, enclosed, enclosedNesting, if_congr tighter rfl rfl, if_congr tighter rfl rfl]
    exact (parses.placed (Nat.succ_pos place) (by omega)).row

theorem Parses.apply (op : Connective) (line : Nat) {left right : Expr} (first : Parses ctx left) (second : Parses ctx right) :
    Parses ctx (op.apply line left right) := by
  obtain ⟨level, same⟩ : ∃ level, op.level = level + 1 := Nat.exists_eq_add_one.mpr op.level_pos
  have total := op.rank_add_level
  refine Parses.of_row level (by rw [Expr.rank_apply]; exact op.rank_pos) (by rw [Expr.rank_apply]; omega) ?_
  have row := (first.placedLeft op.rank_pos (by omega)).apply same (second.placed op.rank.succ_pos (by omega))
  rwa [Expr.tokens_apply, Expr.nesting_apply, Expr.row_apply, Expr.onLine_apply]

theorem Parses.assign (target : String) {value : Expr} (line : Nat) (parses : Parses ctx value) :
    Parses ctx (.assign target value line) where
  whole := by
    intro budget rest closes
    cases budget with
    | zero =>
      rw [expression]
      exact reads_refusal (by omega)
    | succ budget =>
      rw [expression, assignment]
      simp only [Expr.tokens, Expr.nesting, List.cons_append]
      have here : Operand ctx 0 [.name target] 0 (.name target 1) := operand_atom rfl
      have name := here.looser (Nat.zero_le Connective.levels)
      have named := name budget (ends_assign Connective.levels (value.tokens ++ rest))
      refine Reads.congr (named.bind (reads_line.after (reads_peek.after (reads_advance.after
        ((parses.whole budget closes).before reads_pure))))) ?_
      omega
  operand level positive := absurd positive (lt_irrefl 0)
  row level positive := absurd positive (lt_irrefl 0)

end

/-- Whether a token can begin an expression. -/
def opensExpr : Token → Bool
  | .number _ | .text _ | .name _ => true
  | .keyword .trueWord | .keyword .falseWord | .keyword .nullWord => true
  | .symbol .leftParen | .symbol .bang | .symbol .minus => true
  | _ => false

private theorem enclosed_begins (rank place : Nat) {tokens : List Token}
    (begins : ∃ token tail, tokens = token :: tail ∧ opensExpr token) :
    ∃ token tail, enclosed rank place tokens = token :: tail ∧ opensExpr token := by
  unfold enclosed
  split
  · exact ⟨_, _, rfl, rfl⟩
  · exact begins

/-- A printed expression begins as expressions do. -/
theorem tokens_begins {e : Expr} (plain : e.Plain) : ∃ token tail, e.tokens = token :: tail ∧ opensExpr token := by
  induction plain with
  | number value | text value | null | name word line | assign target line inside | call callee line inside =>
    exact ⟨_, _, rfl, rfl⟩
  | bool value => cases value <;> exact ⟨_, _, rfl, rfl⟩
  | unary op line inside => cases op <;> exact ⟨_, _, rfl, rfl⟩
  | @apply op line left right first second ihl ihr =>
    obtain ⟨token, tail, begins, opens⟩ := enclosed_begins left.rank op.rank ihl
    rw [Expr.tokens_apply, begins]
    exact ⟨token, _, rfl, opens⟩

/-- Every printed expression is parsed. -/
theorem parses {ctx : Context} {e : Expr} (plain : e.Plain) : Parses ctx e := by
  induction plain with
  | number value | text value | null | name word line => exact .of_operand (Nat.le_succ _) (operand_atom rfl)
  | bool value => cases value <;> exact .of_operand (Nat.le_succ _) (operand_atom rfl)
  | assign target line inside ih => exact ih.assign target line
  | apply op line first second ihl ihr => exact ihl.apply op line ihr
  | unary op line inside ih => exact .of_operand le_rfl ((ih.placed (by decide) (Nat.add_zero unaryRank)).unary op)
  | @call callee args line inside ih =>
    have operand := operand_call callee (fun arg present => (ih arg present).whole) (fun arg present => ?_) line
    · refine .of_operand (Nat.le_succ _) ?_
      rwa [Expr.onLine, Expr.onLineOf_eq]
    · obtain ⟨token, tail, begins, opens⟩ := tokens_begins (inside arg present)
      refine ⟨token, tail, begins, ?_⟩
      rintro rfl
      cases opens

end Parser

end Scriptorium.Script
