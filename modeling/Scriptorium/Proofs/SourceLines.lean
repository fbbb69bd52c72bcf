import Mathlib
import Scriptorium.Proofs.Grammar

/-!
# Lines of a source

No token, and nothing in a syntax tree, bears a line that the source does not have: reading a token never raises the
line by more than the line feeds that it takes (`Cursor.next_lastLine`), and the parser gives to a tree only lines of
tokens (`parse_within`).
-/
namespace Scriptorium.Script

/-- The number of the last line of a source, as far as it can be told at a place in it. -/
def Cursor.lastLine (cursor : Cursor) : Nat := cursor.line + cursor.rest.count '\n'

theorem line_after (c : Char) (rest : List Char) (line : Nat) :
    (if c = '\n' then line + 1 else line) + rest.count '\n' = line + (c :: rest).count '\n' := by
  by_cases newline : c = '\n'
  · rw [if_pos newline, newline, List.count_cons_self]
    omega
  · rw [if_neg newline, List.count_cons_of_ne newline]

theorem count_tail_le (c : Char) (rest : List Char) : rest.count '\n' ≤ (c :: rest).count '\n' :=
  (List.sublist_cons_self c rest).count_le '\n'

private theorem skipTrivia_lastLine {s : List Char} (mode : Trivia) {line limit : Nat} (bound : line + s.count '\n' ≤ limit)
    (opened : ∀ start starred, mode = .blockComment start starred → start ≤ line) :
    (skipTrivia s mode line).2.lastLine ≤ limit ∧
      ∀ fault, (skipTrivia s mode line).1 = some fault → fault.line ≤ limit := by
  fun_induction skipTrivia s mode line
  case case1 mode line =>
    refine ⟨bound, ?_⟩
    intro fault ends
    cases mode with
    | blanks | lineComment => cases ends
    | blockComment start starred =>
      cases ends
      exact (opened start starred rfl).trans ((Nat.le_add_right _ _).trans bound)
  case case2 line rest ih | case10 line rest ih =>
    rw [← line_after, if_pos rfl] at bound
    refine ih bound ?_
    rintro _ _ ⟨⟩
  case case13 c rest start starred other ih =>
    have early := opened start starred rfl
    rw [← line_after] at bound
    refine ih bound ?_
    rintro _ _ ⟨⟩
    split <;> omega
  all_goals simp_all [Cursor.lastLine, List.count_cons]

private theorem readText_lastLine (quote : Char) (done : List Char) {s : List Char} {line limit : Nat}
    (bound : line + s.count '\n' ≤ limit) : (readText quote s done line).2.lastLine ≤ limit := by
  fun_induction readText quote s done line
  case case1 => exact bound
  case case2 done line rest =>
    have less := count_tail_le quote rest
    simp only [Cursor.lastLine]
    omega
  case case3 => exact (Nat.add_le_add_left (Nat.zero_le _) _).trans bound
  case case4 d rest _ ih =>
    have less := (count_tail_le d rest).trans (count_tail_le '\\' (d :: rest))
    exact ih (by omega)
  case case5 ih =>
    rw [← line_after] at bound
    exact ih bound

private theorem readNumber_sublist (s : List Char) : (readNumber s).2.Sublist s := by
  have rest := List.dropWhile_sublist (l := s) Char.isDigit
  unfold readNumber
  simp only
  split
  · rename_i d rest' left
    rw [left] at rest
    split
    · exact ((List.dropWhile_sublist _).trans (List.sublist_cons_self _ _)).trans rest
    · exact rest
  · exact rest

/-- A symbol stands in front of what is left after it. -/
theorem Symbol.read?_split {s rest : List Char} {symbol : Symbol} (read : read? s = some (symbol, rest)) :
    s = symbol.spelling.toList ++ rest := by
  unfold read? at read
  split at read
  all_goals cases read
  all_goals rfl

/-- The line that a reading bears. -/
def Reading.line : Reading → Nat
  | .token lexeme => lexeme.line
  | .finish line => line
  | .fault failure => failure.line

private theorem readToken_lastLine {line limit : Nat} {s : List Char} (bound : line + s.count '\n' ≤ limit) :
    (readToken line s).2.lastLine ≤ limit ∧ (readToken line s).1.line ≤ limit := by
  have here : line ≤ limit := (Nat.le_add_right _ _).trans bound
  have after : ∀ {rest : List Char}, rest.Sublist s → line + rest.count '\n' ≤ limit := by
    intro rest sublist
    exact (Nat.add_le_add_left (sublist.count_le '\n') line).trans bound
  cases s with
  | nil => exact ⟨bound, here⟩
  | cons c rest =>
    unfold readToken
    simp only
    split
    · exact ⟨after (readNumber_sublist (c :: rest)), here⟩
    · split
      · exact ⟨after ((List.dropWhile_sublist Text.isWordChar).trans (List.sublist_cons_self c rest)), here⟩
      · split
        · have text := readText_lastLine c [] (after (List.sublist_cons_self c rest))
          split
          · rename_i value cursor read
            rw [read] at text
            exact ⟨text, here⟩
          · rename_i cursor read
            rw [read] at text
            exact ⟨text, here⟩
        · split
          · rename_i symbol rest' read
            exact ⟨after (Symbol.read?_split read ▸ List.sublist_append_right _ rest'), here⟩
          · exact ⟨after (List.sublist_cons_self c rest), here⟩

/-- A reading stays within the lines of the source, and so does what follows it. -/
theorem Cursor.next_lastLine {cursor : Cursor} {limit : Nat} (bound : cursor.lastLine ≤ limit) :
    (cursor.next).2.lastLine ≤ limit ∧ (cursor.next).1.line ≤ limit := by
  have skipped := skipTrivia_lastLine .blanks bound nofun
  unfold Cursor.next
  split
  · rename_i fault after read
    rw [read] at skipped
    exact ⟨skipped.1, skipped.2 fault rfl⟩
  · rename_i after read
    rw [read] at skipped
    exact readToken_lastLine skipped.1

/-- The tokens and the end of a stream bear no line beyond a limit. -/
structure TokenStream.Within (limit : Nat) (tokens : TokenStream) : Prop where
  lexemes : ∀ lexeme ∈ tokens.lexemes, lexeme.line ≤ limit
  finish : ∀ line, tokens.stop = .finish line → line ≤ limit
  fault : ∀ fault, tokens.stop = .fault fault → fault.line ≤ limit

/-- The tokens from a place on are the token there and those after it. -/
theorem TokenStream.go_token {cursor after : Cursor} {lexeme : Lexeme} (next : cursor.next = (.token lexeme, after))
    (done : List Lexeme) : TokenStream.ofCursor.go done cursor = TokenStream.ofCursor.go (lexeme :: done) after := by
  rw [TokenStream.ofCursor.go]
  split
  next finished => cases next.symm.trans finished
  next failed => cases next.symm.trans failed
  next read =>
    cases next.symm.trans read
    rfl

theorem TokenStream.ofCursor_within {done : List Lexeme} {cursor : Cursor} {limit : Nat} (bound : cursor.lastLine ≤ limit)
    (before : ∀ lexeme ∈ done, lexeme.line ≤ limit) : (TokenStream.ofCursor.go done cursor).Within limit := by
  fun_induction TokenStream.ofCursor.go done cursor
  case case1 line after read =>
    have within := (Cursor.next_lastLine bound).2
    rw [read] at within
    refine ⟨by simpa using before, ?_, nofun⟩
    rintro _ ⟨⟩
    exact within
  case case2 fault after read =>
    have within := (Cursor.next_lastLine bound).2
    rw [read] at within
    refine ⟨by simpa using before, nofun, ?_⟩
    rintro _ ⟨⟩
    exact within
  case case3 lexeme after read shorter ih =>
    have within := Cursor.next_lastLine bound
    rw [read] at within
    refine ih within.1 ?_
    intro other present
    rcases List.mem_cons.mp present with rfl | earlier
    · exact within.2
    · exact before other earlier

/-- The tokens of a source stay within its lines. -/
theorem TokenStream.ofSource_within {source : String} {limit : Nat} (lines : source.toList.count '\n' < limit) :
    (TokenStream.ofSource source).Within limit := by
  refine TokenStream.ofCursor_within ?_ nofun
  simp only [Cursor.start, Cursor.lastLine]
  omega

section
variable (limit : Nat)

/-- An expression bears no line beyond a limit. -/
inductive Expr.Within : Expr → Prop
  | number (value : Float) : Within (.number value)
  | text (value : String) : Within (.text value)
  | bool (value : Bool) : Within (.bool value)
  | null : Within .null
  | bracket (path : String) (value : Value) : Within (.bracket path value)
  | name (name : String) {line : Nat} (below : line ≤ limit) : Within (.name name line)
  | assign (name : String) {value : Expr} {line : Nat} (inside : Within value) (below : line ≤ limit) :
      Within (.assign name value line)
  | binary (op : BinaryOp) {left right : Expr} {line : Nat} (first : Within left) (second : Within right)
      (below : line ≤ limit) : Within (.binary op left right line)
  | logical (op : LogicalOp) {left right : Expr} {line : Nat} (first : Within left) (second : Within right)
      (below : line ≤ limit) : Within (.logical op left right line)
  | unary (op : UnaryOp) {operand : Expr} {line : Nat} (inside : Within operand) (below : line ≤ limit) :
      Within (.unary op operand line)
  | call (name : String) {args : List Expr} {line : Nat} (inside : ∀ arg ∈ args, Within arg) (below : line ≤ limit) :
      Within (.call name args line)

/-- A statement bears no line beyond a limit. -/
inductive Stmt.Within : Stmt → Prop
  | expr {value : Expr} (inside : value.Within limit) : Within (.expr value)
  | declare (name : String) (isMutable : Bool) {initial : Option Expr} {line : Nat}
      (inside : ∀ e, initial = some e → e.Within limit) (below : line ≤ limit) :
      Within (.declare name isMutable initial line)
  | branch {condition : Expr} {whenTrue : Stmt} {whenFalse : Option Stmt} (test : condition.Within limit)
      (first : Within whenTrue) (second : ∀ s, whenFalse = some s → Within s) :
      Within (.branch condition whenTrue whenFalse)
  | loop {condition : Expr} {body : Stmt} (test : condition.Within limit) (inside : Within body) :
      Within (.loop condition body)
  | giveBack {value : Option Expr} {line : Nat} (inside : ∀ e, value = some e → e.Within limit) (below : line ≤ limit) :
      Within (.giveBack value line)
  | block {body : List Stmt} (inside : ∀ s ∈ body, Within s) : Within (.block body)
  | empty : Within .empty

/-- A global bears no line beyond a limit. -/
structure GlobalDecl.Within (decl : GlobalDecl) : Prop where
  initial : decl.initial.Within limit
  line : decl.line ≤ limit

/-- A function bears no line beyond a limit. -/
structure FunctionDecl.Within (decl : FunctionDecl) : Prop where
  body : ∀ s ∈ decl.body, s.Within limit
  line : decl.line ≤ limit

/-- A unit bears no line beyond a limit. -/
structure ParsedUnit.Within (parsed : ParsedUnit) : Prop where
  globals : ∀ decl ∈ parsed.globals, decl.Within limit
  functions : ∀ decl ∈ parsed.functions, decl.Within limit
  statements : ∀ s ∈ parsed.statements, s.Within limit

end

namespace Parser

variable {limit : Nat}

/-- The tokens that are left bear no line beyond a limit. -/
def State.Within (limit : Nat) (s : State) : Prop := s.tokens.Within limit

private theorem stable_within : Stable (State.Within limit) where
  next _ within := ⟨fun lexeme present => within.lexemes lexeme (List.mem_of_mem_tail present), within.finish, within.fault⟩
  warn _ _ within := within

theorem State.Within.line {s : State} (within : s.Within limit) : s.line ≤ limit := by
  unfold State.line
  split
  · rename_i lexeme rest tokens
    exact within.lexemes lexeme (by rw [tokens]; exact List.mem_cons_self)
  · rename_i line tokens stop
    exact within.finish line stop
  · rename_i fault tokens stop
    exact within.fault fault stop

private theorem apply_within {op : Connective} {line : Nat} {left right : Expr} (below : line ≤ limit) (first : left.Within limit)
    (second : right.Within limit) : (op.apply line left right).Within limit := by
  cases op with
  | binary op => exact .binary op first second below
  | logical op => exact .logical op first second below

private theorem assigned_within {name : String} {line : Nat} {op : Option BinaryOp} {value : Expr} (below : line ≤ limit)
    (inside : value.Within limit) : (assigned name line op value).Within limit := by
  cases op with
  | some op => exact .binary op (.name name below) inside below
  | none => exact inside

private theorem inner_within {budget : Nat} {e : Expr} (inner : Inner (fun _ e => e.Within limit) budget e) : e.Within limit := by
  cases budget with
  | zero => exact inner.elim
  | succ budget => exact inner

/-- The grammar gives to trees only lines of tokens. -/
theorem kept_within : Kept (State.Within limit) (· ≤ limit) (fun _ e => e.Within limit) (fun _ s => s.Within limit) where
  stable := stable_within
  lines _ within := within.line
  number _ _ := .number _
  text _ _ := .text _
  bool _ _ := .bool _
  null _ := .null
  bracket _ _ _ := .bracket _ _
  name _ _ _ below := .name _ below
  group _ _ within := within
  call := by
    rintro _ name args line (_ | _ | _ | _ | _ | ⟨_, below⟩) inside
    exact .call name (fun arg present => inner_within (inside arg present)) below
  unary _ op _ _ below inside := .unary op inside below
  apply _ _ _ _ _ _ _ below first second := apply_within below first second
  assign _ name _ _ _ _ below _ inside := .assign name (assigned_within below (inner_within inside)) below
  expr _ _ inside := .expr (inner_within inside)
  declare _ name isMutable _ _ below inside := .declare name isMutable (fun e present => inner_within (inside e present)) below
  branch _ _ _ _ test first second := .branch (inner_within test) first second
  loop _ _ _ test inside := .loop (inner_within test) inside
  giveBack _ _ _ below inside := .giveBack (fun e present => inner_within (inside e present)) below
  block _ _ inside := .block inside
  empty _ := .empty

end Parser

/-- A unit bears no line that its source does not have. -/
theorem parse_within {env : Environment} {source unit artifact : String} {tolerant : Bool} {parsed : ParsedUnit}
    {limit : Nat} (lines : source.toList.count '\n' < limit)
    (accepted : (env.parse source unit artifact tolerant).result = .ok parsed) : parsed.Within limit := by
  have begun : (Parser.State.start (.ofSource source)).Within limit := TokenStream.ofSource_within lines
  obtain ⟨globals, functions, statements⟩ := Parser.kept_within.parse begun accepted
  refine ⟨?_, ?_, statements⟩
  · intro decl inside
    exact ⟨Parser.inner_within (globals decl inside).1, (globals decl inside).2⟩
  · intro decl inside
    exact ⟨(functions decl inside).1, (functions decl inside).2⟩

end Scriptorium.Script
