import Scriptorium.Proofs.OnDemandParsing

/-!
# Progress of the parser

Parsing ends because it moves on. A call of the lexer takes a character unless the source is at its end, and after a call that gave
no token there is no other; so there is at most one call for each character and one for the end. A pass of a loop that asks for
another one has taken a token, and so has every statement, expression and operand that is parsed; and none of them is entered again
from inside before a token has been taken. The account of a parse on demand shows all this (`parse_progresses`).

What lies inside a part is entered with fewer tokens left, or has a lower rank (`Place.Admits`). Every production keeps to this
order wherever it stands (`Proceeds`), and the order leaves no room for a part inside itself at the same place.
-/
namespace Scriptorium.Script.OnDemand

open Scriptorium.Script.Parser (Context Progress)
open Std (HashSet)

/-- The calls of the lexer on a source, last first: the first at its beginning, and each other where one has ended that gave a
token. -/
inductive Calls (source : String) : List Call → Prop
  | first : Calls source [Call.at (Cursor.start source)]
  | next {last : Call} {earlier : List Call} {lexeme : Lexeme} (before : Calls source (last :: earlier))
      (token : last.reading = .token lexeme) : Calls source (Call.at last.after :: last :: earlier)

theorem Call.at_shorter (cursor : Cursor) (more : ∀ line, (Call.at cursor).reading ≠ .finish line) :
    (Call.at cursor).after.rest.length < cursor.rest.length :=
  cursor.next_shorter more

theorem Calls.eq_at {source : String} {calls : List Call} (called : Calls source calls) :
    ∀ call ∈ calls, call = Call.at call.before := by
  induction called with
  | first => simp [Call.at]
  | next _ _ ih => exact List.forall_mem_cons.mpr ⟨rfl, ih⟩

/-- Each call before the last has taken a character. -/
theorem Calls.room {source : String} {last : Call} {earlier : List Call} (called : Calls source (last :: earlier)) :
    earlier.length + last.before.rest.length ≤ source.length := by
  generalize same : last :: earlier = calls at called
  induction called generalizing last earlier with
  | first =>
    obtain ⟨rfl, rfl⟩ := List.cons.inj same
    simp [Call.at, Cursor.start, String.length_toList]
  | @next before others lexeme called token ih =>
    obtain ⟨rfl, rfl⟩ := List.cons.inj same
    have room := ih rfl
    have short : before.after.rest.length < before.before.rest.length := by
      have call := called.eq_at before List.mem_cons_self
      have shorter := Call.at_shorter before.before (by simp [← call, token])
      rwa [← call] at shorter
    simp only [List.length_cons, Call.at]
    omega

theorem Call.next_eq {call : Call} (read : call = Call.at call.before) : call.before.next = (call.reading, call.after) := by
  rw [read]
  rfl

theorem Call.readings_next {call : Call} (read : call = Call.at call.before) {lexeme : Lexeme} (token : call.reading = .token lexeme) :
    call.before.readings = call.reading :: call.after.readings :=
  Cursor.readings_cons (Call.next_eq read) (by simp [token])

/-- The readings of the source are those of the calls before the last, and those from where that begins. -/
theorem Calls.readings {source : String} {last : Call} {earlier : List Call} (called : Calls source (last :: earlier)) :
    (Cursor.start source).readings = (earlier.map Call.reading).reverse ++ last.before.readings := by
  generalize same : last :: earlier = calls at called
  induction called generalizing last earlier with
  | first =>
    obtain ⟨rfl, rfl⟩ := List.cons.inj same
    rfl
  | @next before others lexeme called token ih =>
    obtain ⟨rfl, rfl⟩ := List.cons.inj same
    rw [ih rfl, Call.readings_next (called.eq_at before List.mem_cons_self) token]
    simp [Call.at]

/-- The last call gives the first of the readings from where it begins. -/
theorem Call.reading_head {call : Call} (read : call = Call.at call.before) :
    [call.reading] <+: call.before.readings ∧ ∀ line, call.reading = .finish line → call.before.readings = [call.reading] := by
  have next := Call.next_eq read
  cases reading : call.reading with
  | finish line =>
    rw [reading] at next
    rw [Cursor.readings_finish next]
    exact ⟨List.prefix_refl _, fun _ _ => rfl⟩
  | token lexeme | fault fault =>
    rw [reading] at next
    rw [Cursor.readings_cons next (by simp)]
    exact ⟨⟨_, rfl⟩, nofun⟩

theorem Calls.length_le {source : String} {calls : List Call} (called : Calls source calls) : calls.length ≤ source.length + 1 := by
  cases calls with
  | nil => exact Nat.zero_le _
  | cons last earlier =>
    have room := called.room
    rw [List.length_cons]
    omega

/-- How far a part may be from another that it lies in. -/
def Part.rank : Part → Nat
  | .unary => 0
  | .expression => 1
  | .statement => 2
  | .pass _ => 3

/-- A part that is gone through: how many tokens were left when it was entered, and its rank. -/
structure Place where
  left : Nat
  rank : Nat

/-- Inside a part, what is entered before a token has been taken is of a lower rank. -/
def Place.Admits (place : Place) (left rank : Nat) : Prop := left < place.left ∨ left = place.left ∧ rank < place.rank

theorem Place.Admits.of_le {place : Place} {left left' rank rank' : Nat} (admits : place.Admits left rank) (le : left' ≤ left)
    (lower : rank' ≤ rank) : place.Admits left' rank' := by
  unfold Place.Admits at admits ⊢
  omega

/-- A part of a lower rank may be entered where the part begins. -/
theorem Place.admits_here {left rank rank' : Nat} (lower : rank < rank') : Place.Admits ⟨left, rank'⟩ left rank := .inr ⟨rfl, lower⟩

/-- A part takes a token if it gives a value or asks for another pass, and is apart from all that lies inside it. -/
inductive Run.Moves : Run → Prop
  | mk {run : Run} (takes : run.outcome = .done ∨ run.outcome = .again → run.after < run.before)
      (inner : ∀ other ∈ run.inner, other.Moves)
      (apart : ∀ other ∈ run.inner, Place.Admits ⟨run.before, run.part.rank⟩ other.before other.part.rank) : Moves run

/-! ## Parsers at a place -/

theorem State.left_eq_zero {s : State} : s.left = 0 ↔ s.current = none := by
  rw [State.left, State.tokens]
  cases s.current <;> simp

/-- The reading that gave the current token. -/
def State.reading (s : State) : Reading :=
  match s.current with
  | some token => .token ⟨token, s.line⟩
  | none => .finish s.line

/-- All that has been gone through inside a part has moved on and is apart from it. -/
structure State.Sound (source : String) (place : Place) (s : State) : Prop where
  calls : Calls source s.calls
  moves : ∀ run ∈ s.inner, run.Moves
  apart : ∀ run ∈ s.inner, place.Admits run.before run.part.rank

/-- A sound state whose current token is the one that the lexer gave last. -/
structure State.Current (source : String) (place : Place) (s : State) : Prop extends s.Sound source place where
  last : ∃ last earlier, s.calls = last :: earlier ∧ last.after = s.cursor ∧ last.reading = s.reading
  below : s.left ≤ place.left

/-- How a parser ends that is run inside a part: with a value, and no more tokens left than a limit, or with an error. -/
inductive Goes {α : Type} (source : String) (place : Place) (limit : Nat) (post : α → Nat → Prop) :
    EStateM.Result ParseError State α → Prop
  | value {a : α} {s : State} (current : s.Current source place) (le : s.left ≤ limit) (holds : post a s.left) :
    Goes source place limit post (.ok a s)
  | failure {error : ParseError} {s : State} (sound : s.Sound source place) : Goes source place limit post (.error error s)

/-- A parser goes on inside a part, and something holds of its value and of the number of tokens that it leaves. -/
def Proceeds {α : Type} (source : String) (place : Place) (p : OnDemand α) (s : State) (post : α → Nat → Prop) : Prop :=
  s.Current source place → Goes source place s.left post (p s)

/-- A parser goes on inside a part, and takes a token if it gives a value. -/
def Takes {α : Type} (source : String) (place : Place) (p : OnDemand α) (s : State) : Prop :=
  Proceeds source place p s fun _ left => left < s.left

section
variable {α β : Type} {source : String} {place : Place} {s : State} {p : OnDemand α} {f : α → OnDemand β}
  {mid : α → Nat → Prop} {post : β → Nat → Prop}

theorem Goes.imp {post post' : α → Nat → Prop} {limit limit' : Nat} {result : EStateM.Result ParseError State α}
    (goes : Goes source place limit post result) (wider : limit ≤ limit')
    (weaker : ∀ a left, left ≤ limit → post a left → post' a left) : Goes source place limit' post' result := by
  cases goes with
  | value current le holds => exact .value current (Nat.le_trans le wider) (weaker _ _ le holds)
  | failure sound => exact .failure sound

theorem Proceeds.imp {post post' : α → Nat → Prop} (proceeds : Proceeds source place p s post)
    (weaker : ∀ a left, left ≤ s.left → post a left → post' a left) : Proceeds source place p s post' :=
  fun current => (proceeds current).imp (Nat.le_refl _) weaker

/-- Inside a part there are no more tokens left than when it was entered. -/
theorem Proceeds.of_below {post : α → Nat → Prop} (proceeds : s.left ≤ place.left → Proceeds source place p s post) :
    Proceeds source place p s post :=
  fun current => proceeds current.below current

theorem Goes.bind {limit : Nat} (first : Goes source place limit mid (p s))
    (rest : ∀ a s', s'.left ≤ limit → mid a s'.left → Proceeds source place (f a) s' post) :
    Goes source place limit post ((p >>= f) s) := by
  show Goes source place limit post (EStateM.bind p f s)
  unfold EStateM.bind
  generalize p s = result at first ⊢
  cases first with
  | value current le holds => exact (rest _ _ le holds current).imp le fun _ _ _ => id
  | failure sound => exact .failure sound

private theorem proceeds_bind (first : Proceeds source place p s mid)
    (rest : ∀ a s', s'.left ≤ s.left → mid a s'.left → Proceeds source place (f a) s' post) :
    Proceeds source place (p >>= f) s post :=
  fun current => (first current).bind rest

private theorem proceeds_then (first : Proceeds source place p s fun _ _ => True)
    (rest : ∀ a s', s'.left ≤ s.left → Proceeds source place (f a) s' post) : Proceeds source place (p >>= f) s post :=
  proceeds_bind first fun a s' le _ => rest a s' le

/-- What takes a token does so too when it goes on. -/
theorem Takes.bind (first : Takes source place p s)
    (rest : ∀ a s', s'.left < s.left → Proceeds source place (f a) s' fun _ _ => True) : Takes source place (p >>= f) s :=
  proceeds_bind first fun a s' _ less => (rest a s' less).imp fun _ _ le _ => Nat.lt_of_le_of_lt le less

private theorem proceeds_pure {post : α → Nat → Prop} {a : α} (holds : post a s.left) : Proceeds source place (pure a) s post :=
  fun current => .value current (Nat.le_refl _) holds

private theorem proceeds_fail {post : α → Nat → Prop} (line : Nat) (cause : ParseCause) :
    Proceeds source place (fail line cause) s post :=
  fun current => .failure current.toSound

private theorem proceeds_failHere {post : α → Nat → Prop} (cause : ParseCause) : Proceeds source place (failHere cause) s post :=
  fun current => .failure current.toSound

private theorem proceeds_peek {f : Option Token → OnDemand β} (rest : Proceeds source place (f s.current) s post) :
    Proceeds source place (peek >>= f) s post := rest

private theorem proceeds_line {f : Nat → OnDemand β} (rest : Proceeds source place (f s.line) s post) :
    Proceeds source place (line >>= f) s post := rest

private theorem proceeds_isAt {token : Token} {f : Bool → OnDemand β}
    (rest : Proceeds source place (f (s.current == some token)) s post) : Proceeds source place (isAt token >>= f) s post := rest

/-- A call of the lexer where one is in order leaves the tokens ahead. -/
theorem goes_advance (calls : Calls source (Call.at s.cursor :: s.calls)) (moves : ∀ run ∈ s.inner, run.Moves)
    (apart : ∀ run ∈ s.inner, place.Admits run.before run.part.rank)
    (below : (TokenStream.ofCursor s.cursor).lexemes.length ≤ place.left) :
    Goes source place (TokenStream.ofCursor s.cursor).lexemes.length (fun _ _ => True) (advance s) := by
  unfold advance
  simp only
  rcases next : s.cursor.next with ⟨lexeme | line | fault, after⟩
  · rw [TokenStream.ofCursor_token next] at below ⊢
    have read : (Call.at s.cursor).reading = .token lexeme := congrArg Prod.fst next
    have rest : (Call.at s.cursor).after = after := congrArg Prod.snd next
    rw [read, rest]
    exact .value ⟨⟨calls, moves, apart⟩, ⟨_, _, rfl, rest, read⟩, below⟩ (Nat.le_refl _) trivial
  · have read : (Call.at s.cursor).reading = .finish line := congrArg Prod.fst next
    have rest : (Call.at s.cursor).after = after := congrArg Prod.snd next
    rw [read, rest]
    exact .value ⟨⟨calls, moves, apart⟩, ⟨_, _, rfl, rest, read⟩, Nat.zero_le _⟩ (Nat.zero_le _) trivial
  · have read : (Call.at s.cursor).reading = .fault fault := congrArg Prod.fst next
    rw [read]
    exact .failure ⟨calls, moves, apart⟩

/-- Taking a token calls the lexer once more, after a call that gave that token. -/
theorem takes_advance {token : Token} (here : s.current = some token) : Takes source place advance s := by
  intro current
  obtain ⟨last, earlier, called, after, reading⟩ := current.last
  have token : last.reading = .token ⟨token, s.line⟩ := by rw [reading, State.reading, here]
  have calls : Calls source (Call.at s.cursor :: s.calls) := by
    have before := current.calls
    rw [called] at before ⊢
    exact after ▸ before.next token
  have left : s.left = (TokenStream.ofCursor s.cursor).lexemes.length + 1 := by
    rw [State.left, State.tokens, here]
    rfl
  have below := current.below
  exact (goes_advance calls current.moves current.apart (by omega)).imp (by omega) (by omega)

private theorem takes_accept (symbol : Symbol) :
    Proceeds source place (accept symbol) s fun taken left => taken = true → left < s.left := by
  refine proceeds_isAt ?_
  split
  · rename_i here
    exact proceeds_bind (takes_advance (eq_of_beq here)) fun _ s' _ less => proceeds_pure fun _ => less
  · exact proceeds_pure nofun

private theorem takes_acceptWord (word : Keyword) :
    Proceeds source place (acceptWord word) s fun taken left => taken = true → left < s.left := by
  refine proceeds_isAt ?_
  split
  · rename_i here
    exact proceeds_bind (takes_advance (eq_of_beq here)) fun _ s' _ less => proceeds_pure fun _ => less
  · exact proceeds_pure nofun

private theorem takes_expect (symbol : Symbol) (what : Expectation) : Takes source place (expect symbol what) s := by
  refine proceeds_isAt ?_
  split
  · rename_i here
    exact takes_advance (eq_of_beq here)
  · exact proceeds_failHere _

private theorem takes_name (what : Expectation) : Takes source place (name what) s := by
  refine proceeds_peek ?_
  split
  · rename_i here
    exact (takes_advance here).bind fun _ _ _ => proceeds_pure trivial
  · exact proceeds_failHere _

private theorem proceeds_ending (symbol : Symbol) (what : Expectation) (a : α) :
    Proceeds source place (do expect symbol what; return a) s fun _ _ => True :=
  proceeds_bind (takes_expect symbol what) fun _ _ _ _ => proceeds_pure trivial

/-- A part goes on inside another if it goes on by itself, and takes a token where it has to. -/
theorem proceeds_recorded {part : Part} {outcome : α → Outcome} {post : α → Nat → Prop} (admits : place.Admits s.left part.rank)
    (inside : Proceeds source ⟨s.left, part.rank⟩ p { s with inner := [] } fun a left =>
      (outcome a = .done ∨ outcome a = .again → left < s.left) ∧ post a left) :
    Proceeds source place (recorded part outcome p) s post := by
  intro current
  have goes := inside ⟨⟨current.calls, nofun, nofun⟩, current.last, Nat.le_refl _⟩
  have below := current.below
  unfold recorded
  generalize p { s with inner := [] } = result at goes ⊢
  cases goes with
  | @value a s' inner le holds =>
    refine .value ⟨⟨inner.calls, ?_, ?_⟩, inner.last, ?_⟩ le holds.2
    · exact List.forall_mem_cons.mpr ⟨.mk holds.1 inner.moves inner.apart, current.moves⟩
    · exact List.forall_mem_cons.mpr ⟨admits, current.apart⟩
    · exact Nat.le_trans le below
  | @failure error s' sound =>
    refine .failure ⟨sound.calls, ?_, ?_⟩
    · exact List.forall_mem_cons.mpr ⟨.mk (by simp) sound.moves sound.apart, current.moves⟩
    · exact List.forall_mem_cons.mpr ⟨admits, current.apart⟩

/-- A production takes a token if it does so by itself. -/
theorem takes_production {part : Part} (admits : place.Admits s.left part.rank)
    (inside : Takes source ⟨s.left, part.rank⟩ p { s with inner := [] }) : Takes source place (production part p) s :=
  proceeds_recorded admits (inside.imp fun _ _ _ less => ⟨fun _ => less, less⟩)

/-- A loop goes on if its passes take a token before they ask for another one, and ends as its last pass does. -/
theorem proceeds_loop {loop : Loop} {pass : β → OnDemand (β × Bool)} {ends : β → Nat → Prop}
    (each : ∀ b s, Proceeds source ⟨s.left, (Part.pass loop).rank⟩ (pass b) s fun given left =>
      (given.2 = true → left < s.left) ∧ (given.2 = false → ends given.1 left))
    (b : β) (admits : place.Admits s.left (Part.pass loop).rank) :
    Proceeds source place (iterate loop pass b) s ends := by
  have passes : ∀ b s, place.Admits s.left (Part.pass loop).rank →
      Proceeds source place (recorded (.pass loop) passOutcome (pass b)) s fun given left =>
        (given.2 = true → left < s.left) ∧ (given.2 = false → ends given.1 left) := by
    intro b s admits
    refine proceeds_recorded admits ((each b { s with inner := [] }).imp ?_)
    rintro ⟨b', _ | _⟩ left - ⟨takes, last⟩
    · exact ⟨by simp [passOutcome], takes, last⟩
    · exact ⟨fun _ => takes rfl, takes, last⟩
  intro current
  induction left : s.left using Nat.strong_induction_on generalizing b s with
  | _ left' ih =>
    subst left
    have goes := passes b s admits current
    rw [iterate.eq_def]
    generalize recorded (.pass loop) passOutcome (pass b) s = result at goes ⊢
    cases goes with
    | failure sound => exact .failure sound
    | @value given s' current le holds =>
      obtain ⟨b', _ | _⟩ := given
      · exact .value current le (holds.2 rfl)
      · have shorter := holds.1 rfl
        have inside := admits.of_le le (Nat.le_refl _)
        simp only [if_pos shorter]
        exact (ih s'.left shorter b' inside current rfl).imp le fun _ _ _ => id

private theorem proceeds_iterate {loop : Loop} {pass : β → OnDemand (β × Bool)}
    (each : ∀ b s, Proceeds source ⟨s.left, (Part.pass loop).rank⟩ (pass b) s fun given left => given.2 = true → left < s.left)
    (b : β) (admits : place.Admits s.left (Part.pass loop).rank) :
    Proceeds source place (iterate loop pass b) s fun _ _ => True :=
  proceeds_loop (fun b s => (each b s).imp fun _ _ _ takes => ⟨takes, fun _ => trivial⟩) b admits

private theorem proceeds_itemsUntil {loop : Loop} {stop : Symbol} (each : ∀ s, Takes source ⟨s.left, (Part.pass loop).rank⟩ p s)
    (admits : place.Admits s.left (Part.pass loop).rank) :
    Proceeds source place (itemsUntil loop stop p) s fun _ _ => True := by
  refine proceeds_bind (proceeds_iterate ?_ [] admits) fun _ _ _ _ => proceeds_pure trivial
  intro done s
  refine proceeds_peek ?_
  split
  · exact proceeds_pure nofun
  · split
    · exact proceeds_pure nofun
    · exact proceeds_bind (each s) fun _ _ _ less => proceeds_pure fun _ => less

/-- A comma is followed by another item, and an item takes a token. -/
theorem proceeds_separated {loop : Loop} {item : List α → OnDemand α}
    (each : ∀ done s, Takes source ⟨s.left, (Part.pass loop).rank⟩ (item done) s)
    (admits : place.Admits s.left (Part.pass loop).rank) :
    Proceeds source place (separated loop item) s fun _ _ => True := by
  refine proceeds_bind (proceeds_iterate ?_ [] admits) fun _ _ _ _ => proceeds_pure trivial
  intro done s
  refine proceeds_bind (each done s) fun _ s' _ less => proceeds_bind (takes_accept _) fun _ _ le _ => proceeds_pure fun _ => ?_
  exact Nat.lt_of_le_of_lt le less

end

private theorem proceeds_bracketParts {source : String} {place : Place} {s : State} (admits : place.Admits s.left 3) :
    Proceeds source place bracketParts s fun _ _ => True := by
  refine proceeds_bind (proceeds_iterate ?_ ("", []) admits) fun _ _ _ _ => proceeds_pure trivial
  rintro ⟨part, parts⟩ s
  refine proceeds_peek ?_
  split
  · exact proceeds_pure nofun
  · rename_i token here
    split
    · exact proceeds_bind (takes_advance here) fun _ _ _ less => proceeds_pure fun _ => less
    · split
      · exact proceeds_bind (takes_advance here) fun _ _ _ less => proceeds_pure fun _ => less
      · exact proceeds_pure nofun

section
variable {ctx : Context} {source : String} {budget : Nat} {place : Place} {s : State}

private theorem proceeds_bracketFault (line : Nat) (fault : BracketFault) :
    Proceeds source place (bracketFault ctx line fault) s fun _ _ => True := by
  unfold bracketFault
  split
  · intro current
    exact .value ⟨⟨current.calls, current.moves, current.apart⟩, current.last, current.below⟩ (Nat.le_refl _) trivial
  · exact proceeds_fail _ _

/-- A bracket expression takes its first symbol, whatever it comes to. -/
theorem takes_bracket (here : s.current = some (.symbol .less)) : Takes source place (bracket ctx) s := by
  refine .of_below fun below => proceeds_line ((takes_advance here).bind fun _ s' less => ?_)
  have inside : place.Admits s'.left 3 := .inl (Nat.lt_of_lt_of_le less below)
  refine proceeds_bind (proceeds_bracketParts inside) fun parts _ _ _ => proceeds_bind (takes_accept _) fun closed _ _ _ => ?_
  split
  · exact proceeds_bracketFault _ _
  · split
    · exact proceeds_bracketFault _ _
    · split
      · exact proceeds_pure trivial
      · exact proceeds_bracketFault _ _

/-- The levels of the grammar of expressions take tokens within a budget: where an expression or an operand may be entered, it
takes one, and where one has been taken, operators go on. -/
structure ExpressionsTake (ctx : Context) (source : String) (budget : Nat) : Prop where
  expression : ∀ place s, place.Admits s.left Part.expression.rank → Takes source place (expression ctx budget) s
  unary : ∀ place s, place.Admits s.left Part.unary.rank → Takes source place (unary ctx budget) s
  operation : ∀ level place s, place.Admits s.left Part.unary.rank → Takes source place (operation ctx level budget) s
  operationFrom : ∀ level left place s, s.left < place.left →
    Proceeds source place (operationFrom ctx level budget left) s fun _ _ => True

private theorem takes_primary
    (inner : ∀ place s, place.Admits s.left Part.expression.rank → Takes source place (expression ctx budget) s) :
    Takes source place (primary ctx budget) s := by
  unfold primary
  refine .of_below fun below => proceeds_line (proceeds_peek ?_)
  split
  case h_7 here =>
    refine (takes_advance here).bind fun _ s' less => ?_
    have inside : place.Admits s'.left Part.expression.rank := .inl (Nat.lt_of_lt_of_le less below)
    exact proceeds_bind (inner place s' inside) fun _ _ _ _ => proceeds_ending _ _ _
  case h_8 here => exact takes_bracket here
  case h_9 => exact proceeds_fail _ _
  all_goals
    rename_i here
    exact (takes_advance here).bind fun _ _ _ => proceeds_pure trivial

private theorem takes_call
    (inner : ∀ place s, place.Admits s.left Part.expression.rank → Takes source place (expression ctx budget) s) :
    Takes source place (call ctx budget) s := by
  unfold call
  refine .of_below fun below => (takes_primary inner).bind fun callee s' less => proceeds_isAt ?_
  split
  · exact proceeds_pure trivial
  · rename_i opened
    split
    · have here : s'.current = some (.symbol .leftParen) := by simpa using opened
      refine proceeds_bind (takes_advance here) fun _ s'' le _ => proceeds_isAt ?_
      have inside : place.Admits s''.left 3 := .inl (by omega)
      split
      · exact proceeds_then (proceeds_pure trivial) fun _ _ _ => proceeds_ending _ _ _
      · exact proceeds_then (proceeds_separated (fun _ s => inner _ s (Place.admits_here (by decide))) inside) fun _ _ _ =>
          proceeds_ending _ _ _
    · exact proceeds_failHere _

private theorem takes_unary
    (inner : ∀ place s, place.Admits s.left Part.expression.rank → Takes source place (expression ctx budget) s)
    (smaller : ∀ b, budget = b + 1 → ExpressionsTake ctx source b) (admits : place.Admits s.left Part.unary.rank) :
    Takes source place (unary ctx budget) s := by
  unfold unary
  refine takes_production admits (proceeds_line (proceeds_peek ?_))
  split
  · rename_i here
    split
    · exact takes_call inner
    · refine (takes_advance here).bind fun _ s' less => ?_
      cases budget with
      | zero => exact proceeds_failHere _
      | succ budget =>
        exact proceeds_bind ((smaller budget rfl).unary _ s' (.inl less)) fun _ _ _ _ => proceeds_pure trivial
  · exact takes_call inner

/-- Where an operator is found, there is a token to take. -/
theorem proceeds_connectiveAt {α : Type} {level : Nat} {f : Option Connective → OnDemand α} {post : α → Nat → Prop}
    (without : Proceeds source place (f none) s post)
    (found : ∀ op token, s.current = some token → Proceeds source place (f (some op)) s post) :
    Proceeds source place (connectiveAt level >>= f) s post := by
  unfold connectiveAt
  rw [bind_assoc]
  refine proceeds_peek ?_
  split
  · rename_i symbol here
    rw [pure_bind]
    cases (Connective.ofSymbol? symbol).filter (·.level == level) with
    | none => exact without
    | some op => exact found op _ here
  · rw [pure_bind]
    exact without

private theorem proceeds_operationFrom (level : Nat) (left : Expr) (smaller : ∀ b, budget = b + 1 → ExpressionsTake ctx source b)
    (less : s.left < place.left) : Proceeds source place (operationFrom ctx level budget left) s fun _ _ => True := by
  unfold operationFrom
  refine proceeds_connectiveAt (proceeds_pure trivial) fun op token here => proceeds_line ?_
  -- a pass takes its operator at once
  have advances : Takes source ⟨s.left, (Part.pass .operators).rank⟩ advance { s with inner := [] } := takes_advance here
  have pass {p : OnDemand Expr} (rest : ∀ s', s'.left < s.left →
      Proceeds source ⟨s.left, (Part.pass .operators).rank⟩ p s' fun _ _ => True) :
      Proceeds source place (recorded (.pass .operators) (fun _ => .again) (do advance; p)) s fun _ _ => True :=
    proceeds_recorded (.inl less) ((advances.bind fun _ s' less => rest s' less).imp fun _ _ _ less => ⟨fun _ => less, trivial⟩)
  cases budget with
  | zero => exact pass fun _ _ => proceeds_failHere _
  | succ budget =>
    refine proceeds_then (pass fun s' less => ?_) fun right s' le => ?_
    · exact ((smaller budget rfl).operation level _ s' (.inl less)).imp fun _ _ _ _ => trivial
    · exact (smaller budget rfl).operationFrom level _ place s' (Nat.lt_of_le_of_lt le less)

private theorem takes_assignment (levels : ExpressionsTake ctx source budget) (admits : place.Admits s.left Part.unary.rank) :
    Takes source place (assignment ctx budget) s := by
  unfold assignment
  refine .of_below fun below => (levels.operation Connective.levels place s admits).bind fun target s' less => ?_
  refine proceeds_line (proceeds_peek ?_)
  split
  · rename_i here
    split
    · exact proceeds_pure trivial
    · refine proceeds_bind (takes_advance here) fun _ s'' le _ => ?_
      refine proceeds_bind (levels.expression place s'' (.inl (by omega))) fun _ _ _ _ => ?_
      split
      · exact proceeds_pure trivial
      · exact proceeds_fail _ _
  · exact proceeds_pure trivial

private theorem expressionsTake_of (smaller : ∀ b, budget = b + 1 → ExpressionsTake ctx source b) :
    ExpressionsTake ctx source budget := by
  have inner : ∀ place s, place.Admits s.left Part.expression.rank → Takes source place (expression ctx budget) s := by
    intro place s admits
    unfold expression
    cases budget with
    | zero => exact takes_production admits (proceeds_failHere _)
    | succ budget => exact takes_production admits (takes_assignment (smaller budget rfl) (Place.admits_here (by decide)))
  refine ⟨inner, fun place s => takes_unary inner smaller, ?_, fun level left place s => proceeds_operationFrom level left smaller⟩
  -- within one budget, a level of operators rests on the level below
  intro level
  induction level with
  | zero =>
    intro place s admits
    unfold operation
    exact takes_unary inner smaller admits
  | succ level ih =>
    intro place s admits
    unfold operation
    refine .of_below fun below => (ih place s admits).bind fun first s' less => ?_
    exact proceeds_operationFrom level first smaller (Nat.lt_of_lt_of_le less below)

private theorem expressionsTake (ctx : Context) (source : String) (budget : Nat) : ExpressionsTake ctx source budget := by
  induction budget with
  | zero => exact expressionsTake_of nofun
  | succ budget ih =>
    refine expressionsTake_of ?_
    rintro _ ⟨⟩
    exact ih

/-- An expression takes a token wherever it may be entered. -/
theorem takes_expression (budget : Nat) (admits : place.Admits s.left Part.expression.rank) :
    Takes source place (expression ctx budget) s :=
  (expressionsTake ctx source budget).expression place s admits

end

section
variable {ctx : Context} {source : String} {budget : Nat} {place : Place} {s : State}

private theorem proceeds_optional (admits : place.Admits s.left Part.expression.rank) :
    Proceeds source place (some <$> expression ctx budget) s fun _ _ => True :=
  proceeds_bind (takes_expression budget admits) fun _ _ _ _ => proceeds_pure trivial

private theorem takes_condition (what : Expectation) : Takes source place (condition ctx what budget) s :=
  .of_below fun below => (takes_expect _ _).bind fun _ _ less =>
    proceeds_bind (takes_expression budget (.inl (Nat.lt_of_lt_of_le less below))) fun _ _ _ _ => proceeds_ending _ _ _

private theorem takes_expressionStatement (admits : place.Admits s.left Part.expression.rank) :
    Takes source place (expressionStatement ctx budget) s :=
  (takes_expression budget admits).bind fun _ _ _ => proceeds_ending _ _ _

private theorem takes_declaration {token : Token} (here : s.current = some token) (isMutable : Bool) :
    Takes source place (declaration ctx isMutable budget) s := by
  refine .of_below fun below => (takes_advance here).bind fun _ s₁ less => proceeds_line ?_
  refine proceeds_bind (takes_name _) fun name s₂ le₂ _ => proceeds_bind (takes_accept _) fun given s₃ le₃ _ => ?_
  have inside : place.Admits s₃.left Part.expression.rank := .inl (by omega)
  split
  · exact proceeds_then (proceeds_optional inside) fun _ _ _ => proceeds_ending _ _ _
  · split
    · exact proceeds_then (proceeds_pure trivial) fun _ _ _ => proceeds_ending _ _ _
    · exact proceeds_then (proceeds_fail _ _) fun _ _ _ => proceeds_ending _ _ _

private theorem takes_returnStatement {token : Token} (here : s.current = some token) :
    Takes source place (returnStatement ctx budget) s := by
  refine .of_below fun below => proceeds_line ((takes_advance here).bind fun _ s' less => proceeds_isAt ?_)
  have inside : place.Admits s'.left Part.expression.rank := .inl (Nat.lt_of_lt_of_le less below)
  split
  · exact proceeds_then (proceeds_pure trivial) fun _ _ _ => proceeds_ending _ _ _
  · exact proceeds_then (proceeds_optional inside) fun _ _ _ => proceeds_ending _ _ _

private theorem takes_block {statement : OnDemand Stmt} (each : ∀ s, Takes source ⟨s.left, (Part.pass .block).rank⟩ statement s) :
    Takes source place (block statement) s :=
  .of_below fun below => (takes_expect _ _).bind fun _ _ less =>
    proceeds_then (proceeds_itemsUntil each (.inl (Nat.lt_of_lt_of_le less below))) fun _ _ _ => proceeds_ending _ _ _

/-- A statement takes a token wherever it may be entered. -/
theorem takes_statement (budget : Nat) (admits : place.Admits s.left Part.statement.rank) :
    Takes source place (statement ctx budget) s := by
  induction budget generalizing place s with
  | zero => exact takes_production admits (proceeds_failHere _)
  | succ budget ih =>
    have inner : ∀ s, Takes source ⟨s.left, (Part.pass .block).rank⟩ (statement ctx budget) s :=
      fun s => ih (Place.admits_here (by decide))
    refine takes_production admits (proceeds_peek ?_)
    split
    case h_1 here => exact takes_declaration here true
    case h_2 here => exact takes_declaration here false
    case h_3 here =>
      refine (takes_advance here).bind fun _ s₁ less₁ => proceeds_bind (takes_condition _) fun condition s₂ le₂ _ => ?_
      have less₂ := Nat.lt_of_le_of_lt le₂ less₁
      refine proceeds_bind (ih (.inl less₂)) fun whenTrue s₃ le₃ _ => proceeds_bind (takes_acceptWord _) fun other s₄ le₄ _ => ?_
      have less₄ := Nat.lt_of_le_of_lt le₄ (Nat.lt_of_le_of_lt le₃ less₂)
      split
      · refine proceeds_then (proceeds_bind (ih (.inl less₄)) fun _ _ _ _ => proceeds_pure trivial) fun _ _ _ => ?_
        exact proceeds_pure trivial
      · exact proceeds_then (proceeds_pure trivial) fun _ _ _ => proceeds_pure trivial
    case h_4 here =>
      refine (takes_advance here).bind fun _ s₁ less => proceeds_bind (takes_condition _) fun condition s₂ le _ => ?_
      exact proceeds_bind (ih (.inl (Nat.lt_of_le_of_lt le less))) fun _ _ _ _ => proceeds_pure trivial
    case h_5 here => exact takes_returnStatement here
    case h_6 => exact (takes_block inner).bind fun _ _ _ => proceeds_pure trivial
    case h_7 here => exact (takes_advance here).bind fun _ _ _ => proceeds_pure trivial
    case h_8 | h_9 => exact proceeds_failHere _
    case h_10 => exact takes_expressionStatement (Place.admits_here (by decide))

private theorem proceeds_checkFree (declared : HashSet String) (name : String) (line : Nat) :
    Proceeds source place (checkFree ctx declared name line) s fun _ _ => True := by
  unfold checkFree
  split
  · exact proceeds_fail _ _
  · split
    · exact proceeds_fail _ _
    · split
      · exact proceeds_fail _ _
      · exact proceeds_pure trivial

private theorem takes_globalDeclaration {token : Token} (here : s.current = some token) (declared : HashSet String) :
    Takes source place (globalDeclaration ctx declared) s := by
  refine .of_below fun below => (takes_advance here).bind fun _ s₁ less => proceeds_line ?_
  refine proceeds_bind (takes_name _) fun name s₂ le₂ _ => proceeds_then (proceeds_checkFree _ _ _) fun _ s₃ le₃ => ?_
  refine proceeds_bind (takes_expect _ _) fun _ s₄ le₄ _ => ?_
  exact proceeds_bind (takes_expression _ (.inl (by omega))) fun _ _ _ _ => proceeds_ending _ _ _

private theorem takes_parameter (before : List String) : Takes source place (parameter before) s := by
  refine proceeds_line ((takes_name _).bind fun name s' less => ?_)
  split
  · exact proceeds_fail _ _
  · exact proceeds_pure trivial

private theorem takes_functionDeclaration {token : Token} (here : s.current = some token) (declared : HashSet String) :
    Takes source place (functionDeclaration ctx declared) s := by
  refine .of_below fun below => (takes_advance here).bind fun _ s₁ less => proceeds_line ?_
  refine proceeds_bind (takes_name _) fun name s₂ le₂ _ => proceeds_then (proceeds_checkFree _ _ _) fun _ s₃ le₃ => ?_
  refine proceeds_bind (takes_expect _ _) fun _ s₄ le₄ _ => proceeds_isAt ?_
  have finish (params : List String) (s : State) : Proceeds source place
      (do expect .rightParen .parametersEnd
          let body ← block (statement ctx maxNesting)
          return (⟨name, params, body, s₁.line⟩ : FunctionDecl)) s fun _ _ => True :=
    proceeds_bind (takes_expect _ _) fun _ _ _ _ =>
      proceeds_bind (takes_block fun _ => takes_statement _ (Place.admits_here (by decide))) fun _ _ _ _ => proceeds_pure trivial
  split
  · exact proceeds_then (proceeds_pure trivial) fun params s _ => finish params s
  · exact proceeds_then (proceeds_separated (fun before _ => takes_parameter before) (.inl (by omega))) fun params s _ =>
      finish params s

/-- The loop over the top level goes on with another declaration or statement only after it has taken a token, and ends only where
there is none left. -/
theorem takes_topLevelItem (done : Progress) (s : State) :
    Proceeds source ⟨s.left, (Part.pass .unit).rank⟩ (topLevelItem ctx done) s fun given left =>
      (given.2 = true → left < s.left) ∧ (given.2 = false → left = 0) := by
  refine proceeds_peek ?_
  split
  case h_1 here => exact proceeds_pure ⟨nofun, fun _ => State.left_eq_zero.mpr here⟩
  case h_2 here => exact proceeds_bind (takes_globalDeclaration here _) fun _ _ _ less => proceeds_pure ⟨fun _ => less, nofun⟩
  case h_3 here => exact proceeds_bind (takes_functionDeclaration here _) fun _ _ _ less => proceeds_pure ⟨fun _ => less, nofun⟩
  case h_4 =>
    exact proceeds_bind (takes_statement _ (Place.admits_here (by decide))) fun _ _ _ less => proceeds_pure ⟨fun _ => less, nofun⟩

end

/-- The place of a whole source, of a higher rank than all that lies inside it. -/
def Place.whole (source : String) : Place := ⟨(TokenStream.ofSource source).lexemes.length, 4⟩

/-- A whole unit goes on from the first call of the lexer, to the end of the source if it is parsed. -/
theorem goes_wholeUnit (ctx : Context) (source artifact : String) :
    Goes source (.whole source) (TokenStream.ofSource source).lexemes.length (fun _ left => left = 0)
      (wholeUnit ctx artifact (.initial source)) := by
  have first : Goes source (.whole source) (TokenStream.ofSource source).lexemes.length (fun _ _ => True)
      (advance (.initial source)) := goes_advance (s := .initial source) .first nofun nofun (Nat.le_refl _)
  refine first.bind fun _ s le _ => ?_
  have items : Proceeds source (.whole source) (iterate .unit (topLevelItem ctx) ⟨[], [], [], ∅⟩) s fun _ left => left = 0 :=
    proceeds_loop takes_topLevelItem _ ((Nat.lt_or_eq_of_le le).imp id fun same => ⟨same, Nat.lt_succ_self _⟩)
  exact proceeds_bind items fun _ _ _ none => proceeds_pure none

/-! ## What lies inside a part -/

/-- A part lies inside another, at any depth. -/
inductive Run.Inside : Run → Run → Prop
  | within {run outer : Run} (here : run ∈ outer.inner) : Inside run outer
  | deeper {run between outer : Run} (inside : Inside run between) (here : between ∈ outer.inner) : Inside run outer

/-- All that lies inside a part takes tokens as it does, and is apart from it. -/
theorem Run.Moves.inside {run outer : Run} (moves : outer.Moves) (inside : run.Inside outer) :
    run.Moves ∧ Place.Admits ⟨outer.before, outer.part.rank⟩ run.before run.part.rank := by
  induction inside with
  | within here =>
    obtain ⟨_, inner, apart⟩ := moves
    exact ⟨inner _ here, apart _ here⟩
  | deeper _ here ih =>
    obtain ⟨_, inner, apart⟩ := moves
    have outside := apart _ here
    obtain ⟨moves, inside⟩ := ih (inner _ here)
    refine ⟨moves, ?_⟩
    unfold Place.Admits at outside inside ⊢
    simp only at outside inside ⊢
    omega

theorem Run.Moves.takes {run : Run} (moves : run.Moves) : run.outcome = .done ∨ run.outcome = .again → run.after < run.before := by
  obtain ⟨takes⟩ := moves
  exact takes

/-- Between entering a part and entering it again from inside, a token is taken. -/
theorem Run.Moves.again {run outer : Run} (moves : outer.Moves) (inside : run.Inside outer) (same : run.part = outer.part) :
    run.before < outer.before := by
  obtain less | ⟨_, lower⟩ := (moves.inside inside).2
  · exact less
  · exact absurd (same ▸ lower) (Nat.lt_irrefl _)

/-- A part is gone through in a parse, at any depth. -/
def Account.Has (account : Account) (run : Run) : Prop :=
  run ∈ account.runs ∨ ∃ outer ∈ account.runs, run.Inside outer

/-- A call follows another where that has ended, and only if it gave a token. -/
def Call.Follows (earlier next : Call) : Prop := next.before = earlier.after ∧ ∃ lexeme, earlier.reading = .token lexeme

/-- In order, the calls of the lexer follow one another from the beginning of the source. -/
theorem Calls.in_order {source : String} {calls : List Call} (called : Calls source calls) :
    calls.reverse.head? = some (Call.at (Cursor.start source)) ∧ calls.reverse.IsChain Call.Follows := by
  rw [List.head?_reverse, List.isChain_reverse]
  induction called with
  | first => exact ⟨rfl, .singleton _⟩
  | next _ token ih => exact ⟨by rw [List.getLast?_cons_cons, ih.1], .cons_cons ⟨rfl, _, token⟩ ih.2⟩

/-- A parse moves on, by its account of the calls of the lexer and of the parts it has gone through. -/
structure Account.Progresses (account : Account) (source : String) : Prop where
  /-- There is one call of the lexer at most for each character, and one for the end. -/
  calls_length : account.calls.length ≤ source.length + 1
  /-- The first call is at the beginning of the source. -/
  starts : account.calls.head? = some (Call.at (Cursor.start source))
  /-- Each other call is where the one before has ended; after the end of the source or a fault there is none. -/
  follows : account.calls.IsChain Call.Follows
  /-- Each call reads what the lexer gives there. -/
  reads : ∀ call ∈ account.calls, call = Call.at call.before
  /-- The calls give the readings of the source, as far as the parse goes. -/
  readings : account.calls.map Call.reading <+: (Cursor.start source).readings
  /-- A source that is parsed has been read to its end. -/
  whole : ∀ unit, account.result = .ok unit → account.calls.map Call.reading = (Cursor.start source).readings
  /-- A call takes a character, also if it is of a fault, unless the source is at its end. -/
  shorter : ∀ call ∈ account.calls, (∀ line, call.reading ≠ .finish line) → call.after.rest.length < call.before.rest.length
  /-- A pass of a loop that asks for another one has taken a token, and so has every statement, expression or operand that is
  parsed. -/
  takes : ∀ run, account.Has run → run.outcome = .done ∨ run.outcome = .again → run.after < run.before
  /-- A statement, an expression or an operand is entered again from inside only after a token has been taken, and so is a pass of a
  loop. -/
  again : ∀ run outer : Run, account.Has outer → run.Inside outer → run.part = outer.part → run.before < outer.before

/-- The calls of a sound state give readings of the source from its beginning. -/
theorem State.Sound.readings {source : String} {place : Place} {s : State} (sound : s.Sound source place) :
    (s.calls.map Call.reading).reverse <+: (Cursor.start source).readings := by
  have called := sound.calls
  cases calls : s.calls with
  | nil => exact List.nil_prefix
  | cons last earlier =>
    rw [calls] at called
    rw [called.readings, List.map_cons, List.reverse_cons, List.prefix_append_right_inj]
    exact (Call.reading_head (called.eq_at last List.mem_cons_self)).1

/-- Where no token is left, the calls have given all of them. -/
theorem State.Current.whole {source : String} {place : Place} {s : State} (current : s.Current source place) (none : s.left = 0) :
    (s.calls.map Call.reading).reverse = (Cursor.start source).readings := by
  obtain ⟨last, earlier, calls, -, reading⟩ := current.last
  have called := current.calls
  rw [calls] at called
  rw [State.reading, State.left_eq_zero.mp none] at reading
  rw [calls, called.readings, (Call.reading_head (called.eq_at last List.mem_cons_self)).2 _ reading, List.map_cons, List.reverse_cons]

/-- A sound state gives an account that shows progress. -/
theorem State.Sound.progresses {source : String} {place : Place} {s : State} (sound : s.Sound source place)
    {result : Except ParseError ParsedUnit}
    (whole : ∀ unit, result = .ok unit → (s.calls.map Call.reading).reverse = (Cursor.start source).readings) :
    Account.Progresses ⟨result, s.warnings.reverse, s.calls.reverse, s.inner.reverse⟩ source := by
  have moves : ∀ run, Account.Has ⟨result, s.warnings.reverse, s.calls.reverse, s.inner.reverse⟩ run → run.Moves := by
    rintro run (here | ⟨outer, here, inside⟩)
    · exact sound.moves run (List.mem_reverse.mp here)
    · exact ((sound.moves outer (List.mem_reverse.mp here)).inside inside).1
  have reads : ∀ call ∈ s.calls.reverse, call = Call.at call.before :=
    fun call here => sound.calls.eq_at call (List.mem_reverse.mp here)
  refine ⟨?_, sound.calls.in_order.1, sound.calls.in_order.2, reads, ?_, ?_, ?_, fun run has => (moves run has).takes,
    fun run outer has => (moves outer has).again⟩
  · rw [List.length_reverse]
    exact sound.calls.length_le
  · rw [List.map_reverse]
    exact sound.readings
  · rw [List.map_reverse]
    exact whole
  · intro call here more
    have read := reads call here
    rw [read] at more ⊢
    exact Call.at_shorter call.before more

/-- For every source, environment and flag, a parse moves on, and gives what it gives when the tokens are read beforehand. -/
theorem parse_progresses (env : Environment) (source unit artifact : String) (tolerant : Bool) :
    (parse env source unit artifact tolerant).Progresses source ∧
      (parse env source unit artifact tolerant).result = (env.parse source unit artifact tolerant).result ∧
      (parse env source unit artifact tolerant).warnings = (env.parse source unit artifact tolerant).warnings.map placeOf := by
  refine ⟨?_, parse_eq env source unit artifact tolerant⟩
  have goes := goes_wholeUnit ⟨unit, env, tolerant⟩ source artifact
  unfold parse
  generalize wholeUnit _ artifact _ = result at goes ⊢
  cases goes with
  | value current _ none => exact current.toSound.progresses fun _ _ => current.whole none
  | failure sound => exact sound.progresses nofun

mutual

/-- A part and the parts inside it, in the order in which they were entered: how deep they lie, how many tokens were left when they
were entered and when they ended, and how they ended. -/
def Run.listing (depth : Nat) : Run → List (Nat × Part × Nat × Nat × Outcome)
  | ⟨part, before, after, outcome, inner⟩ => (depth, part, before, after, outcome) :: listingAll (depth + 1) inner

/-- The same for parts that are given last first. -/
def Run.listingAll (depth : Nat) : List Run → List (Nat × Part × Nat × Nat × Outcome)
  | [] => []
  | run :: earlier => listingAll depth earlier ++ run.listing depth

end

set_option maxRecDepth 100000 in
/-- In a block inside a block every pass but the last takes a statement; a sign is an operand that another one lies in. The calls give
all the tokens and the end, and the second pass over the unit finds nothing more. -/
theorem nestedUnits_progress :
    let blocks := parse (Environment.initial "group" [] []) "{;{;}}" "main.zs" "main" false
    let sign := parse (Environment.initial "group" [] []) "-a;" "main.zs" "main" false
    (blocks.Progresses "{;{;}}" ∧
      blocks.calls.map Call.reading =
        [.token ⟨.symbol .leftBrace, 1⟩, .token ⟨.symbol .semicolon, 1⟩, .token ⟨.symbol .leftBrace, 1⟩, .token ⟨.symbol .semicolon, 1⟩,
          .token ⟨.symbol .rightBrace, 1⟩, .token ⟨.symbol .rightBrace, 1⟩, .finish 1] ∧
      blocks.runs.flatMap (Run.listing 0) =
        [(0, .pass .unit, 6, 0, .again), (1, .statement, 6, 0, .done), (2, .pass .block, 5, 4, .again), (3, .statement, 5, 4, .done),
          (2, .pass .block, 4, 1, .again), (3, .statement, 4, 1, .done), (4, .pass .block, 3, 2, .again),
          (5, .statement, 3, 2, .done), (4, .pass .block, 2, 2, .last), (2, .pass .block, 1, 1, .last),
          (0, .pass .unit, 0, 0, .last)]) ∧
    sign.Progresses "-a;" ∧
      sign.calls.map Call.reading =
        [.token ⟨.symbol .minus, 1⟩, .token ⟨.name "a", 1⟩, .token ⟨.symbol .semicolon, 1⟩, .finish 1] ∧
      sign.runs.flatMap (Run.listing 0) =
        [(0, .pass .unit, 3, 0, .again), (1, .statement, 3, 0, .done), (2, .expression, 3, 1, .done), (3, .unary, 3, 1, .done),
          (4, .unary, 2, 1, .done), (0, .pass .unit, 0, 0, .last)] := by
  refine ⟨⟨(parse_progresses _ _ _ _ _).1, ?_, ?_⟩, (parse_progresses _ _ _ _ _).1, ?_, ?_⟩
  · decide +kernel
  · decide +kernel
  · cbv
  · -- what is left to evaluate is the number of tokens ahead, from the characters
    cbv
    decide +kernel

end Scriptorium.Script.OnDemand
