import Scriptorium.Compile.Scope
import Scriptorium.Proofs.Evaluation

/-!
# Locals and slots

The compiler knows a local by its slot and the evaluator by its name. `Fits` relates the locals that are
visible to the one with those of the other; where it holds, the slot of a local is the number of values
that lie below its own.
-/
namespace Scriptorium.Evaluation

open Compile (Scope Local)

/-- The names of locals. -/
def names (scope : List (String × Value)) : List String := scope.map Prod.fst

namespace Scopes

/-- The values of all locals, as they lie on a stack. -/
def values (scopes : Scopes) : List Value := scopes.flatten.map Prod.snd

/-- Two lists of scopes declare the same locals, and may differ in the values. -/
def SameNames (a b : Scopes) : Prop := a.map names = b.map names

theorem SameNames.refl (scopes : Scopes) : SameNames scopes scopes := rfl

theorem SameNames.trans {a b c : Scopes} (first : SameNames a b) (second : SameNames b c) : SameNames a c :=
  Eq.trans first second

theorem SameNames.tail {a b : Scopes} (same : SameNames a b) : SameNames a.tail b.tail := by
  have tails := congrArg List.tail same
  simpa [SameNames, List.map_tail] using tails

theorem SameNames.flatten {a b : Scopes} (same : SameNames a b) : names a.flatten = names b.flatten := by
  have flat : (a.map names).flatten = (b.map names).flatten := congrArg List.flatten same
  rw [names, names, List.map_flatten, List.map_flatten]
  exact flat

theorem declare_values {scopes : Scopes} {name : String} {value : Value} :
    (scopes.declare name value).values = value :: scopes.values := by
  cases scopes with
  | nil => rfl
  | cons here outer => rfl

theorem declare_tail {scopes : Scopes} {name : String} {value : Value} :
    (scopes.declare name value).tail = scopes.tail := by
  cases scopes with
  | nil => rfl
  | cons here outer => rfl

end Scopes

open Scopes (SameNames)

/-- The visible locals of the evaluator have the names of those of the compiler, in the same order, and the
innermost scope is the same. -/
def Fits (scope : Scope) : Scopes → Prop
  | [] => False
  | here :: outer => names here = scope.here.map Local.name ∧ names outer.flatten = scope.outer.map Local.name

namespace Fits

variable {scope : Scope} {scopes : Scopes}

theorem all (fits : Fits scope scopes) : names scopes.flatten = scope.all.map Local.name := by
  cases scopes with
  | nil => exact fits.elim
  | cons here outer =>
    obtain ⟨same, around⟩ := fits
    simp only [names] at same around
    simp [names, Scope.all, same, around]

theorem length (fits : Fits scope scopes) : scopes.values.length = scope.all.length := by
  have lengths := congrArg List.length fits.all
  simpa only [names, Scopes.values, List.length_map] using lengths

theorem nested (fits : Fits scope scopes) : Fits scope.nested ([] :: scopes) :=
  ⟨rfl, fits.all⟩

theorem declare (fits : Fits scope scopes) (name : String) (isMutable : Bool) (value : Value) :
    Fits (scope.declare name isMutable) (scopes.declare name value) := by
  cases scopes with
  | nil => exact fits.elim
  | cons here outer =>
    obtain ⟨same, around⟩ := fits
    refine ⟨?_, around⟩
    simp only [names] at same
    simp [names, Scope.declare, same]

theorem sameNames {changed : Scopes} (fits : Fits scope scopes) (same : SameNames changed scopes) :
    Fits scope changed := by
  cases scopes with
  | nil => exact fits.elim
  | cons here outer =>
    cases changed with
    | nil => cases same
    | cons newHere newOuter =>
      obtain ⟨head, tail⟩ := List.cons.inj same
      exact ⟨head.trans fits.1, (SameNames.flatten tail).trans fits.2⟩

/-- The values of the innermost scope are as many as the locals that the compiler knows there. -/
theorem here_length {here : List (String × Value)} {outer : Scopes} (fits : Fits scope (here :: outer)) :
    (here.map Prod.snd).length = scope.here.length := by
  have lengths := congrArg List.length fits.1
  simpa [names] using lengths

end Fits

/-- The slot of a local of the compiler is that of the value which the evaluator finds. -/
theorem find?_some {locals : List Local} {vars : List (String × Value)} {name : String} {slot : Nat}
    {isMutable : Bool} (same : names vars = locals.map Local.name)
    (found : Scope.find? name locals = some (slot, isMutable)) :
    ∃ upper value lower, vars = upper ++ (name, value) :: lower ∧ lower.length = slot ∧ name ∉ names upper := by
  induction locals generalizing vars with
  | nil => cases found
  | cons first locals ih =>
    cases vars with
    | nil => cases same
    | cons var vars =>
      obtain ⟨varName, value⟩ := var
      obtain ⟨sameName, sameRest⟩ := List.cons.inj same
      simp only at sameName sameRest
      by_cases here : first.name = name
      · simp only [Scope.find?, here, if_true, Option.some.injEq, Prod.mk.injEq] at found
        have lengths := congrArg List.length sameRest
        simp only [List.length_map] at lengths
        exact ⟨[], value, vars, by simp [sameName, here], lengths.trans found.1, by simp [names]⟩
      · simp only [Scope.find?, here, if_false] at found
        obtain ⟨upper, inner, lower, split, deep, free⟩ := ih sameRest found
        refine ⟨(varName, value) :: upper, inner, lower, by simp [split], deep, ?_⟩
        simp only [names, List.map_cons, List.mem_cons, not_or]
        exact ⟨fun same => here (sameName ▸ same.symm), free⟩

private theorem find?_none {locals : List Local} {vars : List (String × Value)} {name : String}
    (same : names vars = locals.map Local.name) (absent : Scope.find? name locals = none) :
    name ∉ names vars := by
  rw [same]
  clear same
  induction locals with
  | nil => simp
  | cons first locals ih =>
    by_cases here : first.name = name
    · simp [Scope.find?, here] at absent
    · simp only [Scope.find?, here, if_false] at absent
      simp only [List.map_cons, List.mem_cons, not_or]
      exact ⟨fun same => here same.symm, ih absent⟩

private theorem lookup_append {upper lower : List (String × Value)} {name : String} {value : Value}
    (free : name ∉ names upper) : (upper ++ (name, value) :: lower).lookup name = some value := by
  induction upper with
  | nil => simp
  | cons first upper ih =>
    simp only [names, List.map_cons, List.mem_cons, not_or] at free
    have differ : (name == first.1) = false := by simpa using free.1
    rw [List.cons_append, List.lookup, differ]
    exact ih free.2

private theorem lookup_absent {vars : List (String × Value)} {name : String} (free : name ∉ names vars) :
    vars.lookup name = none := by
  rw [List.lookup_eq_none_iff]
  intro found member
  have differ : name ≠ found.1 := fun same => free (same ▸ List.mem_map_of_mem member)
  simpa using differ

private theorem setIn_append {upper lower : List (String × Value)} {name : String} {old value : Value}
    (free : name ∉ names upper) :
    Scopes.setIn name value (upper ++ (name, old) :: lower) = some (upper ++ (name, value) :: lower) := by
  induction upper with
  | nil => simp [Scopes.setIn]
  | cons first upper ih =>
    simp only [names, List.map_cons, List.mem_cons, not_or] at free
    have differ : ¬ first.1 = name := fun same => free.1 same.symm
    simp only [List.cons_append, Scopes.setIn, if_neg differ, ih free.2]
    rfl

private theorem setIn_none {vars : List (String × Value)} {name : String} {value : Value} :
    Scopes.setIn name value vars = none ↔ name ∉ names vars := by
  induction vars with
  | nil => simp [Scopes.setIn, names]
  | cons first vars ih =>
    by_cases here : first.1 = name
    · simp [Scopes.setIn, names, here]
    · simp only [Scopes.setIn, if_neg here, Option.map_eq_none_iff, ih, names, List.map_cons, List.mem_cons, not_or]
      exact ⟨fun free => ⟨fun same => here same.symm, free⟩, And.right⟩

private theorem setIn_names {vars changed : List (String × Value)} {name : String} {value : Value}
    (set : Scopes.setIn name value vars = some changed) : names changed = names vars := by
  induction vars generalizing changed with
  | nil => cases set
  | cons first vars ih =>
    by_cases here : first.1 = name
    · simp only [Scopes.setIn, if_pos here, Option.some.injEq] at set
      simp [← set, names, here]
    · simp only [Scopes.setIn, if_neg here, Option.map_eq_some_iff] at set
      obtain ⟨rest, inner, rfl⟩ := set
      simpa [names] using ih inner

private theorem setIn_both {a b : List (String × Value)} {name : String} {value : Value} :
    Scopes.setIn name value (a ++ b) =
      match Scopes.setIn name value a with
      | some a => some (a ++ b)
      | none => (Scopes.setIn name value b).map (a ++ ·) := by
  induction a with
  | nil => cases set : Scopes.setIn name value b <;> simp [Scopes.setIn, set]
  | cons first a ih =>
    by_cases here : first.1 = name
    · simp [Scopes.setIn, here]
    · simp only [List.cons_append, Scopes.setIn, if_neg here, ih]
      cases Scopes.setIn name value a with
      | some changed => rfl
      | none => simp [Function.comp_def]

/-- Setting a local goes through the scopes as through one list of locals. -/
theorem set_flatten (scopes : Scopes) (name : String) (value : Value) :
    (scopes.set name value).map List.flatten = Scopes.setIn name value scopes.flatten := by
  induction scopes with
  | nil => rfl
  | cons here outer ih =>
    simp only [Scopes.set, List.flatten_cons, setIn_both]
    cases Scopes.setIn name value here with
    | some changed => rfl
    | none => simp [← ih, Function.comp_def]

private theorem set_sameNames {scopes changed : Scopes} {name : String} {value : Value}
    (set : scopes.set name value = some changed) : SameNames changed scopes := by
  induction scopes generalizing changed with
  | nil => cases set
  | cons here outer ih =>
    simp only [Scopes.set] at set
    cases inner : Scopes.setIn name value here with
    | some newHere =>
      simp only [inner, Option.some.injEq] at set
      simp [← set, SameNames, setIn_names inner]
    | none =>
      simp only [inner, Option.map_eq_some_iff] at set
      obtain ⟨newOuter, outerSet, rfl⟩ := set
      have same := ih outerSet
      simp only [SameNames] at same
      simp [SameNames, same]

/-- A local of the compiler is one of the evaluator: its value lies in its slot, and the rest of the stack
does not change when it is set. -/
theorem Fits.local {scope : Scope} {scopes : Scopes} {name : String} {slot : Nat} {isMutable : Bool}
    (fits : Fits scope scopes) (found : scope.resolve? name = some (slot, isMutable)) :
    ∃ upper value lower, scopes.values = upper ++ value :: lower ∧ lower.length = slot ∧
      scopes.value? name = some value ∧
      ∀ given, ∃ changed, scopes.set name given = some changed ∧ changed.values = upper ++ given :: lower ∧
        SameNames changed scopes := by
  obtain ⟨upper, value, lower, split, deep, free⟩ := find?_some fits.all found
  refine ⟨upper.map Prod.snd, value, lower.map Prod.snd, by simp [Scopes.values, split], by simpa using deep,
    by rw [Scopes.value?, split, lookup_append free], fun given => ?_⟩
  have flat := set_flatten scopes name given
  rw [split, setIn_append free] at flat
  obtain ⟨changed, set, same⟩ := Option.map_eq_some_iff.mp flat
  exact ⟨changed, set, by simp [Scopes.values, same], set_sameNames set⟩

/-- A name that is no local of the compiler is none of the evaluator. -/
theorem Fits.free {scope : Scope} {scopes : Scopes} {name : String} (fits : Fits scope scopes)
    (absent : scope.resolve? name = none) :
    scopes.value? name = none ∧ ∀ value, scopes.set name value = none := by
  have free := find?_none fits.all absent
  refine ⟨lookup_absent free, fun value => ?_⟩
  have flat := set_flatten scopes name value
  rw [setIn_none.mpr free] at flat
  exact Option.map_eq_none_iff.mp flat

end Scriptorium.Evaluation
