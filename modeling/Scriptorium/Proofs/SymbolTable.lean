import Scriptorium.Proofs.Emission
import Scriptorium.Proofs.Grammar

/-!
# The symbol table of a group

A unit is parsed only if the names that it declares are new: none is that of a native, none is known to the group, and none
is declared twice (`parse_fresh`). So the environment that the units of a group are parsed against knows what they declare,
each name once and from one unit (`parseAll_tabulates`), although declaring a name does not look for the name before.
-/
namespace Scriptorium.Script

/-- The names that a unit declares. -/
def ParsedUnit.names (parsed : ParsedUnit) : List String :=
  parsed.globals.map GlobalDecl.name ++ parsed.functions.map FunctionDecl.name

namespace Parser

variable {ctx : Context} {declared : Std.HashSet String}

/-- A name that nothing has yet. -/
def Free (ctx : Context) (declared : Std.HashSet String) (name : String) : Prop :=
  ctx.env.isNative name = false ∧ ctx.env.declaredIn name = none ∧ name ∉ declared

private theorem gives_free (name : String) (line : Nat) :
    Gives (fun _ => True) (checkFree ctx declared name line) fun _ => Free ctx declared name := by
  unfold checkFree
  split
  · exact gives_fail
  · rename_i notNative
    split
    · exact gives_fail
    · rename_i unknown
      split
      · exact gives_fail
      · rename_i fresh
        refine gives_pure ⟨by simpa using notNative, unknown, ?_⟩
        rwa [← Std.HashSet.contains_iff_mem]

private theorem gives_any {α : Type} (p : Parser α) : Gives (fun _ => True) p fun _ => True :=
  fun _ _ _ _ _ => ⟨trivial, trivial⟩

private theorem globalDeclaration_free :
    Gives (fun _ => True) (globalDeclaration ctx declared) fun decl => Free ctx declared decl.name := by
  refine gives_bind (gives_any _) fun _ _ => gives_bind (gives_any _) fun line _ => gives_bind (gives_any _) fun name _ => ?_
  refine gives_bind (gives_free name line) fun _ free => gives_bind (gives_any _) fun _ _ => ?_
  exact gives_bind (gives_any _) fun _ _ => gives_bind (gives_any _) fun _ _ => gives_pure free

private theorem functionDeclaration_free :
    Gives (fun _ => True) (functionDeclaration ctx declared) fun decl => Free ctx declared decl.name := by
  refine gives_bind (gives_any _) fun _ _ => gives_bind (gives_any _) fun line _ => gives_bind (gives_any _) fun name _ => ?_
  refine gives_bind (gives_free name line) fun _ free => gives_bind (gives_any _) fun _ _ => ?_
  refine gives_bind (gives_any _) fun closed _ => ?_
  have finish : ∀ params : List String, True → Gives (fun _ => True)
      (do
        expect .rightParen .parametersEnd
        let body ← block (statement ctx maxNesting)
        return (⟨name, params, body, line⟩ : FunctionDecl)) fun decl => Free ctx declared decl.name :=
    fun params _ => gives_bind (gives_any _) fun _ _ => gives_bind (gives_any _) fun _ _ => gives_pure free
  split
  · exact gives_bind (gives_any _) finish
  · exact gives_bind (gives_any _) finish

/-- The names declared so far, last first, globals before functions. -/
def Progress.names (done : Progress) : List String :=
  done.globals.map GlobalDecl.name ++ done.functions.map FunctionDecl.name

/-- The names declared so far are new to the group and differ, and the set of them is kept. -/
structure Progress.Fresh (ctx : Context) (done : Progress) : Prop where
  distinct : done.names.Nodup
  new : ∀ name ∈ done.names, ctx.env.isNative name = false ∧ ctx.env.declaredIn name = none
  declared : ∀ name, name ∈ done.declared ↔ name ∈ done.names

/-- One more name, wherever it stands among the others. -/
theorem Progress.Fresh.add {done next : Progress} (fresh : done.Fresh ctx) {name : String} (free : Free ctx done.declared name)
    (names : next.names.Perm (name :: done.names)) (declared : next.declared = done.declared.insert name) : next.Fresh ctx where
  distinct := by
    rw [names.nodup_iff, List.nodup_cons, ← fresh.declared]
    exact ⟨free.2.2, fresh.distinct⟩
  new := by
    intro other present
    rcases List.mem_cons.mp (names.mem_iff.mp present) with rfl | earlier
    · exact ⟨free.1, free.2.1⟩
    · exact fresh.new other earlier
  declared := by
    intro other
    rw [declared, Std.HashSet.mem_insert, names.mem_iff, List.mem_cons, fresh.declared, beq_iff_eq, eq_comm]

private theorem topLevelItem_fresh {done : Progress} (fresh : done.Fresh ctx) :
    Gives (fun _ => True) (topLevelItem ctx done) fun result => result.1.Fresh ctx := by
  refine gives_bind gives_peek ?_
  intro token _
  split
  · exact gives_pure fresh
  · refine gives_bind globalDeclaration_free fun decl free => gives_pure ?_
    exact fresh.add free (List.Perm.refl _) rfl
  · refine gives_bind functionDeclaration_free fun decl free => gives_pure ?_
    exact fresh.add free List.perm_middle rfl
  · exact gives_bind (gives_any _) fun _ _ => gives_pure ⟨fresh.distinct, fresh.new, fresh.declared⟩

private theorem wholeUnit_fresh (artifact : String) :
    Gives (fun _ => True) (wholeUnit ctx artifact) fun parsed =>
      parsed.name = ctx.unit ∧ parsed.names.Nodup ∧
        ∀ name ∈ parsed.names, ctx.env.isNative name = false ∧ ctx.env.declaredIn name = none := by
  have begun : (⟨[], [], [], ∅⟩ : Progress).Fresh ctx := ⟨List.nodup_nil, nofun, by simp [Progress.names]⟩
  refine gives_bind gives_settle fun _ _ =>
    gives_bind (gives_iterate (Progress.Fresh ctx) (fun _ => topLevelItem_fresh) begun) fun done fresh => gives_pure ?_
  have names : (⟨ctx.unit, artifact, done.globals.reverse, done.functions.reverse, done.statements.reverse⟩ : ParsedUnit).names.Perm
      done.names := by
    simp only [ParsedUnit.names, Progress.names, List.map_reverse]
    exact (List.reverse_perm _).append (List.reverse_perm _)
  exact ⟨rfl, names.nodup_iff.mpr fresh.distinct, fun name present => fresh.new name (names.mem_iff.mp present)⟩

end Parser

/-- A unit that is parsed bears the name that it is given, and declares names that are new, each once. -/
theorem parse_fresh {env : Environment} {source unit artifact : String} {tolerant : Bool} {parsed : ParsedUnit}
    (accepted : (env.parse source unit artifact tolerant).result = .ok parsed) :
    parsed.name = unit ∧ parsed.names.Nodup ∧ ∀ name ∈ parsed.names, env.isNative name = false ∧ env.declaredIn name = none := by
  unfold Environment.parse at accepted
  split at accepted
  · rename_i made s run
    cases accepted
    exact (Parser.wholeUnit_fresh artifact _ _ _ trivial run).2
  · cases accepted

namespace Environment

variable {env last : Environment} {units : List ParsedUnit}

private theorem declaredIn_eq_none {name : String} :
    env.declaredIn name = none ↔ (∀ pair ∈ env.globals, name ≠ pair.1) ∧ ∀ pair ∈ env.functions, name ≠ pair.1 := by
  simp only [declaredIn, function?, Option.or_eq_none_iff, Option.map_eq_none_iff, List.lookup_eq_none_iff, bne_iff_ne]

/-- Declaring a unit makes its names known, and no others. -/
theorem declaredIn_declareUnit {parsed : ParsedUnit} {name : String} :
    (env.declareUnit parsed).declaredIn name = none ↔ name ∉ parsed.names ∧ env.declaredIn name = none := by
  simp only [declareUnit, declareGlobals, declareFunctions, declaredIn_eq_none, List.forall_mem_append, List.mem_reverse,
    List.forall_mem_map, entry]
  simp only [ParsedUnit.names, List.mem_append, List.mem_map, not_or, not_exists, not_and, ne_eq, eq_comm (a := name)]
  tauto

private theorem isNative_declareUnit (parsed : ParsedUnit) (name : String) :
    (env.declareUnit parsed).isNative name = env.isNative name := by
  simp only [declareUnit, declareGlobals, declareFunctions, isNative, native?]

/-- The units of a group declare names that are new to it, each once. -/
theorem parseAll_fresh {inputs : List Input} (parsed : env.parseAll inputs = (units, last)) :
    (units.flatMap ParsedUnit.names).Nodup ∧
      ∀ name ∈ units.flatMap ParsedUnit.names, env.isNative name = false ∧ env.declaredIn name = none := by
  induction inputs generalizing env units with
  | nil =>
    obtain ⟨rfl, rfl⟩ := Prod.mk.inj parsed
    exact ⟨List.nodup_nil, nofun⟩
  | cons input inputs ih =>
    simp only [parseAll] at parsed
    rcases parse_cases env input.source input.unit input.artifact input.tolerant with
      ⟨unit, result, declared⟩ | ⟨error, result, same⟩
    · rw [result, declared] at parsed
      obtain ⟨rfl, rfl⟩ := Prod.mk.inj parsed
      obtain ⟨-, distinct, new⟩ := parse_fresh result
      obtain ⟨later, fresh⟩ := @ih (env.declareUnit unit) _ rfl
      simp only [isNative_declareUnit, declaredIn_declareUnit] at fresh
      rw [List.flatMap_cons]
      refine ⟨distinct.append later ?_, ?_⟩
      · intro name here there
        exact (fresh name there).2.1 here
      · intro name present
        rcases List.mem_append.mp present with here | there
        · exact new name here
        · exact ⟨(fresh name there).1, (fresh name there).2.2⟩
    · rw [result, same] at parsed
      obtain ⟨rfl, rfl⟩ := Prod.mk.inj parsed
      exact ih rfl

/-- Among pairs with names that differ, a name is found with its value. -/
theorem lookup_eq_some_iff_mem {α : Type} {pairs : List (String × α)} (distinct : (pairs.map Prod.fst).Nodup) {name : String}
    {a : α} : pairs.lookup name = some a ↔ (name, a) ∈ pairs := by
  induction pairs with
  | nil => simp
  | cons pair pairs ih =>
    obtain ⟨other, b⟩ := pair
    obtain ⟨absent, distinct⟩ := List.nodup_cons.mp distinct
    by_cases same : name = other
    · subst same
      have apart : (name, a) ∉ pairs := fun inside => absent (List.mem_map.mpr ⟨_, inside, rfl⟩)
      rw [List.lookup_cons_self, List.mem_cons, Option.some_inj, Prod.mk.injEq]
      simp only [apart, true_and, or_false, eq_comm]
    · have differ : (name == other) = false := by simpa using same
      rw [List.lookup_cons, differ, List.mem_cons, Prod.mk.injEq]
      simp only [same, false_and, false_or]
      exact ih distinct

/-- What the environment of a group knows when units have been parsed against it: each name that they declare, from the one
unit that declares it, and nothing else. Functions are known with their arity. -/
structure Tabulates (natives : List (String × Option Nat)) (units : List ParsedUnit) (env : Environment) : Prop where
  kept : env.natives = natives
  /-- No name is declared twice in the group, or both as a global and as a function. -/
  once : (units.flatMap ParsedUnit.names).Nodup
  notNative : ∀ name ∈ units.flatMap ParsedUnit.names, natives.lookup name = none
  global : ∀ name unit, env.globals.lookup name = some unit ↔
    ∃ parsed ∈ units, parsed.name = unit ∧ ∃ decl ∈ parsed.globals, decl.name = name
  function : ∀ name signature, env.function? name = some signature ↔
    ∃ parsed ∈ units, ∃ decl ∈ parsed.functions, decl.name = name ∧ ⟨decl.params.length, parsed.name⟩ = signature
  declaredIn : ∀ name unit, env.declaredIn name = some unit ↔ ∃ parsed ∈ units, parsed.name = unit ∧ name ∈ parsed.names
  globalCount : env.globals.length = (units.flatMap ParsedUnit.globals).length
  functionCount : env.functions.length = (units.flatMap ParsedUnit.functions).length

/-- The names of the globals are among those of the units, and so are the names of the functions. -/
theorem globalsOf_names (units : List ParsedUnit) :
    ((globalsOf units).map Prod.fst).Sublist (units.flatMap ParsedUnit.names) := by
  have names : (globalsOf units).map Prod.fst = units.flatMap fun parsed => parsed.globals.map GlobalDecl.name := by
    simp only [globalsOf, List.map_flatMap, List.map_map, Function.comp_def]
  rw [names]
  exact List.Sublist.flatMap_right units fun parsed _ => List.sublist_append_left _ _

private theorem functionsOf_names (units : List ParsedUnit) :
    (((Evaluation.functionsOf units).map entry).map Prod.fst).Sublist (units.flatMap ParsedUnit.names) := by
  have names : ((Evaluation.functionsOf units).map entry).map Prod.fst =
      units.flatMap fun parsed => parsed.functions.map FunctionDecl.name := by
    simp only [Evaluation.functionsOf, List.map_flatMap, List.map_map, Function.comp_def, entry]
  rw [names]
  exact List.Sublist.flatMap_right units fun parsed _ => List.sublist_append_right _ _

private theorem mem_globalsOf {name unit : String} :
    (name, unit) ∈ globalsOf units ↔ ∃ parsed ∈ units, parsed.name = unit ∧ ∃ decl ∈ parsed.globals, decl.name = name := by
  simp only [globalsOf, List.mem_flatMap, List.mem_map, Prod.mk.injEq]
  constructor
  · rintro ⟨parsed, inside, decl, here, rfl, rfl⟩
    exact ⟨parsed, inside, rfl, decl, here, rfl⟩
  · rintro ⟨parsed, inside, rfl, decl, here, rfl⟩
    exact ⟨parsed, inside, decl, here, rfl, rfl⟩

private theorem mem_functionsOf {name : String} {signature : Signature} :
    (name, signature) ∈ (Evaluation.functionsOf units).map entry ↔
      ∃ parsed ∈ units, ∃ decl ∈ parsed.functions, decl.name = name ∧ ⟨decl.params.length, parsed.name⟩ = signature := by
  simp only [Evaluation.functionsOf, List.mem_map, List.mem_flatMap, entry]
  constructor
  · rintro ⟨_, ⟨parsed, inside, decl, here, rfl⟩, same⟩
    obtain ⟨rfl, rfl⟩ := Prod.mk.inj same
    exact ⟨parsed, inside, decl, here, rfl, rfl⟩
  · rintro ⟨parsed, inside, decl, here, rfl, rfl⟩
    exact ⟨_, ⟨parsed, inside, decl, here, rfl⟩, rfl⟩

/-- Where no name is declared twice, one unit declares it. -/
theorem eq_of_mem_names (once : (units.flatMap ParsedUnit.names).Nodup) {parsed other : ParsedUnit} (inside : parsed ∈ units)
    (there : other ∈ units) {name : String} (owned : name ∈ parsed.names) (shared : name ∈ other.names) : parsed = other := by
  have apart : units.Pairwise (Function.onFun List.Disjoint ParsedUnit.names) := (List.nodup_flatMap.mp once).2
  have symmetric : Std.Symm (Function.onFun List.Disjoint ParsedUnit.names) := ⟨fun _ _ disjoint => List.Disjoint.symm disjoint⟩
  by_contra differ
  exact apart.forall inside there differ owned shared

/-- What is known after units have been parsed is what they declare. -/
theorem parseAll_tabulates {group : String} {natives : List (String × Option Nat)} {brackets : List BracketHandler}
    {inputs : List Input} (parsed : (initial group natives brackets).parseAll inputs = (units, env)) :
    Tabulates natives units env := by
  obtain ⟨once, fresh⟩ := parseAll_fresh parsed
  have declared := parseAll_env parsed
  rw [declareUnits] at declared
  simp only [initial, List.append_nil] at declared
  have globals : ∀ name unit, env.globals.lookup name = some unit ↔
      ∃ parsed ∈ units, parsed.name = unit ∧ ∃ decl ∈ parsed.globals, decl.name = name := by
    intro name unit
    have distinct : (env.globals.map Prod.fst).Nodup := by
      rw [declared, List.map_reverse, List.nodup_reverse]
      exact once.sublist (globalsOf_names units)
    rw [lookup_eq_some_iff_mem distinct, declared, List.mem_reverse, mem_globalsOf]
  have functions : ∀ name signature, env.function? name = some signature ↔
      ∃ parsed ∈ units, ∃ decl ∈ parsed.functions, decl.name = name ∧ ⟨decl.params.length, parsed.name⟩ = signature := by
    intro name signature
    have distinct : (env.functions.map Prod.fst).Nodup := by
      rw [declared, List.map_reverse, List.nodup_reverse]
      exact once.sublist (functionsOf_names units)
    rw [function?, lookup_eq_some_iff_mem distinct, declared, List.mem_reverse, mem_functionsOf]
  refine ⟨by rw [declared], once, ?_, globals, functions, ?_, ?_, ?_⟩
  · intro name present
    simpa only [isNative, native?, initial, Option.isSome_eq_false_iff, Option.isNone_iff_eq_none] using (fresh name present).1
  · intro name unit
    rw [declaredIn]
    cases found : env.globals.lookup name with
    | some owner =>
      obtain ⟨parsed, inside, rfl, decl, here, rfl⟩ := (globals name owner).mp found
      have owned : decl.name ∈ parsed.names := List.mem_append_left _ (List.mem_map_of_mem here)
      simp only [Option.some_or, Option.some_inj]
      constructor
      · rintro rfl
        exact ⟨parsed, inside, rfl, owned⟩
      · rintro ⟨other, there, rfl, shared⟩
        rw [eq_of_mem_names once inside there owned shared]
    | none =>
      have notGlobal : ∀ parsed ∈ units, name ∉ parsed.globals.map GlobalDecl.name := by
        intro parsed inside present
        have known := (globals name parsed.name).mpr ⟨parsed, inside, rfl, List.mem_map.mp present⟩
        cases found.symm.trans known
      simp only [Option.none_or, Option.map_eq_some_iff, functions]
      constructor
      · rintro ⟨_, ⟨parsed, inside, decl, here, rfl, rfl⟩, rfl⟩
        exact ⟨parsed, inside, rfl, List.mem_append_right _ (List.mem_map_of_mem here)⟩
      · rintro ⟨parsed, inside, rfl, present⟩
        obtain ⟨decl, here, rfl⟩ := List.mem_map.mp ((List.mem_append.mp present).resolve_left (notGlobal parsed inside))
        exact ⟨_, ⟨parsed, inside, decl, here, rfl, rfl⟩, rfl⟩
  · rw [declared, List.length_reverse, globalsOf, List.length_flatMap, List.length_flatMap]
    simp only [List.length_map]
  · rw [declared, List.length_reverse, List.length_map, Evaluation.functionsOf, List.length_flatMap, List.length_flatMap]
    simp only [List.length_map]

/-- Parsing a unit declares what it gives, or fails and changes nothing; and when units have been parsed one after the other,
the environment knows what those of them that are parsed declare, and nothing else. -/
theorem parseAll_symbols (group : String) (natives : List (String × Option Nat)) (brackets : List BracketHandler)
    (inputs : List Input) :
    (∀ (before : Environment) (input : Input),
      let parsed := before.parse input.source input.unit input.artifact input.tolerant
      match parsed.result with
      | .ok unit => parsed.env = before.declareUnit unit ∧ unit.name = input.unit
      | .error _ => parsed.env = before) ∧
    Tabulates natives ((initial group natives brackets).parseAll inputs).1 ((initial group natives brackets).parseAll inputs).2 := by
  refine ⟨?_, parseAll_tabulates rfl⟩
  intro before input
  rcases parse_cases before input.source input.unit input.artifact input.tolerant with
    ⟨unit, result, declared⟩ | ⟨error, result, same⟩
  · simp only [result]
    exact ⟨declared, (parse_fresh result).1⟩
  · simp only [result]
    exact same

end Environment

end Scriptorium.Script
