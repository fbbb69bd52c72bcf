import Scriptorium.Proofs.Loading

/-!
# Stored artifacts

What compiling a group leaves in an empty set of artifacts (`compileGroup_artifacts`): all artifacts of a program, each under a
name of its own, or those that were stored before a unit failed. Each artifact is the encoding of what it is of
(`CompiledUnit.Encodes`, `InitialsEncode`). The entry point is stored last, so what a failed group leaves never loads.
-/
namespace Scriptorium

open Bytecode (CompiledUnit EntryPoint initArtifact mainArtifact)
open Machine (LoadError Program)
open Script (Environment ParsedUnit)

/-- A set holds these artifacts and no others, and each of them has a name of its own. -/
structure ArtifactSet.Holds (set : ArtifactSet) (contents : List (String × String)) : Prop where
  distinct : (contents.map Prod.fst).Nodup
  get? : ∀ name payload, set.get? name = some payload ↔ (name, payload) ∈ contents

theorem ArtifactSet.holds_empty : Holds ∅ [] := ⟨.nil, by simp⟩

theorem ArtifactSet.Holds.insert {set : ArtifactSet} {contents : List (String × String)} (holds : set.Holds contents)
    {name : String} (new : name ∉ contents.map Prod.fst) (payload : String) :
    Holds (Std.TreeMap.insert set name payload) (contents ++ [(name, payload)]) where
  distinct := by
    rw [List.map_append, List.map_singleton, ← List.concat_eq_append]
    exact holds.distinct.concat new
  get? := by
    intro other found
    rw [Compile.get?_insert, List.mem_append, List.mem_singleton]
    by_cases same : name = other
    · subst same
      have absent : (name, found) ∉ contents := fun present => new (List.mem_map_of_mem present)
      simp [absent, eq_comm]
    · rw [if_neg same, holds.get?]
      simp [Ne.symm same]

namespace Bytecode

/-- A text encodes a unit. It is a document of the unit, and reads back as the unit with each number as that reads again: as the
unit itself, if every number reads again as itself. Lines and arities are numbers of 64 bits. -/
structure CompiledUnit.Encodes (compiled : CompiledUnit) (payload : String) : Prop where
  document : Json.read? payload = some compiled.tree
  decodes : compiled.Fits → CompiledUnit.ofPayload? payload = compiled.reread?
  unchanged : compiled.Fits → (CompiledUnit.ofPayload? payload = some compiled ↔ ∀ x ∈ compiled.numbers, Decimal.reread? x = some x)

/-- A text encodes the initial values of globals, in the same way. -/
structure InitialsEncode (initials : List CompiledUnit) (payload : String) : Prop where
  document : Json.read? payload = some (.array (initials.map CompiledUnit.tree))
  decodes : (∀ compiled ∈ initials, compiled.Fits) → initials? payload = initials.mapM CompiledUnit.reread?
  unchanged : (∀ compiled ∈ initials, compiled.Fits) →
    (initials? payload = some initials ↔ ∀ compiled ∈ initials, ∀ x ∈ compiled.numbers, Decimal.reread? x = some x)

theorem CompiledUnit.encodes_payload (compiled : CompiledUnit) : compiled.Encodes compiled.payload where
  document := Json.Tree.read?_write (made_unit compiled)
  decodes := ofPayload?_payload
  unchanged := by
    intro fits
    rw [ofPayload?_payload fits, CompiledUnit.reread?_eq_self]

private theorem initialsEncode_payload (initials : List CompiledUnit) : InitialsEncode initials (initialsPayload initials) where
  document := Json.Tree.read?_write (made_array fun compiled _ => made_unit compiled)
  decodes := initials?_payload
  unchanged := by
    intro fits
    rw [initials?_payload fits, mapM_eq_self]
    simp only [CompiledUnit.reread?_eq_self]

end Bytecode

namespace Compile

/-- What is stored of compiled units. -/
def unitArtifacts (pairs : List (ParsedUnit × CompiledUnit)) : List (String × String) :=
  pairs.map fun pair => (pair.1.artifact, pair.2.payload)

private theorem unitArtifacts_names (pairs : List (ParsedUnit × CompiledUnit)) :
    (unitArtifacts pairs).map Prod.fst = (pairs.map Prod.fst).map ParsedUnit.artifact := by
  simp [unitArtifacts, Function.comp_def]

/-- Compiled units are stored beside what a set holds, if their names are new. -/
theorem store_holds {set : ArtifactSet} {contents : List (String × String)} (holds : set.Holds contents)
    {pairs : List (ParsedUnit × CompiledUnit)} (distinct : ((contents ++ unitArtifacts pairs).map Prod.fst).Nodup) :
    (store set pairs).Holds (contents ++ unitArtifacts pairs) := by
  induction pairs generalizing set contents with
  | nil =>
    rw [unitArtifacts, List.map_nil, List.append_nil]
    exact holds
  | cons pair pairs ih =>
    have split : contents ++ unitArtifacts (pair :: pairs) =
        contents ++ [(pair.1.artifact, pair.2.payload)] ++ unitArtifacts pairs := by
      rw [List.append_assoc]
      rfl
    rw [split] at distinct ⊢
    have new : pair.1.artifact ∉ contents.map Prod.fst := by
      intro present
      rw [List.map_append, List.map_append] at distinct
      exact (List.nodup_append'.mp (List.nodup_append'.mp distinct).1).2.2 present List.mem_cons_self
    exact ih (holds.insert new pair.2.payload) distinct

section
variable {env : Environment} {debug : Bool} {units : List ParsedUnit} {artifacts : ArtifactSet} {error : CompileError}

/-- Storing units stops at the first that does not compile. -/
theorem storeUnits_stops (failed : (storeUnits env debug artifacts units).result = .error error) :
    ∃ stored failing rest compiled, units = stored ++ failing :: rest ∧ compileUnit env debug failing = .error error ∧
      List.Forall₂ (fun parsed made => compileUnit env debug parsed = .ok made) stored compiled ∧
      (storeUnits env debug artifacts units).artifacts = store artifacts (stored.zip compiled) := by
  induction units generalizing artifacts with
  | nil => cases failed
  | cons parsed units ih =>
    unfold storeUnits at failed ⊢
    cases here : compileUnit env debug parsed with
    | error fault =>
      rw [here] at failed
      cases failed
      exact ⟨[], parsed, units, [], rfl, here, .nil, rfl⟩
    | ok made =>
      rw [here] at failed
      obtain ⟨stored, failing, rest, compiled, rfl, stops, each, left⟩ := ih failed
      exact ⟨parsed :: stored, failing, rest, made :: compiled, rfl, stops, .cons here each, left⟩

/-- A set without an entry point does not load. -/
theorem load_missing {contents : List (String × String)} (holds : artifacts.Holds contents)
    (absent : mainArtifact ∉ contents.map Prod.fst) : Program.load artifacts = .error (.missing mainArtifact) := by
  have none : artifacts.get? mainArtifact = none := by
    rw [Option.eq_none_iff_forall_ne_some]
    intro payload found
    exact absent (List.mem_map_of_mem ((holds.get? mainArtifact payload).mp found))
  rw [Program.load, Program.artifact]
  simp only [none]
  rfl

/-- The initial values and some of the first units of a group are stored under names of their own, of which none is that of the
entry point. -/
theorem begun_holds (checked : checkNames [] units = .ok ()) {stored : List ParsedUnit} (first : stored <+: units)
    {compiled : List CompiledUnit} (lengths : stored.length = compiled.length) (payload : String) :
    let contents := (initArtifact, payload) :: unitArtifacts (stored.zip compiled)
    (store (Std.TreeMap.insert ∅ initArtifact payload) (stored.zip compiled)).Holds contents ∧
      mainArtifact ∉ contents.map Prod.fst := by
  intro contents
  obtain ⟨unreserved, distinct, -⟩ := checkNames_ok checked
  have names : contents.map Prod.fst = initArtifact :: stored.map ParsedUnit.artifact := by
    rw [List.map_cons, unitArtifacts_names, List.map_fst_zip lengths.le]
  have absent {name : String} (reserved : ∀ parsed ∈ units, parsed.artifact ≠ name) : name ∉ stored.map ParsedUnit.artifact := by
    intro present
    obtain ⟨parsed, inside, same⟩ := List.mem_map.mp present
    exact reserved parsed (first.subset inside) same
  constructor
  · have begun : ArtifactSet.Holds (Std.TreeMap.insert ∅ initArtifact payload) ([] ++ [(initArtifact, payload)]) :=
      ArtifactSet.holds_empty.insert List.not_mem_nil payload
    refine store_holds begun ?_
    show (contents.map Prod.fst).Nodup
    rw [names]
    exact List.nodup_cons.mpr ⟨absent fun parsed inside => (unreserved parsed inside).2, distinct.sublist (first.sublist.map _)⟩
  · rw [names, List.mem_cons, not_or]
    exact ⟨by decide, absent fun parsed inside => (unreserved parsed inside).1⟩

private theorem artifacts_of_ok (succeeded : (compileGroup env debug units ∅).result = .ok ()) : ∃ initials compiled,
    compileInitials env debug units = .ok initials ∧
    List.Forall₂ (fun parsed made => compileUnit env debug parsed = .ok made) units compiled ∧
    (compileGroup env debug units ∅).artifacts.Holds ((initArtifact, Bytecode.initialsPayload initials) ::
      unitArtifacts (units.zip compiled) ++ [(mainArtifact, (entryPoint env debug units).payload)]) := by
  obtain ⟨made, program⟩ := compileGroup_result.mp succeeded
  obtain ⟨checked, lengths, -⟩ := program_parts program
  obtain ⟨initials, begun, rest⟩ := except_bind_eq_ok.mp program
  obtain ⟨compiled, each, same⟩ := except_bind_eq_ok.mp rest
  cases same
  obtain ⟨holds, absent⟩ := begun_holds checked (List.prefix_refl units) lengths (Bytecode.initialsPayload initials)
  rw [compileGroup_ok program]
  exact ⟨initials, compiled, begun, mapM_eq_ok each, holds.insert absent _⟩

private theorem artifacts_of_error (failed : (compileGroup env debug units ∅).result = .error error) :
    Program.load (compileGroup env debug units ∅).artifacts = .error (.missing mainArtifact) ∧
    ((compileInitials env debug units = .error error ∧ (compileGroup env debug units ∅).artifacts = ∅) ∨
      ∃ initials stored failing rest compiled, compileInitials env debug units = .ok initials ∧
        units = stored ++ failing :: rest ∧ compileUnit env debug failing = .error error ∧
        List.Forall₂ (fun parsed made => compileUnit env debug parsed = .ok made) stored compiled ∧
        (compileGroup env debug units ∅).artifacts.Holds
          ((initArtifact, Bytecode.initialsPayload initials) :: unitArtifacts (stored.zip compiled))) := by
  unfold compileGroup at failed ⊢
  cases begun : compileInitials env debug units with
  | error fault =>
    rw [begun] at failed
    cases failed
    exact ⟨load_missing ArtifactSet.holds_empty List.not_mem_nil, .inl ⟨rfl, rfl⟩⟩
  | ok initials =>
    obtain ⟨_, checked, -⟩ := except_bind_eq_ok.mp begun
    simp only [begun] at failed ⊢
    cases stops : (storeUnits env debug (Std.TreeMap.insert ∅ initArtifact (Bytecode.initialsPayload initials)) units).result with
    | ok =>
      rw [stops] at failed
      cases failed
    | error fault =>
      simp only [stops] at failed ⊢
      cases failed
      obtain ⟨stored, failing, rest, compiled, parts, faulty, each, left⟩ := storeUnits_stops stops
      obtain ⟨holds, absent⟩ := begun_holds checked (parts ▸ List.prefix_append stored _) each.length_eq
        (Bytecode.initialsPayload initials)
      rw [left]
      exact ⟨load_missing holds absent, .inr ⟨initials, stored, failing, rest, compiled, rfl, parts, faulty, each, holds⟩⟩

end

/-- What compiling a group leaves in an empty set. If it succeeds, it is the initial values, one artifact of each unit and the
entry point, each under a name of its own, and the entry point lists the units in their order. If it fails, it is nothing, or
the initial values and the units before one that does not compile; then there is no entry point, and nothing loads. What is left
of a unit is the encoding of what that unit compiles to, and so are the initial values. -/
theorem compileGroup_artifacts (env : Environment) (debug : Bool) (units : List ParsedUnit) :
    ((compileGroup env debug units ∅).result = .ok () → ∃ initials compiled,
      compileInitials env debug units = .ok initials ∧
      List.Forall₂ (fun parsed made => compileUnit env debug parsed = .ok made) units compiled ∧
      (compileGroup env debug units ∅).artifacts.Holds ((initArtifact, Bytecode.initialsPayload initials) ::
        unitArtifacts (units.zip compiled) ++ [(mainArtifact, (entryPoint env debug units).payload)]) ∧
      Bytecode.InitialsEncode initials (Bytecode.initialsPayload initials) ∧ (∀ made ∈ compiled, made.Encodes made.payload) ∧
      EntryPoint.ofPayload? (entryPoint env debug units).payload = some ⟨env.group, debug, units.map ParsedUnit.artifact⟩) ∧
    ∀ error, (compileGroup env debug units ∅).result = .error error →
      Program.load (compileGroup env debug units ∅).artifacts = .error (.missing mainArtifact) ∧
      ((compileInitials env debug units = .error error ∧ (compileGroup env debug units ∅).artifacts = ∅) ∨
        ∃ initials stored failing rest compiled, compileInitials env debug units = .ok initials ∧
          units = stored ++ failing :: rest ∧ compileUnit env debug failing = .error error ∧
          List.Forall₂ (fun parsed made => compileUnit env debug parsed = .ok made) stored compiled ∧
          (compileGroup env debug units ∅).artifacts.Holds
            ((initArtifact, Bytecode.initialsPayload initials) :: unitArtifacts (stored.zip compiled)) ∧
          Bytecode.InitialsEncode initials (Bytecode.initialsPayload initials) ∧ ∀ made ∈ compiled, made.Encodes made.payload) := by
  have encoded : ∀ compiled : List CompiledUnit, ∀ made ∈ compiled, made.Encodes made.payload :=
    fun _ made _ => made.encodes_payload
  constructor
  · intro succeeded
    obtain ⟨initials, compiled, begun, each, holds⟩ := artifacts_of_ok succeeded
    exact ⟨initials, compiled, begun, each, holds, Bytecode.initialsEncode_payload initials, encoded compiled,
      Bytecode.entryPoint_ofPayload?_payload (entryPoint env debug units)⟩
  · intro error failed
    obtain ⟨missing, empty | ⟨initials, stored, failing, rest, compiled, begun, parts, faulty, each, holds⟩⟩ :=
      artifacts_of_error failed
    · exact ⟨missing, .inl empty⟩
    · exact ⟨missing, .inr ⟨initials, stored, failing, rest, compiled, begun, parts, faulty, each, holds,
        Bytecode.initialsEncode_payload initials, encoded compiled⟩⟩

/-- A unit with a name that is not declared. -/
def faultyUnit : ParsedUnit := ⟨"b.zs", "b", [], [], [.expr (.name "x" 3)]⟩

/-- The environment of the unit with rates. -/
def ratesEnvironment : Environment := (Environment.initial "group" [] []).declareUnit ratesUnit

/-- What is stored of the initial values of the unit with rates. -/
def ratesInitials : String :=
  "[\x7b\"source\":\"rates.zs\",\"body\":\x7b\"code\":[0,0,0,9,0,1,1,29]," ++
    "\"constants\":[\x7b\"Number\":0.25\x7d,\x7b\"String\":\"rate\"\x7d],\"lines\":[1,1,1,1,1,1,1,1]\x7d,\"functions\":[]\x7d]"

/-- What is stored of the unit with rates. -/
def ratesPayload : String :=
  "\x7b\"source\":\"rates.zs\",\"body\":\x7b\"code\":[0,0,0,7,0,1,12,1,29]," ++
    "\"constants\":[\x7b\"Number\":3.0\x7d,\x7b\"String\":\"rate\"\x7d],\"lines\":[2,2,2,2,2,2,2,2,2]\x7d,\"functions\":[]\x7d"

/-- The entry point of the group of the unit with rates. -/
def ratesEntry : String := "\x7b\"group\":\"group\",\"debug\":true,\"units\":[\"rates\"]\x7d"

private theorem payload_eq {α : Type} {result : Except CompileError α} {made : α} (compiled : result = .ok made) {payload : α → String}
    {written : String} (stored : result.toOption.map payload = some written) : payload made = written := by
  rw [compiled] at stored
  exact Option.some.inj stored

private theorem ratesInitials_eq {initials : List CompiledUnit}
    (compiled : compileInitials ratesEnvironment true [ratesUnit] = .ok initials) :
    Bytecode.initialsPayload initials = ratesInitials :=
  payload_eq compiled (by decide +kernel)

/-- The unit that does not compile has no globals. -/
theorem faultyUnit_initials :
    compileInitials ratesEnvironment true [ratesUnit, faultyUnit] = compileInitials ratesEnvironment true [ratesUnit] := rfl

private theorem ratesPayload_eq {made : CompiledUnit} (compiled : compileUnit ratesEnvironment true ratesUnit = .ok made) :
    made.payload = ratesPayload :=
  payload_eq compiled (by decide +kernel)

/-- The unit compiles to numbers that read again as themselves, and so do its initial values. -/
theorem ratesUnit_rereads {made : CompiledUnit}
    (compiled : compileUnit ratesEnvironment true ratesUnit = .ok made ∨ initialValues ratesEnvironment true ratesUnit = .ok made) :
    made.Fits ∧ ∀ x ∈ made.numbers, Decimal.reread? x = some x := by
  have within : ratesUnit.Within Json.maxInteger :=
    Environment.parseAll_within ratesSource_lines ratesSource_parses _ (List.mem_singleton_self _)
  have quarter : Decimal.reread? 0.25 = some 0.25 := by decide +kernel
  have three : Decimal.reread? 3 = some 3 := by decide +kernel
  rcases compiled with body | initial
  · obtain ⟨fits, numbers⟩ := compileUnit_contents within body
    refine ⟨fits, fun x present => ?_⟩
    rcases (numbers x).mp present with inside | inside
    · cases inside
    · obtain rfl := List.mem_singleton.mp inside
      exact three
  · obtain ⟨fits, numbers⟩ := initialValues_contents within initial
    refine ⟨fits, fun x present => ?_⟩
    obtain rfl := List.mem_singleton.mp ((numbers x).mp present)
    exact quarter

theorem ratesUnit_artifacts :
    (∃ initials made, compileInitials ratesEnvironment true [ratesUnit] = .ok initials ∧
      compileUnit ratesEnvironment true ratesUnit = .ok made ∧
      (compileGroup ratesEnvironment true [ratesUnit] ∅).artifacts.Holds
        [(initArtifact, ratesInitials), ("rates", ratesPayload), (mainArtifact, ratesEntry)] ∧
      Bytecode.initials? ratesInitials = some initials ∧ CompiledUnit.ofPayload? ratesPayload = some made) ∧
    (compileGroup ratesEnvironment true [ratesUnit, faultyUnit] ∅).artifacts.Holds
      [(initArtifact, ratesInitials), ("rates", ratesPayload)] ∧
    Program.load (compileGroup ratesEnvironment true [ratesUnit, faultyUnit] ∅).artifacts = .error (.missing mainArtifact) := by
  have failed : (compileGroup ratesEnvironment true [ratesUnit, faultyUnit] ∅).result =
      .error ⟨"b.zs", 3, .undefinedVariable "x"⟩ := by decide +kernel
  obtain ⟨initials, compiled, begun, each, holds, initial, encoded, -⟩ := (compileGroup_artifacts _ _ _).1 ratesUnit_compiles
  obtain ⟨made, others, body, rest, rfl⟩ := List.forall₂_cons_left_iff.mp each
  obtain rfl := List.forall₂_nil_left_iff.mp rest
  have written := ratesInitials_eq begun
  have payload := ratesPayload_eq body
  refine ⟨⟨initials, made, begun, body, ?_, ?_, ?_⟩, ?_, ((compileGroup_artifacts _ _ _).2 _ failed).1⟩
  · rw [← written, ← payload]
    exact holds
  · have rereads : ∀ made ∈ initials, made.Fits ∧ ∀ x ∈ made.numbers, Decimal.reread? x = some x := by
      intro made present
      obtain ⟨_, -, mapped⟩ := except_bind_eq_ok.mp begun
      obtain ⟨parsed, kept, compiled⟩ := mapM_mem mapped present
      obtain rfl := List.mem_singleton.mp (List.mem_of_mem_filter kept)
      exact ratesUnit_rereads (.inr compiled)
    rw [← written]
    exact (initial.unchanged fun made present => (rereads made present).1).mpr fun made present => (rereads made present).2
  · obtain ⟨fits, numbers⟩ := ratesUnit_rereads (.inl body)
    rw [← payload]
    exact ((encoded made List.mem_cons_self).unchanged fits).mpr numbers
  · obtain ⟨-, ⟨unfounded, -⟩ | ⟨_, stored, failing, rest, _, again, parts, faulty, each, holds, -⟩⟩ :=
      (compileGroup_artifacts _ _ _).2 _ failed
    · cases begun.symm.trans (faultyUnit_initials.symm.trans unfounded)
    · rw [← ratesInitials_eq (faultyUnit_initials.symm.trans again)]
      -- the first unit compiles, and there is no unit after the second
      rcases each with _ | ⟨first, _ | ⟨second, others⟩⟩
      · cases parts
        cases body.symm.trans faulty
      · cases parts
        rw [← ratesPayload_eq first]
        exact holds
      · simp at parts

end Compile

end Scriptorium
