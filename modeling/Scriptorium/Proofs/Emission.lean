import Scriptorium.Machine.Program
import Scriptorium.Proofs.CodeShape
import Scriptorium.Proofs.Evaluation
import Scriptorium.Script.Parser

/-!
# What a group compiles to

`Compile.program` is the program that a group compiles to before it is stored in artifacts; a group
compiles exactly when there is one. Its functions are those of the units, and the environment knows their
names and arities: it is made by declaring the units one after the other.
-/
namespace Scriptorium

open Bytecode (CompiledUnit initArtifact mainArtifact)
open Evaluation (functionsOf)
open Machine (LinkedFunction Program linkFunctions)
open Script (Environment FunctionDecl GlobalDecl ParsedUnit Signature)

namespace Script

/-- The source of a unit and what it is parsed with. -/
structure Input where
  source : String
  unit : String
  artifact : String
  tolerant : Bool

namespace Environment

/-- Parses units one after the other against one environment; what does not parse is left out. -/
def parseAll (env : Environment) : List Input → List ParsedUnit × Environment
  | [] => ([], env)
  | input :: inputs =>
    let parsed := env.parse input.source input.unit input.artifact input.tolerant
    let (units, last) := parseAll parsed.env inputs
    match parsed.result with
    | .ok unit => (unit :: units, last)
    | .error _ => (units, last)

/-- A unit that is parsed is declared, and one that is not changes nothing. -/
theorem parse_cases (env : Environment) (source unit artifact : String) (tolerant : Bool) :
    (∃ parsed, (env.parse source unit artifact tolerant).result = .ok parsed ∧
        (env.parse source unit artifact tolerant).env = env.declareUnit parsed) ∨
      ∃ error, (env.parse source unit artifact tolerant).result = .error error ∧
        (env.parse source unit artifact tolerant).env = env := by
  unfold parse
  split
  · exact .inl ⟨_, rfl, rfl⟩
  · exact .inr ⟨_, rfl, rfl⟩

/-- The environment after parsing is the one that knows the declarations of the units. -/
theorem parseAll_env {env last : Environment} {inputs : List Input} {units : List ParsedUnit}
    (parsed : env.parseAll inputs = (units, last)) : last = units.foldl declareUnit env := by
  induction inputs generalizing env units with
  | nil =>
    obtain ⟨rfl, rfl⟩ := Prod.mk.inj parsed
    rfl
  | cons input inputs ih =>
    simp only [parseAll] at parsed
    rcases parse_cases env input.source input.unit input.artifact input.tolerant with
      ⟨unit, result, declared⟩ | ⟨error, result, same⟩
    · rw [result, declared] at parsed
      obtain ⟨rfl, rfl⟩ := Prod.mk.inj parsed
      rw [List.foldl_cons]
      exact ih rfl
    · rw [result, same] at parsed
      obtain ⟨rfl, rfl⟩ := Prod.mk.inj parsed
      exact ih rfl

theorem parseAll_cons {env next last : Environment} {input : Input} {inputs : List Input} {unit : ParsedUnit}
    {units : List ParsedUnit} {warnings : List BracketWarning}
    (first : env.parse input.source input.unit input.artifact input.tolerant = ⟨.ok unit, warnings, next⟩)
    (rest : next.parseAll inputs = (units, last)) : env.parseAll (input :: inputs) = (unit :: units, last) := by
  simp only [parseAll, first, rest]

/-- What is parsed comes from the inputs. -/
theorem mem_parseAll {env : Environment} {inputs : List Input} {unit : ParsedUnit} (inside : unit ∈ (env.parseAll inputs).1) :
    ∃ input ∈ inputs, ∃ before : Environment,
      (before.parse input.source input.unit input.artifact input.tolerant).result = .ok unit := by
  induction inputs generalizing env with
  | nil => cases inside
  | cons input inputs ih =>
    have later : unit ∈ ((env.parse input.source input.unit input.artifact input.tolerant).env.parseAll inputs).1 →
        ∃ other ∈ input :: inputs, ∃ before : Environment,
          (before.parse other.source other.unit other.artifact other.tolerant).result = .ok unit := by
      intro here
      obtain ⟨other, present, before, result⟩ := ih here
      exact ⟨other, List.mem_cons_of_mem _ present, before, result⟩
    simp only [parseAll] at inside
    cases result : (env.parse input.source input.unit input.artifact input.tolerant).result with
    | ok first =>
      rw [result] at inside
      rcases List.mem_cons.mp inside with rfl | here
      · exact ⟨input, List.mem_cons_self, env, result⟩
      · exact later here
    | error error =>
      rw [result] at inside
      exact later inside

/-- What the environment knows of a function of a unit. -/
def entry (found : String × FunctionDecl) : String × Signature :=
  (found.2.name, ⟨found.2.params.length, found.1⟩)

/-- The globals of units, each with the name of its unit, in the order of their declarations. -/
def globalsOf (units : List ParsedUnit) : List (String × String) :=
  units.flatMap fun parsed => parsed.globals.map fun decl => (decl.name, parsed.name)

theorem declareGlobals (env : Environment) (unit : String) (decls : List GlobalDecl) :
    decls.foldl (fun env g => env.declareGlobal unit g.name) env =
      { env with globals := (decls.map fun decl => (decl.name, unit)).reverse ++ env.globals } := by
  induction decls generalizing env with
  | nil => rfl
  | cons decl decls ih =>
    rw [List.foldl_cons, ih]
    simp [declareGlobal]

theorem declareFunctions (env : Environment) (unit : String) (decls : List FunctionDecl) :
    decls.foldl (fun env f => env.declareFunction unit f.name f.params.length) env =
      { env with functions := ((decls.map fun decl => (unit, decl)).map entry).reverse ++ env.functions } := by
  induction decls generalizing env with
  | nil => rfl
  | cons decl decls ih =>
    rw [List.foldl_cons, ih]
    simp [declareFunction, entry]

/-- Declaring units puts what they declare before what is known, the last first. -/
theorem declareUnits (env : Environment) (units : List ParsedUnit) :
    units.foldl declareUnit env =
      { env with
        globals := (globalsOf units).reverse ++ env.globals
        functions := ((functionsOf units).map entry).reverse ++ env.functions } := by
  induction units generalizing env with
  | nil => rfl
  | cons unit units ih =>
    rw [List.foldl_cons, ih]
    simp [declareUnit, declareGlobals, declareFunctions, globalsOf, functionsOf]

private theorem lookup_entries (found : List (String × FunctionDecl)) (name : String) :
    (found.map entry).lookup name = (found.find? fun found => found.2.name == name).map fun found => (entry found).2 := by
  induction found with
  | nil => rfl
  | cons first rest ih =>
    by_cases same : first.2.name = name
    · simp [entry, same]
    · have differ : (name == first.2.name) = false := by simpa using fun turned => same turned.symm
      have skipped : (first :: rest).find? (fun found => found.2.name == name) =
          rest.find? fun found => found.2.name == name := List.find?_cons_of_neg (by simpa using same)
      have passed : ((first :: rest).map entry).lookup name = (rest.map entry).lookup name := by
        simp only [List.map_cons, List.lookup, entry, differ]
      rw [skipped, passed]
      exact ih

/-- What the units of a group are compiled against. -/
structure Declares (units : List ParsedUnit) (natives : List (String × Option Nat)) (env : Environment) : Prop where
  functions : ∀ name, env.function? name = (Evaluation.function? units name).map fun found => (entry found).2
  globals : env.globals = (globalsOf units).reverse
  natives : env.natives = natives

theorem parseAll_declares {group : String} {natives : List (String × Option Nat)} {brackets : List BracketHandler}
    {inputs : List Input} {units : List ParsedUnit} {env : Environment}
    (parsed : (Environment.initial group natives brackets).parseAll inputs = (units, env)) :
    Declares units natives env := by
  have declared := parseAll_env parsed
  rw [declareUnits] at declared
  subst declared
  refine ⟨fun name => ?_, by simp [initial], rfl⟩
  simp only [Evaluation.function?, Environment.function?, initial, List.append_nil, ← List.map_reverse]
  exact lookup_entries _ name

end Environment

end Script

namespace Compile

theorem mapM_eq_ok {ε α β : Type} {f : α → Except ε β} {list : List α} {made : List β}
    (mapped : list.mapM f = .ok made) : List.Forall₂ (fun a b => f a = .ok b) list made := by
  induction list generalizing made with
  | nil =>
    rw [List.mapM_nil] at mapped
    cases mapped
    exact .nil
  | cons a list ih =>
    rw [List.mapM_cons] at mapped
    obtain ⟨b, first, rest⟩ := except_bind_eq_ok.mp mapped
    obtain ⟨others, remaining, same⟩ := except_bind_eq_ok.mp rest
    cases same
    exact .cons first (ih remaining)

theorem mapM_mem {ε α β : Type} {f : α → Except ε β} {list : List α} {made : List β} (mapped : list.mapM f = .ok made)
    {b : β} (member : b ∈ made) : ∃ a ∈ list, f a = .ok b := by
  have all := mapM_eq_ok mapped
  clear mapped
  induction all with
  | nil => cases member
  | @cons a first list made here _ ih =>
    obtain rfl | later := List.mem_cons.mp member
    · exact ⟨a, List.mem_cons_self, here⟩
    · obtain ⟨other, found, same⟩ := ih later
      exact ⟨other, List.mem_cons_of_mem _ found, same⟩

/-- The program that a group compiles to. -/
def program (env : Environment) (debug : Bool) (units : List ParsedUnit) : Except CompileError Program := do
  let initials ← compileInitials env debug units
  let compiled ← units.mapM (compileUnit env debug)
  return ⟨entryPoint env debug units, initials, compiled, linkFunctions compiled⟩

/-- Stores compiled units, each under the name of its artifact. -/
def store (artifacts : ArtifactSet) : List (ParsedUnit × CompiledUnit) → ArtifactSet
  | [] => artifacts
  | (parsed, compiled) :: rest => store (artifacts.insert parsed.artifact compiled.payload) rest

/-- Artifacts with those of a program: its initial values, its units, and last its entry point. -/
def emitted (artifacts : ArtifactSet) (units : List ParsedUnit) (made : Program) : ArtifactSet :=
  (store (artifacts.insert initArtifact (Bytecode.initialsPayload made.initials)) (units.zip made.units)).insert
    mainArtifact made.entry.payload

section
variable {env : Environment} {debug : Bool} {units : List ParsedUnit} {artifacts : ArtifactSet}

theorem storeUnits_ok {compiled : List CompiledUnit} (made : units.mapM (compileUnit env debug) = .ok compiled) :
    storeUnits env debug artifacts units = ⟨.ok (), store artifacts (units.zip compiled)⟩ := by
  induction units generalizing artifacts compiled with
  | nil =>
    rw [List.mapM_nil] at made
    cases made
    rfl
  | cons parsed units ih =>
    rw [List.mapM_cons] at made
    obtain ⟨first, here, rest⟩ := except_bind_eq_ok.mp made
    obtain ⟨others, remaining, same⟩ := except_bind_eq_ok.mp rest
    cases same
    rw [storeUnits, here]
    exact ih remaining

theorem storeUnits_error {error : CompileError} (failed : units.mapM (compileUnit env debug) = .error error) :
    (storeUnits env debug artifacts units).result = .error error := by
  induction units generalizing artifacts with
  | nil => cases failed
  | cons parsed units ih =>
    rw [List.mapM_cons] at failed
    rw [storeUnits]
    cases here : compileUnit env debug parsed with
    | error first =>
      rw [here] at failed
      cases failed
      rfl
    | ok compiled =>
      rw [here] at failed
      cases rest : units.mapM (compileUnit env debug) with
      | error last =>
        rw [rest] at failed
        cases failed
        exact ih rest
      | ok others =>
        rw [rest] at failed
        cases failed

/-- What a group that compiles leaves in its artifacts. -/
theorem compileGroup_ok {made : Program} (compiled : program env debug units = .ok made) :
    compileGroup env debug units artifacts = ⟨.ok (), emitted artifacts units made⟩ := by
  obtain ⟨initials, first, rest⟩ := except_bind_eq_ok.mp compiled
  obtain ⟨stored, second, same⟩ := except_bind_eq_ok.mp rest
  cases same
  simp only [compileGroup, first, storeUnits_ok second, emitted]

/-- A group compiles when there is a program of it. -/
theorem compileGroup_result :
    (compileGroup env debug units artifacts).result = .ok () ↔ ∃ made, program env debug units = .ok made := by
  constructor
  · intro succeeded
    unfold compileGroup at succeeded
    unfold program
    cases first : compileInitials env debug units with
    | error error => simp [first] at succeeded
    | ok initials =>
      cases second : units.mapM (compileUnit env debug) with
      | error error => simp [first, storeUnits_error second] at succeeded
      | ok compiled => exact ⟨_, rfl⟩
  · rintro ⟨made, compiled⟩
    rw [compileGroup_ok compiled]

/-- The functions of compiled units, in the order of their declarations. -/
def linkedOf (units : List CompiledUnit) : List LinkedFunction :=
  units.flatMap fun compiled => compiled.functions.map fun function => ⟨compiled.source, function⟩

theorem linkFunctions_eq (units : List CompiledUnit) : linkFunctions units =
    (linkedOf units).foldl (fun functions linked => functions.insert linked.function.name linked) ∅ := by
  simp only [linkFunctions, linkedOf, List.foldl_flatMap, List.foldl_map]

theorem getElem?_insertAll (linked : List LinkedFunction) (functions : Std.HashMap String LinkedFunction) (name : String) :
    (linked.foldl (fun functions linked => functions.insert linked.function.name linked) functions)[name]? =
      (linked.reverse.find? fun linked => linked.function.name == name).or functions[name]? := by
  induction linked generalizing functions with
  | nil => simp
  | cons first linked ih =>
    rw [List.foldl_cons, ih, List.reverse_cons, List.find?_append, Option.or_assoc, Std.HashMap.getElem?_insert]
    congr 1
    by_cases same : first.function.name = name
    · simp [same]
    · simp [same]

/-- A function of the units and what it is compiled to. -/
def Compiles (env : Environment) (debug : Bool) (found : String × FunctionDecl) (linked : LinkedFunction) : Prop :=
  linked.unit = found.1 ∧ function ⟨found.1, env⟩ debug found.2 = .ok linked.function

theorem Compiles.name {found : String × FunctionDecl} {linked : LinkedFunction} (compiles : Compiles env debug found linked) :
    linked.function.name = found.2.name := by
  obtain ⟨chunk, -, same⟩ := except_bind_eq_ok.mp compiles.2
  rw [← Except.ok.inj same]

private theorem linkedOf_compiles {compiled : List CompiledUnit}
    (made : List.Forall₂ (fun parsed compiled => compileUnit env debug parsed = .ok compiled) units compiled) :
    List.Forall₂ (Compiles env debug) (functionsOf units) (linkedOf compiled) := by
  induction made with
  | nil => exact .nil
  | cons first _ ih =>
    obtain ⟨functions, mapped, rest⟩ := except_bind_eq_ok.mp first
    obtain ⟨main, -, same⟩ := except_bind_eq_ok.mp rest
    cases same
    refine List.rel_append ?_ ih
    rw [List.forall₂_map_left_iff, List.forall₂_map_right_iff]
    exact (mapM_eq_ok mapped).imp (fun _ _ here => ⟨rfl, here⟩)

private theorem find?_forall₂ {α β : Type} {related : α → β → Prop} {p : α → Bool} {q : β → Bool} {as : List α} {bs : List β}
    (all : List.Forall₂ related as bs) (same : ∀ a b, related a b → p a = q b) :
    (as.find? p = none ∧ bs.find? q = none) ∨ ∃ a b, as.find? p = some a ∧ bs.find? q = some b ∧ related a b := by
  induction all with
  | nil => exact .inl ⟨rfl, rfl⟩
  | @cons a b as bs first _ ih =>
    cases here : p a with
    | true => exact .inr ⟨a, b, List.find?_cons_of_pos here, List.find?_cons_of_pos (same a b first ▸ here), first⟩
    | false =>
      have hereToo : ¬ q b = true := by simp [← same a b first, here]
      rw [List.find?_cons_of_neg (by simp [here]), List.find?_cons_of_neg hereToo]
      exact ih

/-- The functions of a program are the compiled functions of the units, each under its name. -/
theorem linkFunctions_compiles {compiled : List CompiledUnit} (made : units.mapM (compileUnit env debug) = .ok compiled)
    (name : String) :
    (Evaluation.function? units name = none ∧ (linkFunctions compiled)[name]? = none) ∨
      ∃ found linked, Evaluation.function? units name = some found ∧ (linkFunctions compiled)[name]? = some linked ∧
        Compiles env debug found linked := by
  have all := List.forall₂_reverse_iff.mpr (linkedOf_compiles (mapM_eq_ok made))
  have looked : (linkFunctions compiled)[name]? =
      (linkedOf compiled).reverse.find? fun linked => linked.function.name == name := by
    rw [linkFunctions_eq, getElem?_insertAll]
    simp
  rw [looked]
  exact find?_forall₂ all (fun found linked compiles => by rw [compiles.name])

end

end Compile

end Scriptorium
