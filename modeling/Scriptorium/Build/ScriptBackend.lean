import Scriptorium.Build.Pipeline
import Scriptorium.Compile.Group
import Scriptorium.Machine.Run
import Scriptorium.Script.Parser
import Scriptorium.ScriptError

/-!
# The backend of the script language

Parses, compiles and runs units of the script language, with the natives and the bracket handlers of
the host.
-/
namespace Scriptorium.Build

open Script (BracketHandler Environment ParsedUnit)

/-- The parts of a backend. The body of a unit that takes more than `steps` steps has no answer. -/
structure ScriptHost (σ : Type) where
  natives : Natives (Host σ)
  brackets : List BracketHandler
  steps : Nat

/-- The parts where the host adds nothing: the natives of every host, and the namespaces that are always
known. -/
def ScriptHost.standard {σ : Type} (steps : Nat) : ScriptHost σ :=
  ⟨Natives.standard, BracketHandler.defaultNamespaces.map BracketHandler.ofNamespace, steps⟩

/-- How ignored faults of brackets are reported. -/
def warningEvents (unit : String) (warnings : List Script.BracketWarning) : List LogEvent :=
  warnings.map fun warning => ⟨.warn, .script, warning.message unit⟩

/-- How a compiled group is reported. -/
def compiledMessage (env : Environment) (artifacts : ArtifactSet) : String :=
  s!"Compiled {env.group} ({env.globals.length} globals, {env.functions.length} functions) into " ++
    s!"{artifacts.size} artifacts, {artifacts.payloadSize} bytes"

namespace ScriptHost

variable {σ : Type} (parts : ScriptHost σ)

/-- Parses a unit. -/
def parse (request : ParseRequest) (env : Environment) (host : Host σ) :
    Attempt FrontError ParsedUnit × Environment × Host σ :=
  match request.stream with
  | .error error => (.refused (.io error), env, host)
  | .ok bytes =>
    match env.parseBytes bytes request.unit request.artifact request.tolerant with
    | none => (.refused (.io .notText), env, host)
    | some parsed =>
      let host := host.reportAll (warningEvents request.unit parsed.warnings)
      match parsed.result with
      | .ok unit => (.returned unit, parsed.env, host)
      | .error error =>
        (.refused (.parse request.unit error.line error.cause.message), parsed.env, host)

/-- Compiles a group. -/
def compile (units : List ParsedUnit) (env : Environment) (debug : Bool) (host : Host σ) :
    Attempt String ArtifactSet × Host σ :=
  let compiled := Compile.compileGroup env debug units ∅
  match compiled.result with
  | .error error => (.refused (ScriptError.compile error).message, host)
  | .ok () =>
    (.returned compiled.artifacts, host.report .debug .backend (compiledMessage env compiled.artifacts))

/-- Runs what was compiled. -/
def execute (artifacts : ArtifactSet) (host : Host σ) : Option (Attempt String Unit × Host σ) :=
  match Machine.Program.load artifacts with
  | .error error => some (.refused (ScriptError.load error).message, host)
  | .ok program =>
    (Machine.Memory.initial.run program parts.natives parts.steps host).map fun ended =>
      match ended.result with
      | .finished => (.returned (), ended.host)
      | .failed error => (.refused (ScriptError.run error).message, ended.host)
      | .panicked panic => (.panicked panic, ended.host)

/-- The backend of these parts. -/
def backend : Backend (Host σ) where
  Environment := Environment
  Parsed := ParsedUnit
  newEnvironment group host := (.ok (.initial group parts.natives.signatures parts.brackets), host)
  parse := parse
  compile := compile
  execute := parts.execute

end ScriptHost

end Scriptorium.Build
