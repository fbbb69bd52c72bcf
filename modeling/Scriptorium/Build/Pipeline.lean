import Scriptorium.Artifact
import Scriptorium.Build.Directives
import Scriptorium.Build.Report
import Scriptorium.Build.Settings
import Scriptorium.Build.Source
import Scriptorium.Host

/-!
# The pipeline

A run takes the groups of a source one after the other: scans and parses their units, compiles them,
and executes what was compiled. What fails is reported with the unit or group that it belongs to, and
the run goes on with the next one. Of several groups of one name only the first counts.

How scripts are scanned, parsed, compiled and executed is left to a preprocessor and a backend, which
may refuse and panic, and change the host.
-/
namespace Scriptorium.Build

open Files (ReadError)

/-- Finds the directives of a unit in its content. -/
structure Preprocessor (η : Type) where
  scan : String → Stream → η → Attempt ScanError Directives × η

/-- Why a backend refuses a unit. -/
inductive FrontError
  | io (error : ReadError)
  | parse (file : String) (line : Nat) (explanation : String)
  | other (message : String)
deriving DecidableEq, Repr

/-- What a backend parses a unit with. -/
structure ParseRequest where
  stream : Stream
  unit : String
  artifact : String
  tolerant : Bool

/-- Parses, compiles and executes scripts. The units of a group share an environment, which parsing
changes, whether it succeeds or not. Executing may take too long for an answer. -/
structure Backend (η : Type) where
  Environment : Type
  Parsed : Type
  newEnvironment : String → η → Except Panic Environment × η
  parse : ParseRequest → Environment → η → Attempt FrontError Parsed × Environment × η
  compile : List Parsed → Environment → Bool → η → Attempt String ArtifactSet × η
  execute : ArtifactSet → η → Option (Attempt String Unit × η)

/-- A pipeline. -/
structure Pipeline (σ : Type) where
  backend : Backend (Host σ)
  preprocessor : Preprocessor (Host σ)
  settings : Settings
  loader : String

/-- Why a directive leaves a unit out. -/
inductive SkipReason
  | norun
  | otherLoader
deriving DecidableEq, Repr

/-- The wording of a reason. -/
def SkipReason.message : SkipReason → String
  | norun => "#norun"
  | otherLoader => "other loader"

/-- What becomes of a unit: it is parsed, and perhaps asks for debugging; or it is left out. -/
inductive UnitOutcome (α : Type)
  | parsed (parsed : α) (debug : Bool)
  | skipped (reason : SkipReason)

/-- How a panic is worded where it is caught. -/
def panicMessage (panic : Panic) : String :=
  match panic.text with
  | some text => s!"panicked: {text}"
  | none => "panicked"

/-- What an attempt gives for a unit: its value, or the error of the unit. -/
def forUnit {ε α : Type} (unit : String) (refusal : ε → UnitError) : Attempt ε α → Except UnitError α
  | .returned value => .ok value
  | .refused error => .error (refusal error)
  | .panicked panic => .error (.unclassified unit (panicMessage panic))

/-- The error of a unit that a backend refuses. -/
def FrontError.toUnitError (unit : String) : FrontError → UnitError
  | io error => .sourceIo unit error
  | parse file line explanation => .parse file line explanation
  | other message => .unclassified unit message

namespace Pipeline

variable {σ : Type} (pipeline : Pipeline σ)

/-- Opens a unit. -/
def openUnit (unit : ScriptUnit (Host σ)) (host : Host σ) : Except UnitError Stream × Host σ :=
  let (attempt, host) := unit.openStream host
  (forUnit unit.name (.sourceIo unit.name) attempt, host)

/-- Opens a unit and finds its directives. -/
def scanUnit (unit : ScriptUnit (Host σ)) (host : Host σ) : Except UnitError Directives × Host σ :=
  match openUnit unit host with
  | (.error error, host) => (.error error, host)
  | (.ok stream, host) =>
    let (attempt, host) := pipeline.preprocessor.scan unit.name stream host
    (forUnit unit.name (fun error => .unclassified unit.name error.message) attempt, host)

/-- Why the directives of a unit leave it out, if they do. -/
def skipReason? (directives : Directives) : Option SkipReason :=
  if directives.norun then some .norun
  else if !directives.runsUnder pipeline.loader then some .otherLoader
  else none

/-- Opens a unit and parses it. -/
def parseUnit (unit : ScriptUnit (Host σ)) (directives : Directives)
    (env : pipeline.backend.Environment) (host : Host σ) :
    Except UnitError pipeline.backend.Parsed × pipeline.backend.Environment × Host σ :=
  match openUnit unit host with
  | (.error error, host) => (.error error, env, host)
  | (.ok stream, host) =>
    let tolerant := directives.ignoreBracketErrors || pipeline.settings.suppresses unit.name
    let (attempt, env, host) :=
      pipeline.backend.parse ⟨stream, unit.name, artifactName unit.name, tolerant⟩ env host
    (forUnit unit.name (FrontError.toUnitError unit.name) attempt, env, host)

/-- Scans a unit, and parses it unless its directives leave it out. -/
def processUnit (unit : ScriptUnit (Host σ)) (env : pipeline.backend.Environment) (host : Host σ) :
    Except UnitError (UnitOutcome pipeline.backend.Parsed) × pipeline.backend.Environment × Host σ :=
  match pipeline.scanUnit unit host with
  | (.error error, host) => (.error error, env, host)
  | (.ok directives, host) =>
    match pipeline.skipReason? directives with
    | some reason => (.ok (.skipped reason), env, host)
    | none =>
      let (result, env, host) := pipeline.parseUnit unit directives env host
      (result.map fun parsed => .parsed parsed directives.debug, env, host)

/-- Where the work on a group stands: the units parsed so far, last first, whether debugging is wanted,
the environment, the report of the run, and the host. -/
structure Progress where
  parsed : List pipeline.backend.Parsed
  debug : Bool
  env : pipeline.backend.Environment
  report : Report
  host : Host σ

/-- Adds a failure to a report, and reports it. -/
def record (failure : Failure) (report : Report) (host : Host σ) : Report × Host σ :=
  (report.record failure,
    { host with log := host.log.push (Report.failureEvent failure) })

/-- The work on a group after one more unit. -/
def addUnit (progress : Progress pipeline) (unit : ScriptUnit (Host σ)) : Progress pipeline :=
  let (result, env, host) := pipeline.processUnit unit progress.env progress.host
  match result with
  | .ok (.parsed parsed debug) =>
    { parsed := parsed :: progress.parsed
      debug := progress.debug || debug
      env
      report := progress.report.countParsed
      host }
  | .ok (.skipped reason) =>
    { progress with
      env
      report := progress.report.countSkipped
      host := host.report .info .pipeline s!"Skipping {unit.name} ({reason.message})" }
  | .error error =>
    let (report, host) := record (.unit error) progress.report host
    { progress with env, report, host }

/-- What an attempt at a stage gives for a group: its value, or the error of the group. -/
def forGroup {α : Type} (group : String) (stage : Stage) : Attempt String α → Except GroupError α
  | .returned value => .ok value
  | .refused reason => .error ⟨group, stage, reason⟩
  | .panicked panic => .error ⟨group, stage, panicMessage panic⟩

/-- Compiles the units of a group, and executes them where this is wanted. -/
def compileAndExecute (group : String) (execute : Bool) (progress : Progress pipeline) :
    Option (Except GroupError Unit × Host σ) :=
  let (attempt, host) :=
    pipeline.backend.compile progress.parsed.reverse progress.env progress.debug progress.host
  match forGroup group .compile attempt with
  | .error error => some (.error error, host)
  | .ok artifacts =>
    if execute then
      (pipeline.backend.execute artifacts host).map fun (attempt, host) =>
        (forGroup group .execute attempt, host)
    else some (.ok (), host)

/-- How a run goes on after a group. -/
inductive Continuation (σ : Type)
  | going (report : Report) (host : Host σ)
  /-- A panic that nothing catches. -/
  | escaped (panic : Panic) (host : Host σ)
  /-- Executing takes too long for an answer. -/
  | unfinished

/-- Builds a group. -/
def buildGroup (group : ScriptGroup (Host σ)) (execute : Bool) (report : Report) (host : Host σ) :
    Continuation σ :=
  match pipeline.backend.newEnvironment group.name host with
  | (.error panic, host) => .escaped panic host
  | (.ok env, host) =>
    let progress := group.units.foldl (addUnit pipeline) ⟨[], pipeline.settings.debug, env, report, host⟩
    match pipeline.compileAndExecute group.name execute progress with
    | none => .unfinished
    | some (.ok (), host) => .going progress.report.countBuilt host
    | some (.error error, host) =>
      let (report, host) := record (.group error) progress.report host
      .going report host

/-- How the beginning of the work on a group is worded. -/
def loadingMessage (group : String) : String :=
  let chars := group.toList
  if Text.endsIgnoringCase ['.', 'z', 's'] chars then s!"Loading file {group}"
  else if Text.endsIgnoringCase ['.', 'z', 'i', 'p'] chars then s!"Loading zip {group}"
  else s!"Loading group {group}"

/-- Builds groups one after the other; `seen` holds the names of those before. -/
def buildGroups (execute : Bool) (seen : List String) (report : Report) (host : Host σ) :
    List (ScriptGroup (Host σ)) → Continuation σ
  | [] => .going report host
  | group :: groups =>
    if group.name ∈ seen then
      buildGroups execute seen report.countDuplicate
        (host.report .debug .pipeline s!"Skipping duplicate group {group.name}") groups
    else
      let host := host.report .info .pipeline (loadingMessage group.name)
      match pipeline.buildGroup group execute report host with
      | .going report host => buildGroups execute (group.name :: seen) report host groups
      | stopped => stopped

/-- How a run ends. -/
inductive RunOutcome (σ : Type)
  | reported (report : Report) (host : Host σ)
  /-- The groups of the source cannot be listed. -/
  | sourceFailed (message : String) (host : Host σ)
  | escaped (panic : Panic) (host : Host σ)
  | unfinished

/-- Builds every group of a source, and executes each where this is wanted. -/
def run (source : Source (Host σ)) (execute : Bool) (host : Host σ) : RunOutcome σ :=
  let host := host.reportAll source.groups.events
  match source.groups.result with
  | .error message => .sourceFailed message host
  | .ok groups =>
    match pipeline.buildGroups execute [] .empty host groups with
    | .going report host =>
      .reported report { host with log := host.log.push report.summaryEvent }
    | .escaped panic host => .escaped panic host
    | .unfinished => .unfinished

end Pipeline

/-- The preprocessor that knows the directives of the script language. -/
def Preprocessor.directives {σ : Type} : Preprocessor (Host σ) where
  scan unit stream host :=
    let (result, events) := Build.scan unit stream
    let host := host.reportAll events
    match result with
    | .ok directives => (.returned directives, host)
    | .error error => (.refused error, host)

end Scriptorium.Build
