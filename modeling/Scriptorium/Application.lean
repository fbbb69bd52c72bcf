import Scriptorium.Build.ScriptBackend
import Scriptorium.CommandLine
import Scriptorium.Config
import Scriptorium.Content
import Scriptorium.Log.Filter

/-!
# The application

Builds and runs the scripts below the directories that the configuration or the command line names.
Scripts may print, and define and remove content. The outcome depends on the arguments and the files
alone.
-/
namespace Scriptorium

open Build (Pipeline Preprocessor ScriptHost Settings Source)
open Files (Entries)

/-- What the application leaves behind. -/
structure Outcome where
  exitCode : UInt8
  /-- Lines of standard output that are not of the log. -/
  output : List String
  /-- The events of the log that the filter lets through. -/
  log : List LogEvent
  /-- Lines of standard error. -/
  errors : List String
deriving DecidableEq, Repr

namespace Application

/-- The name and version of the application. -/
def versionLine : String := "tweaker 0.1.0"

/-- What is printed on request for help. -/
def helpLines : List String :=
  ["Build and run tweaker script groups", "", "Usage: tweaker [OPTIONS]", "", "Options:",
    "  -c, --config <CONFIG>               Configuration file (defaults to ./tweaker.cfg when present)",
    "  -s, --scripts <DIR>                 Script directories, replacing the configured ones",
    "      --no-execute                    Compile without executing",
    "  -d, --debug                         Compile with debug information",
    "      --ignore-bracket-errors <UNIT>  Tolerate bracket errors in this unit (repeatable)",
    "      --loader <LOADER>               Loader name matched against `#loader` directives",
    "  -h, --help                          Print help",
    "  -V, --version                       Print version"]

/-- The exit code of a run in which something failed. -/
def failureCode : UInt8 := 1

/-- The exit code of a command line that makes no sense. -/
def usageCode : UInt8 := 2

/-- The exit code of a panic that nothing catches. -/
def panicCode : UInt8 := 101

/-- How a failure of the whole run is worded. -/
def errorLine (message : String) : String := s!"Error: {message}"

/-- The configuration that the options ask for. -/
def loadConfig (files : Entries) (options : CommandOptions) : Except String Config :=
  match options.config with
  | some path => (Config.load files path).map Prod.fst
  | none => (Config.loadDefault files).map Prod.fst

/-- The build settings: those of the configuration, and what the options add. -/
def settings (config : Config) (options : CommandOptions) : Settings :=
  let settings := config.buildSettings
  let settings := if options.debug then settings.enableDebug else settings
  options.ignoreBracketErrors.foldl Settings.suppress settings

/-- The natives that scripts can call. -/
def natives : Natives (Host ContentStore) := ContentStore.register Natives.standard

/-- The pipeline of a run. The body of a unit that takes more than `steps` steps has no answer. -/
def pipeline (config : Config) (options : CommandOptions) (steps : Nat) : Pipeline ContentStore where
  backend :=
    let brackets := config.bracketNamespaces.map Script.BracketHandler.ofNamespace
    (ScriptHost.mk natives brackets steps).backend
  preprocessor := Preprocessor.directives
  settings := settings config options
  loader := options.loader.getD config.loader

/-- The scripts of a run. The directories of the options stand in the place of those of the
configuration. -/
def source (files : Entries) (config : Config) (options : CommandOptions) :
    Source (Host ContentStore) :=
  let directories := if options.scripts.isEmpty then config.scriptDirectories else options.scripts
  .cascade (directories.map (Source.directory files))

/-- The journal of the content, as it is reported after a run. -/
def journal (host : Host ContentStore) : List LogEvent :=
  let changes := host.descriptions.map fun description => s!"Applied: {description}"
  let size := if host.state.isEmpty then [] else [s!"{host.state.size} content entries defined"]
  (changes ++ size).map fun message => ⟨.info, .application, message⟩

/-- A run with a configuration. Absent when a unit takes too long for an answer. -/
def runWith (files : Entries) (config : Config) (options : CommandOptions) (steps : Nat) :
    Option Outcome :=
  let (filter, others) := LogFilter.parse config.logLevel
  let ignored := others.map LogFilter.ignoredMessage
  let host := (Host.initial (∅ : ContentStore)).reportAll config.summaryEvents
  let shown (events : List LogEvent) := events.filter filter.shows
  let execute := config.execute && !options.noExecute
  match (pipeline config options steps).run (source files config options) execute host with
  | .reported report host =>
    some ⟨if report.success then 0 else failureCode, [], shown (host.log.toList ++ journal host), ignored⟩
  | .sourceFailed message host =>
    some ⟨failureCode, [], shown host.log.toList, ignored ++ [errorLine message]⟩
  | .escaped _ host => some ⟨panicCode, [], shown host.log.toList, ignored⟩
  | .unfinished => none

/-- The outcome of a command line. Absent when a unit takes too long for an answer. -/
def run (files : Entries) (arguments : List String) (steps : Nat) : Option Outcome :=
  match Command.ofArguments arguments with
  | .misused error => some ⟨usageCode, [], [], [error.message]⟩
  | .version => some ⟨0, [versionLine], [], []⟩
  | .help => some ⟨0, helpLines, [], []⟩
  | .run options =>
    match loadConfig files options with
    | .error message => some ⟨failureCode, [], [], [errorLine message]⟩
    | .ok config => runWith files config options steps

end Application

end Scriptorium
