import Scriptorium.Build.Settings
import Scriptorium.Files.Tree
import Scriptorium.Log
import Scriptorium.Script.Environment
import Scriptorium.Text.Blank

/-!
# Configuration

The configuration is a text of lines `key = value`; blank lines and lines that begin with `#` are
comments, and lines without `=` say nothing. Of several lines for one key the last counts. What an
unusable value means is reported.
-/
namespace Scriptorium

open Build (Settings)
open Files (Entries ReadError)
open Text (trim splitAt)

/-- A configuration. -/
structure Config where
  scriptDirectories : List String
  execute : Bool
  debug : Bool
  ignoreBracketErrors : List String
  bracketNamespaces : List String
  loader : String
  logLevel : String
deriving DecidableEq, Repr

namespace Config

/-- The loader where none is configured. -/
def defaultLoader : String := "tweaker"

/-- What holds where nothing is configured. -/
def default : Config where
  scriptDirectories := ["scripts"]
  execute := true
  debug := false
  ignoreBracketErrors := []
  bracketNamespaces := Script.BracketHandler.defaultNamespaces
  loader := defaultLoader
  logLevel := "info"

/-- What a line can set. -/
inductive Key
  | scriptDirectories
  | execute
  | debug
  | ignoreBracketErrors
  | bracketNamespaces
  | loader
  | logLevel
deriving DecidableEq, Repr

/-- The key of a name, in letters of any case. -/
def Key.ofName? (name : String) : Option Key :=
  match (name.map Char.toLower) with
  | "scriptsdir" => some .scriptDirectories
  | "execute" => some .execute
  | "debug" => some .debug
  | "ignorebracketerrors" => some .ignoreBracketErrors
  | "brackets" => some .bracketNamespaces
  | "loader" => some .loader
  | "loglevel" => some .logLevel
  | _ => none

/-- The items between commas, trimmed, without the empty ones. -/
def items (value : String) : List String :=
  ((splitAt ',' value.toList).map fun item => String.ofList (trim item)).filter (· ≠ "")

/-- The truth value of a word, in letters of any case. -/
def truth? (word : String) : Option Bool :=
  match (word.map Char.toLower) with
  | "true" | "yes" | "on" | "1" => some true
  | "false" | "no" | "off" | "0" => some false
  | _ => none

/-- A line that says something: the name before the first `=` and the value after it, trimmed. -/
structure Setting where
  name : String
  value : String
deriving DecidableEq, Repr

/-- What a line says, if it does. -/
def Setting.ofLine? (line : List Char) : Option Setting :=
  match trim line with
  | [] => none
  | c :: rest =>
    let chars := c :: rest
    if c = '#' ∨ '=' ∉ chars then none
    else
      some ⟨String.ofList (trim (chars.takeWhile (· ≠ '='))),
        String.ofList (trim ((chars.dropWhile (· ≠ '=')).drop 1))⟩

/-- The report of a value that is no truth value. -/
def Setting.invalid (setting : Setting) (otherwise : Bool) : LogEvent :=
  ⟨.warn, .config, s!"Invalid value for {setting.name}: {setting.value} (using {otherwise})"⟩

/-- The report of a line that sets nothing. -/
def Setting.unknown (setting : Setting) : LogEvent :=
  ⟨.debug, .config, s!"Unknown config option: {setting.name} = {setting.value}"⟩

/-- The truth value that a line sets, and what there is to report. -/
def Setting.truth (setting : Setting) (otherwise : Bool) : Bool × List LogEvent :=
  match truth? setting.value with
  | some b => (b, [])
  | none => (otherwise, [setting.invalid otherwise])

/-- The configuration after a line, and what there is to report. A truth value that is none sets the
default; an empty loader or log level sets nothing. -/
def apply (config : Config) (setting : Setting) : Config × List LogEvent :=
  match Key.ofName? setting.name with
  | some .scriptDirectories => ({ config with scriptDirectories := items setting.value }, [])
  | some .execute =>
    let (execute, events) := setting.truth default.execute
    ({ config with execute }, events)
  | some .debug =>
    let (debug, events) := setting.truth default.debug
    ({ config with debug }, events)
  | some .ignoreBracketErrors => ({ config with ignoreBracketErrors := items setting.value }, [])
  | some .bracketNamespaces => ({ config with bracketNamespaces := items setting.value }, [])
  | some .loader =>
    if setting.value.isEmpty then (config, [setting.unknown])
    else ({ config with loader := setting.value }, [])
  | some .logLevel =>
    if setting.value.isEmpty then (config, [setting.unknown])
    else ({ config with logLevel := setting.value }, [])
  | none => (config, [setting.unknown])

/-- The configuration of a text, and what there is to report. -/
def parse (text : String) : Config × List LogEvent :=
  ((Text.lines text.toList).filterMap Setting.ofLine?).foldl (fun (config, events) setting =>
    let (config, more) := config.apply setting
    (config, events ++ more)) (default, [])

/-- Where the configuration is kept. -/
def defaultFile : String := "tweaker.cfg"

/-- The wording of a failure to read a configuration. -/
def readFailure (path : String) (error : ReadError) : String :=
  s!"Configuration error: could not read {path}: {error.message}"

/-- The configuration of a file, and what there is to report. -/
def load (files : Entries) (path : String) : Except String (Config × List LogEvent) :=
  match Files.readText files path with
  | .ok text => .ok (parse text)
  | .error error => .error (readFailure path error)

/-- The configuration of the file where it is kept, or the default when there is none. -/
def loadDefault (files : Entries) : Except String (Config × List LogEvent) :=
  if Files.pathExists files defaultFile then load files defaultFile else .ok (default, [])

/-- The build settings of a configuration. -/
def buildSettings (config : Config) : Settings :=
  let settings := if config.debug then Settings.initial.enableDebug else Settings.initial
  config.ignoreBracketErrors.foldl Settings.suppress settings

/-- The lines of a summary. -/
def summary (config : Config) : List String :=
  ["Tweaker configuration:"] ++
    config.scriptDirectories.map (fun directory => s!"  Scripts: {directory}") ++
    [s!"  Execute: {config.execute}", s!"  Debug: {config.debug}", s!"  Loader: {config.loader}",
      "  Bracket namespaces: " ++ ", ".intercalate config.bracketNamespaces] ++
    if config.ignoreBracketErrors.isEmpty then []
    else ["  Ignoring bracket errors in: " ++ ", ".intercalate config.ignoreBracketErrors]

/-- A summary of a configuration, as it is reported. -/
def summaryEvents (config : Config) : List LogEvent :=
  config.summary.map fun line => ⟨.info, .config, line⟩

end Config

end Scriptorium
