import Scriptorium.Files.Path

/-!
# The command line

Options are given by a long name behind two dashes, or by a letter behind one dash; letters may stand
together. The value of an option follows it, as the next argument or after `=`; behind a letter the `=`
may be missing. Arguments are read in order, and the first that asks for the version or for help, or
that makes no sense, decides.
-/
namespace Scriptorium

open Files (Path)

/-- What the command line sets. -/
structure CommandOptions where
  config : Option Path
  scripts : List Path
  noExecute : Bool
  debug : Bool
  ignoreBracketErrors : List String
  loader : Option String
deriving DecidableEq, Repr

/-- Nothing is set. -/
def CommandOptions.initial : CommandOptions := ⟨none, [], false, false, [], none⟩

/-- The options that take a value. -/
inductive ValueOption
  | config
  | scripts
  | ignoreBracketErrors
  | loader
deriving DecidableEq, Repr

/-- The options that take none. -/
inductive FlagOption
  | noExecute
  | debug
  | version
  | help
deriving DecidableEq, Repr

/-- An option. -/
inductive CommandOption
  | flag (flag : FlagOption)
  | valued (option : ValueOption)
deriving DecidableEq, Repr

/-- The option of a long name. -/
def CommandOption.ofName? : String → Option CommandOption
  | "config" => some (.valued .config)
  | "scripts" => some (.valued .scripts)
  | "no-execute" => some (.flag .noExecute)
  | "debug" => some (.flag .debug)
  | "ignore-bracket-errors" => some (.valued .ignoreBracketErrors)
  | "loader" => some (.valued .loader)
  | "help" => some (.flag .help)
  | "version" => some (.flag .version)
  | _ => none

/-- The option of a letter. -/
def CommandOption.ofLetter? : Char → Option CommandOption
  | 'c' => some (.valued .config)
  | 's' => some (.valued .scripts)
  | 'd' => some (.flag .debug)
  | 'h' => some (.flag .help)
  | 'V' => some (.flag .version)
  | _ => none

/-- Why a command line makes no sense. -/
inductive UsageError
  | unexpected (argument : String)
  | needlessValue (argument : String)
  | missingValue
  | emptyValue
  | repeated
deriving DecidableEq, Repr

/-- The wording of an error. -/
def UsageError.message : UsageError → String
  | unexpected argument => s!"error: unexpected argument {argument}"
  | needlessValue argument => s!"error: unexpected value in {argument}"
  | missingValue => "error: a value is required"
  | emptyValue => "error: a path cannot be empty"
  | repeated => "error: an option cannot be used more than once"

/-- What a command line asks for. -/
inductive Command
  | run (options : CommandOptions)
  | version
  | help
  | misused (error : UsageError)
deriving DecidableEq, Repr

namespace CommandOptions

/-- The options with the value of one more. -/
def set (options : CommandOptions) (option : ValueOption) (value : String) :
    Except UsageError CommandOptions :=
  match option with
  | .config =>
    if value.isEmpty then .error .emptyValue
    else if options.config.isSome then .error .repeated
    else .ok { options with config := value }
  | .scripts =>
    if value.isEmpty then .error .emptyValue
    else .ok { options with scripts := options.scripts ++ [value] }
  | .ignoreBracketErrors =>
    .ok { options with ignoreBracketErrors := options.ignoreBracketErrors ++ [value] }
  | .loader =>
    if options.loader.isSome then .error .repeated else .ok { options with loader := value }

/-- The options with one more flag, unless the flag is a command of its own. -/
def raise (options : CommandOptions) : FlagOption → Except Command CommandOptions
  | .noExecute =>
    if options.noExecute then .error (.misused .repeated) else .ok { options with noExecute := true }
  | .debug => if options.debug then .error (.misused .repeated) else .ok { options with debug := true }
  | .version => .error .version
  | .help => .error .help

end CommandOptions

/-- An argument by its form. -/
inductive Argument
  /-- Two dashes alone: no option follows them. -/
  | escape
  | long (name : String) (value : Option String)
  | letters (letters : List Char)
  | plain
deriving DecidableEq, Repr

/-- The form of an argument. A dash alone begins no option. -/
def Argument.ofString (argument : String) : Argument :=
  match argument.toList with
  | ['-', '-'] => .escape
  | '-' :: '-' :: rest =>
    let name := String.ofList (rest.takeWhile (· ≠ '='))
    match rest.dropWhile (· ≠ '=') with
    | [] => .long name none
    | _ :: value => .long name (some (String.ofList value))
  | '-' :: c :: rest => .letters (c :: rest)
  | _ => .plain

/-- Where reading stands: options may follow; an option waits for its value; nothing may follow; or the
command is known. -/
inductive ArgumentReading
  | going (options : CommandOptions)
  | waiting (options : CommandOptions) (option : ValueOption)
  | closed (options : CommandOptions)
  | decided (command : Command)
deriving DecidableEq, Repr

namespace ArgumentReading

/-- Reading has come to an error. -/
def refused (error : UsageError) : ArgumentReading := decided (.misused error)

/-- Reading goes on after an option with a value. -/
def afterValue (options : CommandOptions) (option : ValueOption) (value : String) : ArgumentReading :=
  match options.set option value with
  | .ok options => going options
  | .error error => refused error

/-- Reads letters that stand together. What stands behind an option with a value is this value. -/
def ofLetters (options : CommandOptions) : List Char → ArgumentReading
  | [] => going options
  | c :: rest =>
    match CommandOption.ofLetter? c with
    | none => refused (.unexpected (String.ofList ['-', c]))
    | some (.flag flag) =>
      match options.raise flag with
      | .ok options => ofLetters options rest
      | .error command => decided command
    | some (.valued option) =>
      match rest with
      | [] => waiting options option
      | '=' :: value => afterValue options option (String.ofList value)
      | value => afterValue options option (String.ofList value)

/-- Reads a long name, maybe with a value. -/
def ofLong (options : CommandOptions) (name : String) (value : Option String) : ArgumentReading :=
  match CommandOption.ofName? name, value with
  | none, _ => refused (.unexpected name)
  | some (.flag _), some _ => refused (.needlessValue name)
  | some (.flag flag), none =>
    match options.raise flag with
    | .ok options => going options
    | .error command => decided command
  | some (.valued option), some value => afterValue options option value
  | some (.valued option), none => waiting options option

/-- Reads one more argument. -/
def next (reading : ArgumentReading) (argument : String) : ArgumentReading :=
  match reading, Argument.ofString argument with
  | decided command, _ => decided command
  | closed _, _ => refused (.unexpected argument)
  | waiting options option, .plain => afterValue options option argument
  | waiting _ _, _ => refused .missingValue
  | going _, .plain => refused (.unexpected argument)
  | going options, .escape => closed options
  | going options, .long name value => ofLong options name value
  | going options, .letters cs => ofLetters options cs

/-- The command when no argument is left. -/
def command : ArgumentReading → Command
  | going options => .run options
  | closed options => .run options
  | waiting _ _ => .misused .missingValue
  | decided command => command

end ArgumentReading

/-- What the arguments of a command line ask for. -/
def Command.ofArguments (arguments : List String) : Command :=
  (arguments.foldl ArgumentReading.next (.going .initial)).command

end Scriptorium
