/-!
# Log events

What the program reports while it works, in the order in which it happens. Every event has a level
and comes from one part of the program.
-/
namespace Scriptorium

/-- How much an event matters, most first. -/
inductive LogLevel
  | error
  | warn
  | info
  | debug
  | trace
deriving DecidableEq, Repr

/-- The rank of a level: a filter that lets a level through lets all smaller ranks through. -/
def LogLevel.rank : LogLevel → Nat
  | .error => 1
  | .warn => 2
  | .info => 3
  | .debug => 4
  | .trace => 5

/-- The name of a level in a log line. -/
def LogLevel.name : LogLevel → String
  | .error => "ERROR"
  | .warn => "WARN"
  | .info => "INFO"
  | .debug => "DEBUG"
  | .trace => "TRACE"

/-- The part of the program that an event comes from. -/
inductive LogTarget
  | application
  | config
  | source
  | directives
  | pipeline
  | backend
  | report
  | actions
  | script
deriving DecidableEq, Repr

/-- The name of a part in a log line. -/
def LogTarget.name : LogTarget → String
  | .application => "tweaker"
  | .config => "tweaker_config"
  | .source => "tweaker_runtime::source"
  | .directives => "tweaker_runtime::preprocessor"
  | .pipeline => "tweaker_runtime::tweaker"
  | .backend => "tweaker_runtime::script_backend"
  | .report => "tweaker_runtime::report"
  | .actions => "tweaker_core::actions"
  | .script => "scripting"

/-- Something reported. -/
structure LogEvent where
  level : LogLevel
  target : LogTarget
  message : String
deriving DecidableEq, Repr

/-- The lower-case hexadecimal digits of a character's code, at least two. -/
def codeDigits (c : Char) : String :=
  let digits := Nat.toDigits 16 c.toNat
  String.ofList (List.replicate (2 - digits.length) '0' ++ digits)

/-- A character as a log line shows it: those that could steer a terminal are spelled out. Line breaks and
tabs are kept. -/
def shownChar (c : Char) : String :=
  let n := c.toNat
  if n = 0x07 ∨ n = 0x08 ∨ n = 0x0C ∨ n = 0x1B ∨ n = 0x7F then "\\x" ++ codeDigits c
  else if 0x80 ≤ n ∧ n ≤ 0x9F then "\\u\x7b" ++ codeDigits c ++ "\x7d"
  else c.toString

/-- The message of an event as a log line shows it. -/
def LogEvent.shown (event : LogEvent) : String :=
  event.message.foldl (fun text c => text ++ shownChar c) ""

/-- The line of an event. Levels take five columns. -/
def LogEvent.line (event : LogEvent) : String :=
  let level := event.level.name
  let gap := String.ofList (List.replicate (5 - level.length) ' ')
  s!"{gap}{level} {event.target.name}: {event.shown}"

end Scriptorium
