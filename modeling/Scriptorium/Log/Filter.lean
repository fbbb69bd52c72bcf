import Scriptorium.Log
import Scriptorium.Text.Blank

/-!
# Log filters

A filter says how much of the log is shown. It is written as rules between commas: a level, for every
part of the program; `target=level`, for the parts whose names begin with the target; or a target alone,
for all that these parts report. No blanks stand around commas or equals signs. Of the rules for a part,
the one with the longest target decides, and of several with one target the last.
-/
namespace Scriptorium

open Text (equalsIgnoringCase isBlank splitAt trimStart)

/-- A rule: events of the parts whose names begin with the target are shown up to a rank. The empty target
stands for every part. -/
structure LogRule where
  target : List Char
  rank : Nat
deriving DecidableEq, Repr

/-- A filter. -/
abbrev LogFilter := List LogRule

/-- The rank of a level that is given as a number. -/
def rankOfNumber? (s : List Char) : Option Nat :=
  let digits := match s with
    | '+' :: rest => rest
    | s => s
  if digits.isEmpty || !digits.all Char.isDigit then none
  else
    let n := digits.foldl (fun n d => 10 * n + (d.toNat - '0'.toNat)) 0
    if n ≤ LogLevel.trace.rank then some n else none

/-- The levels. -/
def LogLevel.all : List LogLevel := [.error, .warn, .info, .debug, .trace]

/-- The rank up to which a level shows events: the level is a name in letters of any case, `off`, or a
number. -/
def rankOfLevel? (s : List Char) : Option Nat :=
  if equalsIgnoringCase s "off".toList then some 0
  else
    match LogLevel.all.find? fun level => equalsIgnoringCase s level.name.toList with
    | some level => some level.rank
    | none => rankOfNumber? s

/-- Whether a rule may begin with a character. -/
def isRuleStart (c : Char) : Bool := Text.isWordChar c || c == '-' || c == ':' || 0x7F < c.toNat

/-- The rule that a text is. A target without a level shows all that its parts report. Blanks are part of the
target or the level that they touch: a level with blanks is none, and a target with blanks begins no part's
name. With blanks in front of it, `target=level` is no rule. -/
def LogRule.ofText? (s : List Char) : Option LogRule :=
  if (trimStart s).head?.any isRuleStart then
    match s.dropWhile (· ≠ '=') with
    | [] =>
      match rankOfLevel? s with
      | some rank => some ⟨[], rank⟩
      | none => some ⟨s, LogLevel.trace.rank⟩
    | _ :: level =>
      let target := s.takeWhile (· ≠ '=')
      if s.head?.any isBlank then none
      else if level.isEmpty then some ⟨target, LogLevel.trace.rank⟩
      else (rankOfLevel? level).map fun rank => ⟨target, rank⟩
  else none

namespace LogFilter

/-- What a text says: a filter, and the pieces that are no rules. Without any rule only errors are
shown. -/
def parse (text : String) : LogFilter × List String :=
  let pieces := (splitAt ',' text.toList).filter fun piece => !piece.isEmpty
  let rules := pieces.filterMap LogRule.ofText?
  let others := pieces.filter fun piece => (LogRule.ofText? piece).isNone
  (if rules.isEmpty then [⟨[], LogLevel.error.rank⟩] else rules, others.map String.ofList)

/-- The rule that decides on a part: the last of those with the longest target. -/
def rule? (filter : LogFilter) (target : LogTarget) : Option LogRule :=
  (filter.filter fun rule => rule.target.isPrefixOf target.name.toList).foldl (fun best rule =>
    match best with
    | some other => if other.target.length ≤ rule.target.length then some rule else some other
    | none => some rule) none

/-- Whether an event is shown. -/
def shows (filter : LogFilter) (event : LogEvent) : Bool :=
  match filter.rule? event.target with
  | some rule => event.level.rank ≤ rule.rank
  | none => false

/-- How a piece is reported that is no rule. -/
def ignoredMessage (piece : String) : String :=
  "ignoring `" ++ piece ++ "`: invalid filter directive"

end LogFilter

end Scriptorium
