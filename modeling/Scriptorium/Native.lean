import Scriptorium.Log
import Scriptorium.Value

/-!
# Natives

Functions that the host offers to scripts. A native sees its arguments and the state of the host,
which is a type of the application's choice, and may return a value, refuse with a message or panic,
as other calls into foreign code may too. A panic unwinds to the innermost place that catches it.
-/
namespace Scriptorium

/-- What a panic carries: a text, or something that is none. -/
structure Panic where
  text : Option String
deriving DecidableEq, Repr

/-- How a call of foreign code ends. -/
inductive Attempt (ε α : Type)
  | returned (value : α)
  | refused (error : ε)
  | panicked (panic : Panic)
deriving Repr

/-- How a call of a native ends: with a value, with a message, or with a panic. -/
abbrev NativeResult := Attempt String Value

/-- A native. It takes the given number of arguments, or any number when none is given. -/
structure Native (σ : Type) where
  arity : Option Nat
  call : List Value → σ → NativeResult × σ

/-- Whether a function of some arity can be called with `count` arguments. -/
def acceptsCount (arity : Option Nat) (count : Nat) : Bool :=
  match arity with
  | some n => n == count
  | none => true

/-- Whether a native can be called with `count` arguments. -/
def Native.accepts {σ : Type} (native : Native σ) (count : Nat) : Bool := acceptsCount native.arity count

/-- The natives of a host, by name, no name twice. -/
structure Natives (σ : Type) where
  entries : List (String × Native σ)

namespace Natives

variable {σ : Type}

/-- No native at all. -/
def empty : Natives σ := ⟨[]⟩

/-- Offers a native, in the place of one of the same name. -/
def register (natives : Natives σ) (name : String) (native : Native σ) : Natives σ :=
  ⟨natives.entries.filter (·.1 != name) ++ [(name, native)]⟩

/-- The native of a name. -/
def get? (natives : Natives σ) (name : String) : Option (Native σ) := natives.entries.lookup name

/-- Whether there is a native of a name. -/
def contains (natives : Natives σ) (name : String) : Bool := (natives.get? name).isSome

/-- The names of the natives, in order. -/
def names (natives : Natives σ) : List String :=
  (natives.entries.map (·.1)).mergeSort fun a b => decide (a ≤ b)

/-- What a compiler needs to know of the natives: their names and arities. -/
def signatures (natives : Natives σ) : List (String × Option Nat) :=
  natives.entries.map fun entry => (entry.1, entry.2.arity)

/-- The natives, for developers. -/
def inspect (natives : Natives σ) : String :=
  s!"Natives \x7b functions: {Text.inspectAll natives.names} \x7d"

end Natives

end Scriptorium
