import Scriptorium.Native

/-!
# The host

The host of scripts keeps the log, the actions applied so far, and a state of the application's
choice. An action changes that state; it can describe itself and may apply other actions while it
works. The log of actions holds each action once it has done its work.
-/
namespace Scriptorium

/-- A change of the application's state. `effect` sees the number of actions recorded so far;
`children` are the actions that it applies after its own effect, in this order. -/
inductive Action (σ : Type)
  | mk (description : String) (effect : Nat → σ → σ) (children : List (Action σ))

namespace Action

variable {σ : Type}

/-- What an action says of itself. -/
def description : Action σ → String
  | mk description _ _ => description

/-- What an action does itself, without those that it applies. -/
def effect : Action σ → Nat → σ → σ
  | mk _ effect _ => effect

/-- The actions that an action applies. -/
def children : Action σ → List (Action σ)
  | mk _ _ children => children

/-- An action that applies no other. -/
def simple (description : String) (effect : σ → σ) : Action σ := mk description (fun _ => effect) []

/-- An applied action, for developers. -/
def inspect (action : Action σ) : String :=
  s!"AppliedAction \x7b description: {Text.inspect action.description}, .. \x7d"

end Action

/-- What scripts and the program share while they run. -/
structure Host (σ : Type) where
  log : Array LogEvent
  actions : Array (Action σ)
  state : σ

namespace Host

variable {σ : Type}

/-- A host before anything has happened. -/
def initial (state : σ) : Host σ := ⟨#[], #[], state⟩

/-- Reports an event. -/
def report (host : Host σ) (level : LogLevel) (target : LogTarget) (message : String) : Host σ :=
  { host with log := host.log.push ⟨level, target, message⟩ }

/-- Reports some events. -/
def reportAll (host : Host σ) (events : List LogEvent) : Host σ :=
  { host with log := host.log ++ events }

mutual

/-- Reports an action, does its work, and records it. -/
def apply (action : Action σ) (host : Host σ) : Host σ :=
  match action with
  | .mk description effect children =>
    let host := host.report .info .actions description
    let host := { host with state := effect host.actions.size host.state }
    let host := applyAll children host
    { host with actions := host.actions.push (.mk description effect children) }
termination_by structural action

/-- Applies actions one after the other. -/
def applyAll (actions : List (Action σ)) (host : Host σ) : Host σ :=
  match actions with
  | [] => host
  | action :: actions => applyAll actions (apply action host)
termination_by structural actions

end

/-- The descriptions of the applied actions, in the order of the log. -/
def descriptions (host : Host σ) : List String := host.actions.toList.map Action.description

/-- The log of actions, for developers. -/
def inspectActions (host : Host σ) : String := s!"ActionLog \x7b len: {host.actions.size} \x7d"

end Host

/-- Logs its arguments, with spaces between them. -/
def Native.print {σ : Type} : Native (Host σ) where
  arity := none
  call args host :=
    (.returned .null, host.report .info .script (" ".intercalate (args.map Value.display)))

/-- The natives of every host. -/
def Natives.standard {σ : Type} : Natives (Host σ) := Natives.empty.register "print" .print

end Scriptorium
