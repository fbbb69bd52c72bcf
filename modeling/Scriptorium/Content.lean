import Scriptorium.Host
import Std.Data.TreeMap

/-!
# Content

The demonstration application keeps content by key. Scripts change it through the natives `define`
and `remove`, and every change is an action, so that the log of actions is a journal of the content.
-/
namespace Scriptorium

/-- Content by key. -/
abbrev ContentStore := Std.TreeMap String String

/-- An application state that holds content. -/
class HasContent (σ : Type) where
  content : σ → ContentStore
  update : (ContentStore → ContentStore) → σ → σ

/-- The content may be all of the state. -/
instance : HasContent ContentStore := ⟨id, id⟩

namespace ContentStore

variable {σ : Type} [HasContent σ]

/-- Gives a key a content. -/
def defining (key value : String) : Action σ :=
  .simple s!"Defining {key} = {value}" (HasContent.update (·.insert key value))

/-- Takes a key's content away. -/
def removing (key : String) : Action σ :=
  .simple s!"Removing {key}" (HasContent.update (·.erase key))

/-- The refusal of a key that is no text. -/
def badKey (key : Value) : NativeResult := .refused s!"key must be a string, got {key.type.name}"

/-- Defines the text of a value under a key. -/
def define : Native (Host σ) where
  arity := some 2
  call
    | [.text key, value], host => (.returned .null, host.apply (defining key value.display))
    | [key, _], host => (badKey key, host)
    | _, host => (.refused "expected 2 arguments", host)

/-- Removes a key, and tells whether it was there. -/
def remove : Native (Host σ) where
  arity := some 1
  call
    | [.text key], host =>
      if (HasContent.content host.state).contains key then
        (.returned (.bool true), host.apply (removing key))
      else (.returned (.bool false), host)
    | [key], host => (badKey key, host)
    | _, host => (.refused "expected 1 argument", host)

/-- Offers the natives that change content. -/
def register (natives : Natives (Host σ)) : Natives (Host σ) :=
  (natives.register "define" define).register "remove" remove

end ContentStore

end Scriptorium
