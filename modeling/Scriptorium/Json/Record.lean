import Scriptorium.Json.Number
import Scriptorium.Json.Tree

/-!
# Records in JSON

Reading values from documents. A record is an object with its members in any order, none of them
twice, among others that do not matter; or an array of its members in their own order.
-/
namespace Scriptorium.Json.Tree

/-- The text that a document is. -/
def text? : Tree → Option String
  | text raw => unescape? [] raw
  | _ => none

/-- The truth value that a document is. -/
def bool? : Tree → Option Bool
  | bool b => some b
  | _ => none

/-- The natural number up to `limit` that a document is. -/
def nat? (limit : Nat) : Tree → Option Nat
  | number n => toNat? limit n
  | _ => none

/-- The double that a document is. -/
def double? : Tree → Option Float
  | number n => toDouble? n
  | _ => none

/-- The values of the items of an array. -/
def list? {α : Type} (item? : Tree → Option α) : Tree → Option (List α)
  | array items => items.mapM item?
  | _ => none

/-- The member of a name. Fails when there are several. -/
def member? (members : List (String × Tree)) (name : String) : Option (Option Tree) :=
  match members.filter (·.1 == name) with
  | [] => some none
  | [(_, value)] => some (some value)
  | _ => none

/-- The members of a record with the given names, as far as they are there. -/
def record? (names : List String) : Tree → Option (List (Option Tree))
  | object members => do
    let members ← members.mapM fun (raw, value) => (unescape? [] raw).map (·, value)
    names.mapM (member? members)
  | array items =>
    if items.length ≤ names.length then
      some (items.map some ++ List.replicate (names.length - items.length) none)
    else none
  | _ => none

end Scriptorium.Json.Tree
