/-
# JSON values

The members of an object keep the order in which they were added, and a name occurs once.
Integers and floating point numbers are told apart by how they are written.
-/
import ContractInterface.Binary64

namespace ContractInterface

/-- A JSON value. -/
inductive Json where
  | null
  | bool (b : Bool)
  | int (n : Int)
  | float (x : Binary64)
  | str (text : String)
  | arr (items : List Json)
  | obj (members : List (String × Json))
deriving Repr, Inhabited

namespace Json

/-- Adds a member, or replaces the value of the member of that name where it stands. -/
def insertMember {α : Type} (name : String) (value : α) : List (String × α) → List (String × α)
  | [] => [(name, value)]
  | (k, v) :: rest =>
    if k = name then (name, value) :: rest else (k, v) :: insertMember name value rest

/-- The value of a member of an object. -/
def get? : Json → String → Option Json
  | .obj members, name => members.lookup name
  | _, _ => none

/-- The items of an array. -/
def items? : Json → Option (List Json)
  | .arr items => some items
  | _ => none

/-- The text of a string. -/
def text? : Json → Option String
  | .str text => some text
  | _ => none

/-- Whether a value counts as given: null, false, zero and everything empty do not. -/
def isTruthy : Json → Bool
  | .null => false
  | .bool b => b
  | .int n => n != 0
  | .float x => !x.isZero
  | .str text => text != ""
  | .arr items => !items.isEmpty
  | .obj members => !members.isEmpty

/-- A text, or null for none. -/
def ofText? (text : Option String) : Json :=
  text.elim .null .str

end Json

end ContractInterface
