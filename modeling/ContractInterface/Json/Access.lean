/-
# Taking JSON values apart

What a document is expected to hold, and what is wrong where it does not hold it: an object lacks
a member, or a value has no members, no parts or no number in it.
-/
import ContractInterface.Json.Quoted
import ContractInterface.Text.Number

namespace ContractInterface.Json

/-- Why a value does not hold what is looked for in it. -/
inductive Mismatch where
  /-- An object has no member of the name. -/
  | missing (name : String)
  /-- The value has no members, no parts or no numeric reading. -/
  | wrongShape
  /-- The value is not an object, where a member may be missing. -/
  | notObject
  /-- A text is not the text of an integer. -/
  | notInteger (text : String)
  /-- A number has no integer part; it is no number at all. -/
  | noIntegerPart
  /-- A number is infinite. -/
  | unbounded
deriving DecidableEq, Repr

/-- The wording of a mismatch. -/
def Mismatch.message : Mismatch → String
  | .missing name => name
  | .notInteger text =>
    "invalid literal for int() with base 10: " ++ String.ofList ((Text.quoted text).toList.take 200)
  | .noIntegerPart => "cannot convert float NaN to integer"
  | .unbounded => "cannot convert float infinity to integer"
  | .wrongShape => "unexpected value"
  | .notObject => "not an object"

/-- The value of a member that has to be there. -/
def member (value : Json) (name : String) : Except Mismatch Json :=
  match value with
  | .obj members =>
    match members.lookup name with
    | some found => .ok found
    | none => .error (.missing name)
  | _ => .error .wrongShape

/-- The value of a member that may be missing. -/
def optionalMember (value : Json) (name : String) : Except Mismatch (Option Json) :=
  match value with
  | .obj members => .ok (members.lookup name)
  | _ => .error .notObject

/-- The members of an object. -/
def members (value : Json) : Except Mismatch (List (String × Json)) :=
  match value with
  | .obj members => .ok members
  | _ => .error .notObject

/-- The parts of a value: the items of an array, the characters of a string or the names in an
object. -/
def parts (value : Json) : Except Mismatch (List Json) :=
  match value with
  | .arr items => .ok items
  | .str text => .ok (text.toList.map fun c => .str c.toString)
  | .obj members => .ok (members.map fun (name, _) => .str name)
  | _ => .error .wrongShape

/-- The integer that a value stands for; of a fraction it is the integer part. -/
def integer (value : Json) : Except Mismatch Int :=
  match value with
  | .int n => .ok n
  | .bool b => .ok (if b then 1 else 0)
  | .float .nan => .error .noIntegerPart
  | .float x =>
    match x.truncate? with
    | some n => .ok n
    | none => .error .unbounded
  | .str text =>
    match Text.integer? text with
    | some n => .ok n
    | none => .error (.notInteger text)
  | .null | .arr _ | .obj _ => .error .wrongShape

end ContractInterface.Json
