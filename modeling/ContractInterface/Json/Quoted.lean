/-
# JSON values in messages

A value inside a message is written as one expression: the words `None`, `True` and `False`,
numbers, quoted texts, items between square brackets and members between braces.
-/
import ContractInterface.Binary64.Shortest
import ContractInterface.Json
import ContractInterface.Text.Quoted

namespace ContractInterface.Json

mutual

/-- The expression of a value. -/
def quoted : Json → String
  | .null => "None"
  | .bool true => "True"
  | .bool false => "False"
  | .int n => toString n
  | .float x => x.toText
  | .str text => Text.quoted text
  | .arr items => "[" ++ ", ".intercalate (quotedItems items) ++ "]"
  | .obj members => "\x7b" ++ ", ".intercalate (quotedMembers members) ++ "\x7d"

/-- The expressions of the items of an array. -/
def quotedItems : List Json → List String
  | [] => []
  | item :: items => quoted item :: quotedItems items

/-- The expressions of the members of an object, each a name and a value. -/
def quotedMembers : List (String × Json) → List String
  | [] => []
  | (name, value) :: members => (Text.quoted name ++ ": " ++ quoted value) :: quotedMembers members

end

/-- A value inside running text: a string as it is, anything else as an expression. -/
def display : Json → String
  | .str text => text
  | value => value.quoted

end ContractInterface.Json
