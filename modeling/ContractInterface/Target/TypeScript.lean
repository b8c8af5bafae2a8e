/-
# TypeScript types

The TypeScript type of the values of a contract type.  Small integers are numbers and wide ones
big integers; an option is an alternative to null, and a result is what it holds on success.  The
suffix for arrays binds tighter than the bar between alternatives, so an element with a bar in it
stands in parentheses.
-/
import ContractInterface.Text.Basic
import ContractInterface.TypeRef

namespace ContractInterface.Target

/-- The TypeScript type of a primitive type. -/
def Primitive.toTypeScript : Primitive → String
  | .bool => "boolean"
  | .void => "void"
  | .status | .u32 | .i32 => "number"
  | .u64 | .i64 | .timepoint | .duration | .u128 | .i128 | .u256 | .i256 => "bigint"
  | .bytes | .string | .symbol | .address => "string"

/-- The type of arrays with elements of a type. -/
def arrayOf (element : String) : String :=
  if Text.occursIn " | ".toList element.toList then "(" ++ element ++ ")[]" else element ++ "[]"

mutual

/-- The TypeScript type of a contract type. -/
def toTypeScript : TypeRef → String
  | .primitive p => Primitive.toTypeScript p
  | .option inner => toTypeScript inner ++ " | null"
  | .result ok _ => toTypeScript ok
  | .vec element => arrayOf (toTypeScript element)
  | .map key value => "Map<" ++ toTypeScript key ++ ", " ++ toTypeScript value ++ ">"
  | .tuple members => "[" ++ ", ".intercalate (toTypeScripts members) ++ "]"
  | .bytesN _ => "string"
  | .custom name => name

/-- The TypeScript types of a list of contract types. -/
def toTypeScripts : List TypeRef → List String
  | [] => []
  | member :: members => toTypeScript member :: toTypeScripts members

end

end ContractInterface.Target
