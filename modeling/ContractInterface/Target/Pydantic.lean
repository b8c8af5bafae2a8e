/-
# Pydantic annotations

The annotation of a contract type inside a Pydantic model, and the declaration of a field.  All
integers of 64 bits and more are carried as texts.  An optional field is none unless given, and
the length that a type fixes is kept, also inside an option.
-/
import ContractInterface.Spec
import ContractInterface.Target.Description
import ContractInterface.Target.Python

namespace ContractInterface.Target

/-- The annotation of a primitive type. -/
def Primitive.toPydantic : Primitive → String
  | .bool => "bool"
  | .void => "None"
  | .status | .u32 | .i32 => "int"
  | .u64 | .i64 | .timepoint | .duration | .u128 | .i128 | .u256 | .i256 | .bytes | .string
  | .symbol | .address => "str"

/-- The annotation of a contract type. -/
def toPydantic (type : TypeRef) : String :=
  toHint Primitive.toPydantic (· ++ "Schema") type

/-- The type of a value that is given: what an option holds, and otherwise the type itself. -/
def givenType : TypeRef → TypeRef
  | .option inner => inner
  | type => type

/-- The constraints on the length of a given value. -/
def lengthArguments (type : TypeRef) : List String :=
  match (givenType type).textLength? with
  | some length => [s!"min_length={length}", s!"max_length={length}"]
  | none => []

/-- The declaration of a field of a given name. -/
def pydanticDeclaration {α : Type} [Label α] (name : String) (type : TypeRef) (doc : Option α) :
    String :=
  let default := if type.isOption then "None" else "..."
  let arguments := default :: lengthArguments type ++ ["description=\"" ++ escapeDoc doc ++ "\""]
  name ++ ": " ++ toPydantic type ++ " = Field(" ++ ", ".intercalate arguments ++ ")"

/-- The declaration of a field. -/
def pydanticField {α : Type} [Label α] (field : FieldDecl α) : String :=
  pydanticDeclaration (Label.shown field.name) field.type field.doc

end ContractInterface.Target
