/-
# Zod validators

The Zod expression that validates the values of a contract type.  Integers of 64 bits and more are
carried as texts, addresses and byte strings of fixed size as texts of fixed length.  A declared
type is referred to by its schema, and lazily where its schema is not defined yet.
-/
import ContractInterface.Spec
import ContractInterface.Target.Description

namespace ContractInterface.Target

/-- The validator of texts of a length. -/
def zodText (length : Int) : String :=
  s!"z.string().length({length})"

/-- The validator of a primitive type. -/
def Primitive.toZod : Primitive → String
  | .bool => "z.boolean()"
  | .void => "z.void()"
  | .status | .u32 | .i32 => "z.number()"
  | .address => zodText TypeRef.addressLength
  | .u64 | .i64 | .timepoint | .duration | .u128 | .i128 | .u256 | .i256 | .bytes | .string
  | .symbol => "z.string()"

/-- The reference to the schema of a declared type; `pending` lists the names without a schema
yet. -/
def zodReference (pending : List String) (name : String) : String :=
  if name ∈ pending then "z.lazy(() => " ++ name ++ "Schema)" else name ++ "Schema"

mutual

/-- The validator of a contract type. -/
def toZod (pending : List String) : TypeRef → String
  | .primitive p => Primitive.toZod p
  | .option inner => toZod pending inner ++ ".nullable()"
  | .result ok _ => toZod pending ok
  | .vec element => "z.array(" ++ toZod pending element ++ ")"
  | .map key value => "z.map(" ++ toZod pending key ++ ", " ++ toZod pending value ++ ")"
  | .tuple members => "z.tuple([" ++ ", ".intercalate (toZods pending members) ++ "])"
  | .bytesN size => zodText (size * 2)
  | .custom name => zodReference pending name

/-- The validators of a list of contract types. -/
def toZods (pending : List String) : List TypeRef → List String
  | [] => []
  | member :: members => toZod pending member :: toZods pending members

end

/-- A member of an object validator; an optional value may also be left out. -/
def zodField {α : Type} [Label α] (pending : List String) (field : FieldDecl α) : String :=
  let leaveOut := if field.type.isOption then ".optional()" else ""
  Label.shown field.name ++ ": " ++ toZod pending field.type ++ leaveOut ++
    ".describe(\"" ++ escapeDoc field.doc ++ "\")"

end ContractInterface.Target
