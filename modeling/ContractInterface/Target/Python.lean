/-
# Python type hints

The type hint for the values of a contract type.  Integers of more than 64 bits are carried as
texts; an option may be none, and a result is what it holds on success.
-/
import ContractInterface.TypeRef

namespace ContractInterface.Target

/-- The type hint of a primitive type. -/
def Primitive.toPython : Primitive → String
  | .bool => "bool"
  | .void => "None"
  | .status | .u32 | .i32 | .u64 | .i64 | .timepoint | .duration => "int"
  | .u128 | .i128 | .u256 | .i256 | .string | .symbol | .address => "str"
  | .bytes => "bytes"

mutual

/-- The type hint of a contract type, given the words for primitive types, byte strings of fixed
size being texts, and for declared names. -/
def toHint (primitive : Primitive → String) (named : String → String) : TypeRef → String
  | .primitive p => primitive p
  | .option inner => "Optional[" ++ toHint primitive named inner ++ "]"
  | .result ok _ => toHint primitive named ok
  | .vec element => "List[" ++ toHint primitive named element ++ "]"
  | .map key value =>
    "Dict[" ++ toHint primitive named key ++ ", " ++ toHint primitive named value ++ "]"
  | .tuple members => "Tuple[" ++ ", ".intercalate (toHints primitive named members) ++ "]"
  | .bytesN _ => "str"
  | .custom name => named name

/-- The type hints of a list of contract types. -/
def toHints (primitive : Primitive → String) (named : String → String) :
    List TypeRef → List String
  | [] => []
  | member :: members => toHint primitive named member :: toHints primitive named members

end

/-- The type hint of a contract type. -/
def toPython (type : TypeRef) : String :=
  toHint Primitive.toPython id type

end ContractInterface.Target
