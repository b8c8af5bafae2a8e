/-
# Types of a contract interface

A type is built from primitive types and from names that the contract declares, by options,
results, vectors, maps and tuples; a byte string may have a fixed number of bytes.
-/

namespace ContractInterface

/-- A type without parts. -/
inductive Primitive where
  | bool
  | void
  | status
  | u32
  | i32
  | u64
  | i64
  | timepoint
  | duration
  | u128
  | i128
  | u256
  | i256
  | bytes
  | string
  | symbol
  | address
deriving DecidableEq, Repr

namespace Primitive

/-- All primitive types. -/
def all : List Primitive :=
  [.bool, .void, .status, .u32, .i32, .u64, .i64, .timepoint, .duration, .u128, .i128, .u256,
   .i256, .bytes, .string, .symbol, .address]

/-- The name of a primitive type. -/
def name : Primitive → String
  | .bool => "Bool"
  | .void => "Void"
  | .status => "Status"
  | .u32 => "U32"
  | .i32 => "I32"
  | .u64 => "U64"
  | .i64 => "I64"
  | .timepoint => "Timepoint"
  | .duration => "Duration"
  | .u128 => "U128"
  | .i128 => "I128"
  | .u256 => "U256"
  | .i256 => "I256"
  | .bytes => "Bytes"
  | .string => "String"
  | .symbol => "Symbol"
  | .address => "Address"

end Primitive

/-- The ways to form a type. -/
inductive TypeKind where
  | primitive (p : Primitive)
  | option
  | result
  | vec
  | map
  | tuple
  | bytesN
  | custom
deriving DecidableEq, Repr

namespace TypeKind

/-- All kinds of type. -/
def all : List TypeKind :=
  Primitive.all.map .primitive ++ [.option, .result, .vec, .map, .tuple, .bytesN, .custom]

/-- The name of a kind. -/
def name : TypeKind → String
  | .primitive p => p.name
  | .option => "Option"
  | .result => "Result"
  | .vec => "Vec"
  | .map => "Map"
  | .tuple => "Tuple"
  | .bytesN => "BytesN"
  | .custom => "Custom"

/-- The kind of a given name. -/
def ofName? (name : String) : Option TypeKind :=
  all.find? (·.name = name)

end TypeKind

/-- A type in the interface of a contract. -/
inductive TypeRef where
  | primitive (p : Primitive)
  | option (inner : TypeRef)
  | result (ok err : TypeRef)
  | vec (element : TypeRef)
  | map (key value : TypeRef)
  | tuple (members : List TypeRef)
  /-- Byte strings of a fixed number of bytes. -/
  | bytesN (size : Int)
  /-- A type that the contract declares. -/
  | custom (name : String)
deriving Repr, Inhabited

namespace TypeRef

/-- The kind of a type. -/
def kind : TypeRef → TypeKind
  | .primitive p => .primitive p
  | .option _ => .option
  | .result .. => .result
  | .vec _ => .vec
  | .map .. => .map
  | .tuple _ => .tuple
  | .bytesN _ => .bytesN
  | .custom _ => .custom

/-- The types that a type is directly built from, in order. -/
def parts : TypeRef → List TypeRef
  | .option inner => [inner]
  | .result ok err => [ok, err]
  | .vec element => [element]
  | .map key value => [key, value]
  | .tuple members => members
  | .primitive _ | .bytesN _ | .custom _ => []

/-- Whether a type is an option. -/
def isOption : TypeRef → Bool
  | .option _ => true
  | _ => false

/-- What an option or a vector holds. -/
def inner? : TypeRef → Option TypeRef
  | .option inner | .vec inner => some inner
  | _ => none

mutual

/-- A type and all types inside it, each before its parts. -/
def nodes : TypeRef → List TypeRef
  | .option inner => .option inner :: nodes inner
  | .result ok err => .result ok err :: (nodes ok ++ nodes err)
  | .vec element => .vec element :: nodes element
  | .map key value => .map key value :: (nodes key ++ nodes value)
  | .tuple members => .tuple members :: nodesOf members
  | .primitive p => [.primitive p]
  | .bytesN size => [.bytesN size]
  | .custom name => [.custom name]

/-- All types inside a list of types. -/
def nodesOf : List TypeRef → List TypeRef
  | [] => []
  | member :: members => nodes member ++ nodesOf members

end

/-- The declared name that a type is, if it is one. -/
def customName? : TypeRef → Option String
  | .custom name => some name
  | _ => none

/-- The declared names that occur in a type, in order. -/
def customNames (type : TypeRef) : List String :=
  type.nodes.filterMap customName?

mutual

/-- The text of a type, with its parts between brackets. -/
def toText : TypeRef → String
  | .primitive p => p.name
  | .option inner => "Option(" ++ toText inner ++ ")"
  | .result ok err => "Result(" ++ toText ok ++ ", " ++ toText err ++ ")"
  | .vec element => "Vec(" ++ toText element ++ ")"
  | .map key value => "Map(" ++ toText key ++ ", " ++ toText value ++ ")"
  | .tuple members => "Tuple(" ++ ", ".intercalate (textsOf members) ++ ")"
  | .bytesN size => s!"BytesN({size})"
  | .custom name => name

/-- The texts of a list of types. -/
def textsOf : List TypeRef → List String
  | [] => []
  | member :: members => toText member :: textsOf members

end

/-- The number of characters in the text of an address. -/
def addressLength : Int := 56

/-- The number of characters that the text of a value of a type has to have, where the type
fixes it: an address key, or two digits for each byte. -/
def textLength? : TypeRef → Option Int
  | .primitive .address => some addressLength
  | .bytesN size => some (size * 2)
  | _ => none

/-- Why a kind and parts form no type. -/
inductive FormationError where
  /-- The kind takes another number of parts. -/
  | wrongArity (kind : TypeKind) (expected actual : Nat)
  /-- The kind takes no parts. -/
  | takesNoParts (kind : TypeKind)
  /-- A size is given for a kind without one, or missing for byte strings. -/
  | misplacedSize
  /-- A name is given for a kind without one, or missing for a declared type. -/
  | misplacedName
deriving DecidableEq, Repr

/-- The wording of an error. -/
def FormationError.message : FormationError → String
  | .wrongArity kind expected actual =>
    s!"{kind.name} takes {expected} type argument(s), got {actual}"
  | .takesNoParts kind => s!"{kind.name} takes no type arguments"
  | .misplacedSize => "size is only valid for BytesN"
  | .misplacedName => "name is only valid for Custom"

/-- A type that needs neither a size nor a name. -/
def plain (type : TypeRef) (size : Option Int) (name : Option String) :
    Except FormationError TypeRef :=
  if size.isSome then .error .misplacedSize
  else if name.isSome then .error .misplacedName
  else .ok type

/-- The type of a kind with given parts, size and name. -/
def form (kind : TypeKind) (parts : List TypeRef) (size : Option Int) (name : Option String) :
    Except FormationError TypeRef :=
  match kind, parts with
  | .option, [inner] => plain (.option inner) size name
  | .vec, [element] => plain (.vec element) size name
  | .result, [ok, err] => plain (.result ok err) size name
  | .map, [key, value] => plain (.map key value) size name
  | .option, parts | .vec, parts => .error (.wrongArity kind 1 parts.length)
  | .result, parts | .map, parts => .error (.wrongArity kind 2 parts.length)
  | .tuple, members => plain (.tuple members) size name
  | _, _ :: _ => .error (.takesNoParts kind)
  | .primitive p, [] => plain (.primitive p) size name
  | .bytesN, [] =>
    match size, name with
    | some size, none => .ok (.bytesN size)
    | some _, some _ => .error .misplacedName
    | none, _ => .error .misplacedSize
  | .custom, [] =>
    match size, name with
    | none, some name => .ok (.custom name)
    | none, none => .error .misplacedName
    | some _, _ => .error .misplacedSize

end TypeRef

end ContractInterface
