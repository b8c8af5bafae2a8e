/-
# Types as a module writes them

A module writes a type as a code, followed by what the code takes.  Names are the bytes they are
written in unless another kind of name is given.  Types are read up to a nesting of 64 levels.  An
interface tells fewer types apart than modules do: an arbitrary value counts as none, and both
kinds of address are one.
-/
import ContractInterface.TypeRef
import ContractInterface.Xdr.Reader

namespace ContractInterface.Spec

/-- A type without parts, as a module writes it. -/
inductive SimpleType where
  | val
  | bool
  | void
  | error
  | u32
  | i32
  | u64
  | i64
  | timepoint
  | duration
  | u128
  | i128
  | u256
  | i256
  | bytes
  | string
  | symbol
  | address
  | muxedAddress
deriving DecidableEq, Repr

namespace SimpleType

/-- All types without parts. -/
def all : List SimpleType :=
  [.val, .bool, .void, .error, .u32, .i32, .u64, .i64, .timepoint, .duration, .u128, .i128,
   .u256, .i256, .bytes, .string, .symbol, .address, .muxedAddress]

/-- The code of a type without parts. -/
def code : SimpleType → Int32
  | .val => 0
  | .bool => 1
  | .void => 2
  | .error => 3
  | .u32 => 4
  | .i32 => 5
  | .u64 => 6
  | .i64 => 7
  | .timepoint => 8
  | .duration => 9
  | .u128 => 10
  | .i128 => 11
  | .u256 => 12
  | .i256 => 13
  | .bytes => 14
  | .string => 16
  | .symbol => 17
  | .address => 19
  | .muxedAddress => 20

/-- The primitive type that an interface shows for it. -/
def toPrimitive : SimpleType → Primitive
  | .val => .void
  | .bool => .bool
  | .void => .void
  | .error => .status
  | .u32 => .u32
  | .i32 => .i32
  | .u64 => .u64
  | .i64 => .i64
  | .timepoint => .timepoint
  | .duration => .duration
  | .u128 => .u128
  | .i128 => .i128
  | .u256 => .u256
  | .i256 => .i256
  | .bytes => .bytes
  | .string => .string
  | .symbol => .symbol
  | .address => .address
  | .muxedAddress => .address

end SimpleType

/-- What a type code announces. -/
inductive TypeCode where
  | simple (type : SimpleType)
  | option
  | result
  | vec
  | map
  | tuple
  | bytesN
  | udt
deriving DecidableEq, Repr

namespace TypeCode

/-- All type codes. -/
def all : List TypeCode :=
  SimpleType.all.map .simple ++ [.option, .result, .vec, .map, .tuple, .bytesN, .udt]

/-- The number of a type code. -/
def number : TypeCode → Int32
  | .simple type => type.code
  | .option => 1000
  | .result => 1001
  | .vec => 1002
  | .map => 1004
  | .tuple => 1005
  | .bytesN => 1006
  | .udt => 2000

/-- The type code of a number. -/
def ofNumber? (number : Int32) : Option TypeCode :=
  all.find? (·.number = number)

end TypeCode

/-- What is wrong with a byte string that is read as part of an interface. -/
inductive Violation where
  /-- Types are nested beyond the limit. -/
  | nestedTooDeep
  /-- No type has the code. -/
  | unknownTypeCode (code : Int32)
  /-- A case of a union is of an unknown kind. -/
  | unknownCaseKind (kind : Int32) (case : String)
  /-- An entry of the interface is of an unknown kind. -/
  | unknownEntryKind (kind : Int32)
  /-- An entry of the metadata is of an unknown kind. -/
  | unknownMetaKind (kind : Int32)
deriving DecidableEq, Repr

/-- The number of levels that types may be nested in one type. -/
def maxTypeDepth : Nat := 64

/-- The greatest number of types in a tuple. -/
def tupleLimit : Int := 12

/-- The wording of a violation. -/
def Violation.message : Violation → String
  | .nestedTooDeep => s!"Type definition nested deeper than {maxTypeDepth} levels"
  | .unknownTypeCode code => s!"Unknown spec type code {code}"
  | .unknownCaseKind kind case => s!"Unknown union case kind {kind} in case '{case}'"
  | .unknownEntryKind kind => s!"Unknown spec entry kind {kind}"
  | .unknownMetaKind kind => s!"Unknown contract meta entry kind {kind}"

/-- A reader of an interface. -/
abbrev Reader := Xdr.Reader Violation

/-- A type as a module writes it. -/
inductive TypeDef (α : Type := Bytes) where
  | simple (type : SimpleType)
  | option (inner : TypeDef α)
  | result (ok err : TypeDef α)
  | vec (element : TypeDef α)
  | map (key value : TypeDef α)
  | tuple (members : List (TypeDef α))
  | bytesN (size : UInt32)
  /-- A type declared under a name. -/
  | udt (name : α)
deriving Repr, Inhabited

namespace TypeDef

mutual

/-- The type that an interface shows. -/
def toTypeRef : TypeDef → TypeRef
  | .simple type => .primitive type.toPrimitive
  | .option inner => .option (toTypeRef inner)
  | .result ok err => .result (toTypeRef ok) (toTypeRef err)
  | .vec element => .vec (toTypeRef element)
  | .map key value => .map (toTypeRef key) (toTypeRef value)
  | .tuple members => .tuple (toTypeRefs members)
  | .bytesN size => .bytesN size.toNat
  | .udt name => .custom (Utf8.decodeLossy name)

/-- The types that an interface shows for a list of types. -/
def toTypeRefs : List TypeDef → List TypeRef
  | [] => []
  | member :: members => toTypeRef member :: toTypeRefs members

end

/-- Reads a type in which at most `levels` levels are open at any place, itself included. -/
def readWithin : (levels : Nat) → Reader TypeDef
  | 0 => Xdr.Reader.reject .nestedTooDeep
  | levels + 1 => do
    let code ← Xdr.Reader.int32
    match TypeCode.ofNumber? code with
    | none => Xdr.Reader.reject (.unknownTypeCode code)
    | some (.simple type) => return .simple type
    | some .option => return .option (← readWithin levels)
    | some .result => do
      let ok ← readWithin levels
      let err ← readWithin levels
      return .result ok err
    | some .vec => return .vec (← readWithin levels)
    | some .map => do
      let key ← readWithin levels
      let value ← readWithin levels
      return .map key value
    | some .tuple => return .tuple (← Xdr.Reader.array tupleLimit (readWithin levels))
    | some .bytesN => return .bytesN (← Xdr.Reader.uint32)
    | some .udt => return .udt (← Xdr.Reader.counted none)

/-- Reads a type that stands `depth` levels inside another one. -/
def readAt (depth : Int) : Reader TypeDef :=
  readWithin (maxTypeDepth + 1 - depth).toNat

/-- Reads a type. -/
def read : Reader TypeDef :=
  readAt 0

end TypeDef

end ContractInterface.Spec
