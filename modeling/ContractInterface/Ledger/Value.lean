/-
# Contract values

The values that contracts store and exchange: numbers, byte strings, addresses, and vectors and
maps of values.  Texts are kept as the bytes they are read from.  Values are read up to a nesting
of 128 levels.
-/
import ContractInterface.Hash
import ContractInterface.Ledger.Tag

namespace ContractInterface.Ledger

/-- Whom or what an address names. -/
inductive Address where
  | account (key : Hash)
  | contract (id : Hash)
  | muxedAccount (id : UInt64) (key : Hash)
  | claimableBalance (id : Hash)
  | liquidityPool (id : Hash)
deriving DecidableEq

namespace Address

/-- The kind of an address. -/
def kind : Address → AddressKind
  | .account _ => .account
  | .contract _ => .contract
  | .muxedAccount .. => .muxedAccount
  | .claimableBalance _ => .claimableBalance
  | .liquidityPool _ => .liquidityPool

/-- The 32 bytes that an address holds. -/
def payload : Address → Hash
  | .account key | .muxedAccount _ key => key
  | .contract id | .claimableBalance id | .liquidityPool id => id

/-- Reads an address. -/
def read : Reader Address := do
  match ← readTag .address AddressKind.all with
  | .account => do
    readZero .publicKey
    return .account (← Hash.read)
  | .contract => return .contract (← Hash.read)
  | .muxedAccount => return .muxedAccount (← Xdr.Reader.uint64) (← Hash.read)
  | .claimableBalance => do
    readZero .claimableBalanceId
    return .claimableBalance (← Hash.read)
  | .liquidityPool => return .liquidityPool (← Hash.read)

end Address

/-- What runs when a contract is called. -/
inductive Executable where
  /-- The code stored under a hash. -/
  | wasm (hash : Hash)
  /-- The contract for assets that every host brings along. -/
  | stellarAsset
deriving DecidableEq

namespace Executable

/-- The name of the kind of an executable. -/
def kindName : Executable → String
  | .wasm _ => "WASM"
  | .stellarAsset => "STELLAR_ASSET"

/-- Reads an executable. -/
def read : Reader Executable := do
  if ← readTag .executable [true, false] then return .wasm (← Hash.read)
  else return .stellarAsset

end Executable

/-- An error that a contract or a part of the host reported. -/
inductive ErrorValue where
  | contract (code : UInt32)
  | host (part : HostPart) (code : Int32)
deriving DecidableEq, Repr

/-- Reads an error. -/
def ErrorValue.read : Reader ErrorValue := do
  match ← readTag .error errorSources with
  | none => return .contract (← Xdr.Reader.uint32)
  | some part => return .host part (← Xdr.Reader.int32)

/-- A contract value, with texts of type `α`; a reader leaves them as bytes. -/
inductive Value (α : Type := Bytes) where
  | bool (b : Bool)
  | void
  | error (error : ErrorValue)
  | u32 (n : UInt32)
  | i32 (n : Int32)
  | u64 (n : UInt64)
  | i64 (n : Int64)
  | timepoint (n : UInt64)
  | duration (n : UInt64)
  | u128 (n : BitVec 128)
  | i128 (n : BitVec 128)
  | u256 (n : BitVec 256)
  | i256 (n : BitVec 256)
  | bytes (bytes : Bytes)
  | string (text : α)
  | symbol (text : α)
  | vec (items : Option (List (Value α)))
  | map (entries : Option (List (Value α × Value α)))
  | address (address : Address)
  | contractInstance (executable : Executable) (storage : Option (List (Value α × Value α)))
  | ledgerKeyContractInstance
  | ledgerKeyNonce (n : Int64)

namespace Value

/-- The kind of a value. -/
def kind {α : Type} : Value α → ValueKind
  | .bool _ => .bool
  | .void => .void
  | .error _ => .error
  | .u32 _ => .u32
  | .i32 _ => .i32
  | .u64 _ => .u64
  | .i64 _ => .i64
  | .timepoint _ => .timepoint
  | .duration _ => .duration
  | .u128 _ => .u128
  | .i128 _ => .i128
  | .u256 _ => .u256
  | .i256 _ => .i256
  | .bytes _ => .bytes
  | .string _ => .string
  | .symbol _ => .symbol
  | .vec _ => .vec
  | .map _ => .map
  | .address _ => .address
  | .contractInstance .. => .contractInstance
  | .ledgerKeyContractInstance => .ledgerKeyContractInstance
  | .ledgerKeyNonce _ => .ledgerKeyNonce

/-- The number of levels that values may be nested in one value. -/
def maxDepth : Nat := 128

/-- The greatest length of a symbol in bytes. -/
def symbolLimit : Int := 32

/-- Reads 128 bits, the higher half first. -/
def read128 : Reader (BitVec 128) := do
  let high ← Xdr.Reader.uint64
  let low ← Xdr.Reader.uint64
  return high.toBitVec ++ low.toBitVec

/-- Reads 256 bits, the higher half first. -/
def read256 : Reader (BitVec 256) := do
  let high ← read128
  let low ← read128
  return high ++ low

/-- Reads the entries of a map: a key and a value each. -/
def readEntries (read : Reader Value) : Reader (List (Value × Value)) :=
  Xdr.Reader.array none do
    let key ← read
    let value ← read
    return (key, value)

/-- Reads a value in which at most `levels` levels are open at any place, itself included. -/
def readWithin : (levels : Nat) → Reader Value
  | 0 => Xdr.Reader.reject .nestedTooDeep
  | levels + 1 => do
    match ← readTag .value ValueKind.all with
    | .bool => return .bool (← Xdr.Reader.boolean)
    | .void => return .void
    | .error => return .error (← ErrorValue.read)
    | .u32 => return .u32 (← Xdr.Reader.uint32)
    | .i32 => return .i32 (← Xdr.Reader.int32)
    | .u64 => return .u64 (← Xdr.Reader.uint64)
    | .i64 => return .i64 (← Xdr.Reader.int64)
    | .timepoint => return .timepoint (← Xdr.Reader.uint64)
    | .duration => return .duration (← Xdr.Reader.uint64)
    | .u128 => return .u128 (← read128)
    | .i128 => return .i128 (← read128)
    | .u256 => return .u256 (← read256)
    | .i256 => return .i256 (← read256)
    | .bytes => return .bytes (← Xdr.Reader.counted none)
    | .string => return .string (← Xdr.Reader.counted none)
    | .symbol => return .symbol (← Xdr.Reader.counted symbolLimit)
    | .vec => return .vec (← Xdr.Reader.optional (Xdr.Reader.array none (readWithin levels)))
    | .map => return .map (← Xdr.Reader.optional (readEntries (readWithin levels)))
    | .address => return .address (← Address.read)
    | .contractInstance => do
      let executable ← Executable.read
      let storage ← Xdr.Reader.optional (readEntries (readWithin levels))
      return .contractInstance executable storage
    | .ledgerKeyContractInstance => return .ledgerKeyContractInstance
    | .ledgerKeyNonce => return .ledgerKeyNonce (← Xdr.Reader.int64)

/-- Reads a value that stands `depth` levels inside another one. -/
def readAt (depth : Int) : Reader Value :=
  readWithin (maxDepth + 1 - depth).toNat

/-- Reads a value. -/
def read : Reader Value :=
  readAt 0

end Value

end ContractInterface.Ledger
