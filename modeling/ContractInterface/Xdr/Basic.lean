/-
# External data representation: forms and faults

Values are written most significant byte first and filled with zero bytes to a multiple of four.
This file gives the written form of each primitive value and names what can be wrong with a byte
string that is read as one.
-/
import ContractInterface.Bytes.Utf8

namespace ContractInterface.Xdr

/-- The number of zero bytes that follow a byte string of a given length. -/
def padding (length : Nat) : Nat :=
  (4 - length % 4) % 4

/-- A byte string of a length that is known from elsewhere. -/
def ofFixed (bytes : Bytes) : Bytes :=
  bytes ++ List.replicate (padding bytes.length) 0

/-- A 32-bit number. -/
def ofUInt32 (n : UInt32) : Bytes :=
  Bytes.ofNat 4 n.toNat

/-- A signed 32-bit number, in two's complement. -/
def ofInt32 (n : Int32) : Bytes :=
  ofUInt32 n.toUInt32

/-- A 64-bit number. -/
def ofUInt64 (n : UInt64) : Bytes :=
  Bytes.ofNat 8 n.toNat

/-- A signed 64-bit number, in two's complement. -/
def ofInt64 (n : Int64) : Bytes :=
  ofUInt64 n.toUInt64

/-- A truth value, as the number 0 or 1. -/
def ofBool (b : Bool) : Bytes :=
  ofUInt32 (if b then 1 else 0)

/-- A byte string behind its length. -/
def ofCounted (bytes : Bytes) : Bytes :=
  ofUInt32 (UInt32.ofNat bytes.length) ++ ofFixed bytes

/-- What is wrong with a byte string at the place where a value is read. -/
inductive WireFault where
  /-- There are fewer bytes than the value takes. -/
  | unexpectedEnd (needed offset available : Int)
  /-- Bytes are left after the last value. -/
  | trailingBytes (count : Int)
  /-- A truth value is neither 0 nor 1. -/
  | invalidBool (value : UInt32)
  /-- A byte string is longer than its limit. -/
  | bytesTooLong (length : UInt32) (limit : Int)
  /-- An array has more elements than its limit. -/
  | arrayTooLong (count : UInt32) (limit : Int)
  /-- An array has more elements than the bytes that follow could hold. -/
  | arrayOverrun (count : UInt32)
  /-- A filling byte is not zero. -/
  | nonzeroPadding
deriving DecidableEq, Repr

/-- The wording of a fault. -/
def WireFault.message : WireFault → String
  | .unexpectedEnd needed offset available =>
    s!"Unexpected end of XDR data: need {needed} bytes at offset {offset}, have {available}"
  | .trailingBytes count => s!"{count} trailing bytes after XDR value"
  | .invalidBool value => s!"Invalid XDR bool value {value}"
  | .bytesTooLong length limit => s!"Opaque length {length} exceeds limit {limit}"
  | .arrayTooLong count limit => s!"Array length {count} exceeds limit {limit}"
  | .arrayOverrun count => s!"Array length {count} exceeds remaining data"
  | .nonzeroPadding => "Non-zero XDR padding"

end ContractInterface.Xdr
