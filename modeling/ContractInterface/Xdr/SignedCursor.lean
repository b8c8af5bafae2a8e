/-
# Reading from a place that is counted from the end

A place may also be given by a negative offset, which counts from the end.  What is read there goes
from one offset to another, each of them counted on its own, and an offset before the first byte
means the first byte.  So a stretch that begins before the end and stops behind it, where offsets
count from the front again, may hold fewer bytes than were asked for.  A number needs all its bytes;
a byte string takes what there is.

From offset 0 on this is the reading of `Step.read`.
-/
import ContractInterface.Xdr.Step

namespace ContractInterface.Xdr

/-- A place in a byte string.  A negative offset counts from the end. -/
structure SignedCursor where
  data : Bytes
  offset : Int

namespace SignedCursor

/-- How many bytes follow the offset, as far as it counts from the front. -/
def remaining (c : SignedCursor) : Int :=
  c.data.length - c.offset

/-- Whether the offset is that of the end. -/
def isAtEnd (c : SignedCursor) : Bool :=
  c.offset == c.data.length

/-- The number of bytes in front of an offset. -/
def index (data : Bytes) : (offset : Int) → Nat
  | .ofNat offset => offset
  | .negSucc before => data.length - (before + 1)

/-- The bytes from one offset to another; none if the second stands in front of the first. -/
def stretch (data : Bytes) (first last : Int) : Bytes :=
  (data.take (index data last)).drop (index data first)

end SignedCursor

/-- What can be wrong with a number beside the faults of the representation. -/
inductive NumberFault where
  /-- The stretch has fewer bytes than the number. -/
  | short
deriving DecidableEq, Repr

/-- A reader that starts at a signed offset. -/
abbrev SignedReader (α : Type) := EStateM (Fault NumberFault) SignedCursor α

namespace SignedReader

/-- Stops with a fault of the representation. -/
def fail {α : Type} (fault : WireFault) : SignedReader α :=
  throw (.wire fault)

/-- Moves on by a number of offsets, and gives the bytes between. -/
def take (count : Int) : SignedReader Bytes := do
  let c ← get
  if count < 0 ∨ c.data.length < c.offset + count then
    fail (.unexpectedEnd count c.offset c.remaining)
  set { c with offset := c.offset + count }
  return SignedCursor.stretch c.data c.offset (c.offset + count)

/-- A number of a given width. -/
def number (width : Nat) : SignedReader Nat := do
  let bytes ← take width
  if bytes.length = width then return Bytes.toNat bytes else throw (.format .short)

/-- A number of 32 bits. -/
def uint32 : SignedReader UInt32 :=
  return UInt32.ofNat (← number 4)

/-- A number of 64 bits. -/
def uint64 : SignedReader UInt64 :=
  return UInt64.ofNat (← number 8)

/-- A truth value: the number 0 or 1. -/
def boolean : SignedReader Bool := do
  let value ← uint32
  if value = 0 then return false
  else if value = 1 then return true
  else fail (.invalidBool value)

/-- A byte string of a known length, and its filling. -/
def fixed (length : Int) : SignedReader Bytes := do
  let bytes ← take length
  let fill ← take (padding length.toNat)
  if fill.any (· ≠ 0) then fail .nonzeroPadding
  return bytes

/-- A byte string behind its length, up to a limit. -/
def counted (limit : Option Int) : SignedReader Bytes := do
  let length ← uint32
  if limit.any (· < (length.toNat : Int)) then fail (.bytesTooLong length (limit.getD 0))
  fixed length.toNat

/-- A count, up to a limit, and that many values. -/
def array {α : Type} (limit : Option Int) (read : SignedReader α) : SignedReader (List α) := do
  let count ← uint32
  if limit.any (· < (count.toNat : Int)) then fail (.arrayTooLong count (limit.getD 0))
  if (← get).remaining < count.toNat * 4 then fail (.arrayOverrun count)
  (List.replicate count.toNat ()).mapM fun () => read

end SignedReader

namespace Step

/-- Reads the value of a step from a signed offset on. -/
def readSigned : Step → SignedReader Value
  | .uint32 => .uint32 <$> SignedReader.uint32
  | .int32 => (.int32 ·.toInt32) <$> SignedReader.uint32
  | .uint64 => .uint64 <$> SignedReader.uint64
  | .int64 => (.int64 ·.toInt64) <$> SignedReader.uint64
  | .boolean => .boolean <$> SignedReader.boolean
  | .fixed length => .bytes <$> SignedReader.fixed length
  | .counted limit => .bytes <$> SignedReader.counted limit
  | .text limit => .text <$> SignedReader.counted limit
  | .optional step => do
    if ← SignedReader.boolean then return .present (← step.readSigned) else return .absent
  | .array limit step => .items <$> SignedReader.array limit step.readSigned
  | .atEnd => return .boolean (← get).isAtEnd
  | .expectEnd => do
    let c ← get
    if !c.isAtEnd then SignedReader.fail (.trailingBytes c.remaining)
    return .nothing

end Step

end ContractInterface.Xdr
