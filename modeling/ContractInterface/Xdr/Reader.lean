/-
# Reading external data representation

A reader goes through a byte string from front to back.  It keeps its place in a `Cursor`; a read
that fails leaves the cursor behind the bytes it had taken, and the next read goes on from there.
Everything is built on `takeExactly`, so no read changes the byte string, moves backwards or moves
past the end.

A reader of a particular format has faults of its own beside those of the representation; `ε` is
their type, and it is empty where there are none.
-/
import ContractInterface.Xdr.Basic

namespace ContractInterface.Xdr

/-- A place in a byte string.  The place may lie past the end; nothing can be read there. -/
structure Cursor where
  data : Bytes
  offset : Nat
  /-- What follows the place, kept beside it so that reading does not walk to it again. -/
  ahead : Bytes
  /-- The number of bytes, kept so that they are counted only once. -/
  size : Nat
  ahead_eq : ahead = data.drop offset
  size_eq : size = data.length

namespace Cursor

/-- The place at an offset. -/
def place (data : Bytes) (offset : Nat) : Cursor :=
  ⟨data, offset, data.drop offset, data.length, rfl, rfl⟩

/-- The first place of a byte string. -/
def start (data : Bytes) : Cursor :=
  ⟨data, 0, data, data.length, rfl, rfl⟩

@[ext] theorem ext {c d : Cursor} (data_eq : c.data = d.data) (offset_eq : c.offset = d.offset) :
    c = d := by
  obtain ⟨data, offset, ahead, size, rfl, rfl⟩ := c
  obtain ⟨data', offset', ahead', size', rfl, rfl⟩ := d
  simp only at data_eq offset_eq
  subst data_eq offset_eq
  rfl

/-- The number of bytes that follow; negative past the end. -/
def remaining (c : Cursor) : Int :=
  c.size - c.offset

/-- Whether the place is exactly the end. -/
def isAtEnd (c : Cursor) : Bool :=
  c.offset == c.size

/-- Whether the place lies past the end. -/
def isPastEnd (c : Cursor) : Bool :=
  c.size < c.offset

/-- The place after bytes that stand in front. -/
def advance (c : Cursor) (taken rest : Bytes) (h : c.ahead = taken ++ rest) : Cursor where
  data := c.data
  offset := c.offset + taken.length
  ahead := rest
  size := c.size
  ahead_eq := by
    rw [← List.drop_drop, ← c.ahead_eq, h, List.drop_left]
  size_eq := c.size_eq

end Cursor

/-- What stops a reader: a fault of the representation, or one of the format it reads. -/
inductive Fault (ε : Type) where
  | wire (fault : WireFault)
  | format (fault : ε)
deriving DecidableEq, Repr

/-- The wording of a fault. -/
def Fault.message {ε : Type} (wording : ε → String) : Fault ε → String
  | .wire fault => fault.message
  | .format fault => wording fault

/-- A reader of values of type `α`. -/
abbrev Reader (ε α : Type) := EStateM (Fault ε) Cursor α

namespace Reader

variable {ε α : Type}

/-- Stops with a fault of the representation. -/
def fail (fault : WireFault) : Reader ε α :=
  throw (.wire fault)

/-- Stops with a fault of the format. -/
def reject (fault : ε) : Reader ε α :=
  throw (.format fault)

/-- Takes a number of bytes. -/
def takeExactly (count : Nat) : Reader ε { bytes : Bytes // bytes.length = count } := fun c =>
  if c.isPastEnd then fail (.unexpectedEnd count c.offset c.remaining) c
  else match h : Bytes.split? count c.ahead with
    | none => fail (.unexpectedEnd count c.offset c.remaining) c
    | some (taken, rest) =>
      have cut := Bytes.split?_eq_some_iff.1 h
      .ok ⟨taken, cut.1⟩ (c.advance taken rest cut.2)

/-- Takes a number of bytes. -/
def take (count : Nat) : Reader ε Bytes :=
  return (← takeExactly count).val

/-- A number of 32 bits. -/
def uint32 : Reader ε UInt32 :=
  return UInt32.ofNat (Bytes.toNat (← take 4))

/-- A signed number of 32 bits, in two's complement. -/
def int32 : Reader ε Int32 :=
  return (← uint32).toInt32

/-- A number of 64 bits. -/
def uint64 : Reader ε UInt64 :=
  return UInt64.ofNat (Bytes.toNat (← take 8))

/-- A signed number of 64 bits, in two's complement. -/
def int64 : Reader ε Int64 :=
  return (← uint64).toInt64

/-- A truth value: the number 0 or 1. -/
def boolean : Reader ε Bool := do
  let value ← uint32
  if value = 0 then return false
  else if value = 1 then return true
  else fail (.invalidBool value)

/-- The filling after a byte string of a given length. -/
def skipPadding (length : Nat) : Reader ε Unit := do
  let fill ← take (padding length)
  if fill.any (· ≠ 0) then fail .nonzeroPadding

/-- A byte string of a known length. -/
def fixed (length : Nat) : Reader ε { bytes : Bytes // bytes.length = length } := do
  let bytes ← takeExactly length
  skipPadding length
  return bytes

/-- A byte string behind its length, up to a limit. -/
def counted (limit : Option Int) : Reader ε Bytes := do
  let length ← uint32
  match limit with
  | some limit => if limit < (length.toNat : Int) then fail (.bytesTooLong length limit)
  | none => pure ()
  return (← fixed length.toNat).val

/-- A truth value, and a value after it if it is true. -/
def optional (read : Reader ε α) : Reader ε (Option α) := do
  if ← boolean then return some (← read) else return none

/-- A number of values, one after the other. -/
def times : (count : Nat) → Reader ε α → Reader ε (List α)
  | 0, _ => pure []
  | count + 1, read => do
    let value ← read
    let values ← times count read
    return value :: values

/-- A count, up to a limit, and that many values.  Every value takes at least four bytes, so a
count beyond a quarter of what follows is refused before any of them is read. -/
def array (limit : Option Int) (read : Reader ε α) : Reader ε (List α) := do
  let count ← uint32
  match limit with
  | some limit => if limit < (count.toNat : Int) then fail (.arrayTooLong count limit)
  | none => pure ()
  if (← get).remaining < count.toNat * 4 then fail (.arrayOverrun count)
  times count.toNat read

/-- Succeeds exactly at the end. -/
def expectEnd : Reader ε Unit := do
  let c ← get
  if !c.isAtEnd then fail (.trailingBytes c.remaining)

/-- The value that a reader gives for a whole byte string. -/
def value (read : Reader ε α) (data : Bytes) : Except (Fault ε) α :=
  match read.run (Cursor.start data) with
  | .ok value _ => .ok value
  | .error fault _ => .error fault

end Reader

end ContractInterface.Xdr
