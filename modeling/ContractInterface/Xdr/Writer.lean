/-
# Writing external data representation

A piece is a value to be written.  Integers may be out of range and byte strings of the wrong
length; such a piece has no written form.  A writer takes pieces one by one.  It writes a byte
string with its length in two parts, the length first, and stops at a part that cannot be written.
-/
import ContractInterface.Xdr.Basic

namespace ContractInterface.Xdr

/-- A value to be written. -/
inductive Piece where
  | uint32 (n : Int)
  | int32 (n : Int)
  | uint64 (n : Int)
  | int64 (n : Int)
  | boolean (b : Bool)
  /-- A byte string without its length, which has to be the given one, if one is given. -/
  | fixed (bytes : Bytes) (length : Option Int)
  /-- A byte string behind its length. -/
  | counted (bytes : Bytes)
  /-- A text behind its length, as UTF-8. -/
  | text (content : String)
deriving DecidableEq, Repr

/-- Why a piece has no written form. -/
inductive PieceFault where
  /-- A number, or the length of a byte string, does not fit its width. -/
  | outOfRange
  /-- A byte string does not have the length it should. -/
  | lengthMismatch (expected : Int) (actual : Nat)
deriving DecidableEq, Repr

/-- The wording of a fault. -/
def PieceFault.message : PieceFault → String
  | .outOfRange => "value out of range"
  | .lengthMismatch expected actual => s!"Expected {expected} bytes, got {actual}"

namespace Piece

/-- A number of `width` bytes, from `low` on, in two's complement. -/
def encodeInt (width : Nat) (low n : Int) : Except PieceFault Bytes :=
  if low ≤ n ∧ n < low + Bytes.bound width then
    .ok (Bytes.ofNat width (n % Bytes.bound width).toNat)
  else .error .outOfRange

/-- A byte string behind its length. -/
def encodeCounted (bytes : Bytes) : Except PieceFault Bytes :=
  if bytes.length < Bytes.bound 4 then .ok (ofCounted bytes) else .error .outOfRange

/-- The written form of a piece. -/
def encode : Piece → Except PieceFault Bytes
  | .uint32 n => encodeInt 4 0 n
  | .int32 n => encodeInt 4 (-0x80000000) n
  | .uint64 n => encodeInt 8 0 n
  | .int64 n => encodeInt 8 (-0x8000000000000000) n
  | .boolean b => .ok (ofBool b)
  | .fixed bytes none => .ok (ofFixed bytes)
  | .fixed bytes (some length) =>
    if bytes.length = length then .ok (ofFixed bytes)
    else .error (.lengthMismatch length bytes.length)
  | .counted bytes => encodeCounted bytes
  | .text content => encodeCounted (Utf8.encode content)

end Piece

/-- What has been written. -/
structure Writer where
  bytes : Bytes := []
deriving DecidableEq, Repr

/-- A step of a writer.  It may fail, and what it has written by then stays written. -/
abbrev Writing := EStateM PieceFault Writer Unit

namespace Writing

/-- Puts bytes behind what has been written. -/
def append (bytes : Bytes) : Writing :=
  modify fun w => ⟨w.bytes ++ bytes⟩

/-- Writes a number of `width` bytes, from `low` on, in two's complement. -/
def int (width : Nat) (low n : Int) : Writing :=
  if low ≤ n ∧ n < low + Bytes.bound width then
    append (Bytes.ofNat width (n % Bytes.bound width).toNat)
  else throw .outOfRange

/-- Writes a byte string without its length, which has to be the given one, if one is given. -/
def fixed (bytes : Bytes) : (length : Option Int) → Writing
  | none => append (ofFixed bytes)
  | some length =>
    if bytes.length = length then append (ofFixed bytes)
    else throw (.lengthMismatch length bytes.length)

/-- Writes the length of a byte string, and then the byte string. -/
def counted (bytes : Bytes) : Writing := do
  int 4 0 bytes.length
  fixed bytes none

/-- Writes a piece. -/
def piece : Piece → Writing
  | .uint32 n => int 4 0 n
  | .int32 n => int 4 (-0x80000000) n
  | .uint64 n => int 8 0 n
  | .int64 n => int 8 (-0x8000000000000000) n
  | .boolean b => int 4 0 (if b then 1 else 0)
  | .fixed bytes length => fixed bytes length
  | .counted bytes => counted bytes
  | .text content => counted (Utf8.encode content)

end Writing

namespace Writer

/-- Writes one piece behind what has been written, and says whether it could be. -/
def push (w : Writer) (piece : Piece) : Except PieceFault Unit × Writer :=
  match (Writing.piece piece).run w with
  | .ok () w => (.ok (), w)
  | .error fault w => (.error fault, w)

end Writer

end ContractInterface.Xdr
