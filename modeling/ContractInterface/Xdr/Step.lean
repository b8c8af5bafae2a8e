/-
# Reading steps

A step says what to read next; arrays and optional values have a step for what they hold.  Reading
a step gives the value found there.
-/
import ContractInterface.Xdr.Reader

namespace ContractInterface.Xdr

/-- What to read next. -/
inductive Step where
  | uint32
  | int32
  | uint64
  | int64
  | boolean
  /-- A byte string of a known length; none has a negative one. -/
  | fixed (length : Int)
  /-- A byte string behind its length. -/
  | counted (limit : Option Int)
  /-- A text behind its length, as UTF-8. -/
  | text (limit : Option Int)
  | optional (step : Step)
  | array (limit : Option Int) (step : Step)
  /-- Whether the end is reached. -/
  | atEnd
  /-- Nothing, at the end. -/
  | expectEnd
deriving DecidableEq, Repr

/-- What a step gives; a text is kept as its bytes unless another kind of text is given. -/
inductive Value (α : Type := Bytes) where
  | uint32 (n : UInt32)
  | int32 (n : Int32)
  | uint64 (n : UInt64)
  | int64 (n : Int64)
  | boolean (b : Bool)
  | bytes (bytes : Bytes)
  | text (content : α)
  | absent
  | present (value : Value α)
  | items (values : List (Value α))
  | nothing

namespace Step

/-- Reads the value of a step. -/
def read : Step → Reader Empty Value
  | .uint32 => .uint32 <$> Reader.uint32
  | .int32 => .int32 <$> Reader.int32
  | .uint64 => .uint64 <$> Reader.uint64
  | .int64 => .int64 <$> Reader.int64
  | .boolean => .boolean <$> Reader.boolean
  | .fixed (.ofNat length) => (.bytes ·.val) <$> Reader.fixed length
  | .fixed (.negSucc n) => do
    let c ← get
    Reader.fail (.unexpectedEnd (.negSucc n) c.offset c.remaining)
  | .counted limit => .bytes <$> Reader.counted limit
  | .text limit => .text <$> Reader.counted limit
  | .optional step => do
    match ← Reader.optional step.read with
    | some value => return .present value
    | none => return .absent
  | .array limit step => .items <$> Reader.array limit step.read
  | .atEnd => return .boolean (← get).isAtEnd
  | .expectEnd => do
    Reader.expectEnd
    return .nothing

end Step

end ContractInterface.Xdr
