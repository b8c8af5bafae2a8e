/-
# UTF-8

A byte string is cut into pieces: the characters of well-formed sequences, and between them the
ill-formed parts, each as long as it could still have begun a well-formed sequence and otherwise
one byte.  The cutting is a machine that looks at one byte at a time.  Lossy reading puts one
replacement character in the place of each ill-formed part; strict reading names the first.
-/
import ContractInterface.Bytes.Hex

namespace ContractInterface.Utf8

/-- The bytes of a text. -/
def encode (text : String) : Bytes :=
  text.toList.flatMap String.utf8EncodeChar

/-- Why a part of a byte string is ill-formed. -/
inductive Reason where
  /-- The byte begins no sequence. -/
  | invalidStart
  /-- The byte after the part does not continue it. -/
  | invalidContinuation
  /-- The byte string ends inside a sequence. -/
  | unexpectedEnd
deriving DecidableEq, Repr

/-- The wording of a reason. -/
def Reason.message : Reason → String
  | .invalidStart => "invalid start byte"
  | .invalidContinuation => "invalid continuation byte"
  | .unexpectedEnd => "unexpected end of data"

/-- A piece of a byte string. -/
inductive Piece where
  /-- A well-formed sequence, as the character it stands for. -/
  | char (c : Char)
  /-- An ill-formed part, by its first byte and its length. -/
  | illFormed (first : UInt8) (length : Nat) (reason : Reason)
deriving DecidableEq, Repr

/-- The number of bytes that a piece takes. -/
def Piece.size : Piece → Nat
  | .char c => c.utf8Size
  | .illFormed _ length _ => length

/-- Where the machine stands between two bytes: between two pieces, or inside a sequence that
began with `first`, of which `read` bytes are read and `owed + 1` are still owed, the next one
between `low` and `high`; `value` collects the bits of the character. -/
inductive State where
  | between
  | inside (first : UInt8) (read owed : Nat) (low high : UInt8) (value : Nat)
deriving DecidableEq, Repr

/-- The pieces ended by a byte that stands between two pieces, and where the machine goes. -/
def start (byte : UInt8) : List Piece × State :=
  let n := byte.toNat
  if byte < 0x80 then ([.char (Char.ofNat n)], .between)
  else if byte < 0xC2 then ([.illFormed byte 1 .invalidStart], .between)
  else if byte < 0xE0 then ([], .inside byte 1 0 0x80 0xBF (n % 32))
  else if byte = 0xE0 then ([], .inside byte 1 1 0xA0 0xBF (n % 16))
  else if byte = 0xED then ([], .inside byte 1 1 0x80 0x9F (n % 16))
  else if byte < 0xF0 then ([], .inside byte 1 1 0x80 0xBF (n % 16))
  else if byte = 0xF0 then ([], .inside byte 1 2 0x90 0xBF (n % 8))
  else if byte = 0xF4 then ([], .inside byte 1 2 0x80 0x8F (n % 8))
  else if byte < 0xF4 then ([], .inside byte 1 2 0x80 0xBF (n % 8))
  else ([.illFormed byte 1 .invalidStart], .between)

/-- The pieces ended by one byte, and where the machine goes.  A byte that does not continue the
open sequence ends it as ill-formed and is then looked at anew. -/
def step : State → UInt8 → List Piece × State
  | .between, byte => start byte
  | .inside first read owed low high value, byte =>
    if low ≤ byte ∧ byte ≤ high then
      let value := value * 64 + byte.toNat % 64
      match owed with
      | 0 => ([.char (Char.ofNat value)], .between)
      | owed + 1 => ([], .inside first (read + 1) owed 0x80 0xBF value)
    else
      let (pieces, state) := start byte
      (.illFormed first read .invalidContinuation :: pieces, state)

/-- The pieces of a byte string, from a state of the machine on. -/
def piecesFrom : State → Bytes → List Piece
  | .between, [] => []
  | .inside first read _ _ _ _, [] => [.illFormed first read .unexpectedEnd]
  | state, byte :: bytes =>
    let (pieces, state) := step state byte
    pieces ++ piecesFrom state bytes

/-- The pieces of a byte string, in order. -/
def pieces (bytes : Bytes) : List Piece :=
  piecesFrom .between bytes

/-- The text of a byte string, with one replacement character for each ill-formed part. -/
def decodeLossy (bytes : Bytes) : String :=
  String.ofList ((pieces bytes).map fun
    | .char c => c
    | .illFormed .. => '\uFFFD')

/-- The first ill-formed part of a byte string, and where it stands. -/
structure Defect where
  position : Nat
  first : UInt8
  length : Nat
  reason : Reason
deriving DecidableEq, Repr

/-- The wording of a defect; a part of several bytes is given by its first and last position. -/
def Defect.message (d : Defect) : String :=
  let part :=
    if d.length = 1 then s!"byte 0x{Hex.ofNat 2 d.first.toNat} in position {d.position}"
    else s!"bytes in position {d.position}-{d.position + d.length - 1}"
  "'utf-8' codec can't decode " ++ part ++ ": " ++ d.reason.message

/-- The characters of a sequence of pieces that begins at a position. -/
def charsOf : (position : Nat) → List Piece → Except Defect (List Char)
  | _, [] => .ok []
  | position, .char c :: rest => return c :: (← charsOf (position + c.utf8Size) rest)
  | position, .illFormed first length reason :: _ => .error ⟨position, first, length, reason⟩

/-- The text of a byte string that is well-formed throughout. -/
def decode (bytes : Bytes) : Except Defect String :=
  return String.ofList (← charsOf 0 (pieces bytes))

end ContractInterface.Utf8
