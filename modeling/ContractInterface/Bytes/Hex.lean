/-
# Hexadecimal text

Two lowercase digits for each byte, high half first.  Reading accepts capitals too.
-/
import ContractInterface.Bytes

namespace ContractInterface.Hex

/-- The digit of a value below sixteen, in lowercase. -/
def digit (value : Nat) : Char :=
  if value < 10 then Char.ofNat ('0'.toNat + value) else Char.ofNat ('a'.toNat + (value - 10))

/-- The value of a hexadecimal digit. -/
def value? (c : Char) : Option Nat :=
  if '0' ≤ c && c ≤ '9' then some (c.toNat - '0'.toNat)
  else if 'a' ≤ c && c ≤ 'f' then some (c.toNat - 'a'.toNat + 10)
  else if 'A' ≤ c && c ≤ 'F' then some (c.toNat - 'A'.toNat + 10)
  else none

/-- The last `width` hexadecimal digits of a number. -/
def digits : (width n : Nat) → List Char
  | 0, _ => []
  | width + 1, n => digits width (n / 16) ++ [digit (n % 16)]

/-- A number with exactly `width` digits. -/
def ofNat (width n : Nat) : String :=
  String.ofList (digits width n)

/-- The text of a byte string. -/
def encode (bytes : Bytes) : String :=
  String.ofList (bytes.flatMap fun byte => digits 2 byte.toNat)

/-- The byte string of a text, if it consists of pairs of digits. -/
def decodeChars? : List Char → Option Bytes
  | [] => some []
  | [_] => none
  | high :: low :: rest => do
    let h ← value? high
    let l ← value? low
    let bytes ← decodeChars? rest
    return UInt8.ofNat (h * 16 + l) :: bytes

/-- The byte string of a text, if it consists of pairs of digits. -/
def decode? (text : String) : Option Bytes :=
  decodeChars? text.toList

end ContractInterface.Hex
