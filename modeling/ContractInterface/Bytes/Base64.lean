/-
# Base64

Four characters for three bytes, padded with `=` to a multiple of four.  Reading is strict: a
text with a foreign character, with a character after padding or with a group that padding does
not complete is refused, and the refusal says which of these it was.  Two liberties remain: the
unused bits of the last character are not looked at, and padding after a complete group is
allowed.
-/
import ContractInterface.Bytes

namespace ContractInterface.Base64

/-- The character of a value below 64. -/
def digit (value : Nat) : Char :=
  if value < 26 then Char.ofNat ('A'.toNat + value)
  else if value < 52 then Char.ofNat ('a'.toNat + (value - 26))
  else if value < 62 then Char.ofNat ('0'.toNat + (value - 52))
  else if value = 62 then '+' else '/'

/-- The value of a character of the alphabet. -/
def value? (c : Char) : Option Nat :=
  if 'A' ≤ c && c ≤ 'Z' then some (c.toNat - 'A'.toNat)
  else if 'a' ≤ c && c ≤ 'z' then some (c.toNat - 'a'.toNat + 26)
  else if '0' ≤ c && c ≤ '9' then some (c.toNat - '0'.toNat + 52)
  else if c = '+' then some 62
  else if c = '/' then some 63
  else none

/-- The four characters of three bytes; fewer bytes leave padding at the end. -/
def encodeChars : Bytes → List Char
  | [] => []
  | [a] =>
    let n := a.toNat * 16
    [digit (n / 64), digit (n % 64), '=', '=']
  | [a, b] =>
    let n := (a.toNat * 256 + b.toNat) * 4
    [digit (n / 4096), digit (n / 64 % 64), digit (n % 64), '=']
  | a :: b :: c :: rest =>
    let n := (a.toNat * 256 + b.toNat) * 256 + c.toNat
    digit (n / 262144) :: digit (n / 4096 % 64) :: digit (n / 64 % 64) :: digit (n % 64) ::
      encodeChars rest

/-- The padded text of a byte string. -/
def encode (bytes : Bytes) : String :=
  String.ofList (encodeChars bytes)

/-- Why a text is not base64. -/
inductive Defect where
  /-- A character outside ASCII, anywhere in the text. -/
  | notAscii
  /-- The text begins with padding. -/
  | leadingPadding
  /-- Characters after the padding that completed the last group. -/
  | excessAfterPadding
  /-- An ASCII character that is no digit. -/
  | foreignCharacter
  /-- A digit after padding. -/
  | discontinuousPadding
  /-- One digit is left over after complete groups; `digits` counts all digits. -/
  | loneDigit (digits : Nat)
  /-- The last group has two or three digits and too little padding. -/
  | incompletePadding
deriving DecidableEq, Repr

/-- The wording of a defect. -/
def Defect.message : Defect → String
  | .notAscii => "string argument should contain only ASCII characters"
  | .leadingPadding => "Leading padding not allowed"
  | .excessAfterPadding => "Excess data after padding"
  | .foreignCharacter => "Only base64 data is allowed"
  | .discontinuousPadding => "Discontinuous padding not allowed"
  | .loneDigit digits =>
    s!"Invalid base64-encoded string: number of data characters ({digits}) cannot be 1 more " ++
      "than a multiple of 4"
  | .incompletePadding => "Incorrect padding"

/-- What has been read so far: the number of digits, the padding characters that count towards
the open group, and whether any padding has been seen. -/
structure Progress where
  digits : Nat
  pads : Nat
  padded : Bool

/-- Reads the digits of a text, as values below 64. -/
def readDigits : Progress → List Char → Except Defect (List Nat)
  | s, [] =>
    match s.digits % 4 with
    | 0 => .ok []
    | 1 => .error (.loneDigit s.digits)
    | _ => .error .incompletePadding
  | s, '=' :: rest =>
    if s.digits % 4 < 2 then readDigits { s with padded := true } rest
    else if s.digits % 4 + s.pads + 1 < 4 then
      readDigits { s with pads := s.pads + 1, padded := true } rest
    else if rest.isEmpty then .ok [] else .error .excessAfterPadding
  | s, c :: rest =>
    match value? c with
    | none => .error .foreignCharacter
    | some value =>
      if s.padded then .error .discontinuousPadding
      else return value :: (← readDigits ⟨s.digits + 1, 0, false⟩ rest)

/-- The whole bytes that a sequence of six-bit values holds; bits that complete no byte are
dropped. -/
def bytesOf : List Nat → Bytes
  | a :: b :: c :: d :: rest =>
    let n := ((a * 64 + b) * 64 + c) * 64 + d
    UInt8.ofNat (n / 65536) :: UInt8.ofNat (n / 256) :: UInt8.ofNat n :: bytesOf rest
  | [a, b, c] =>
    let n := (a * 64 + b) * 64 + c
    [UInt8.ofNat (n / 1024), UInt8.ofNat (n / 4)]
  | [a, b] => [UInt8.ofNat ((a * 64 + b) / 16)]
  | _ => []

/-- The byte string of a text. -/
def decode (text : String) : Except Defect Bytes :=
  let chars := text.toList
  if chars.any (0x80 ≤ ·.toNat) then .error .notAscii
  else if chars.head? = some '=' then .error .leadingPadding
  else return bytesOf (← readDigits ⟨0, 0, false⟩ chars)

end ContractInterface.Base64
