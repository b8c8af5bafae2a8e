/-
# Base32

Eight characters for five bytes, over capitals and the digits 2 to 7.  Reading wants a text of
whole groups, padded with `=` by 0, 1, 3, 4 or 6 characters; the bits of the last group that
complete no byte are not looked at.
-/
import ContractInterface.Bytes

namespace ContractInterface.Base32

/-- The character of a value below 32. -/
def digit (value : Nat) : Char :=
  if value < 26 then Char.ofNat ('A'.toNat + value) else Char.ofNat ('2'.toNat + (value - 26))

/-- The value of a character of the alphabet. -/
def value? (c : Char) : Option Nat :=
  if 'A' ≤ c && c ≤ 'Z' then some (c.toNat - 'A'.toNat)
  else if '2' ≤ c && c ≤ '7' then some (c.toNat - '2'.toNat + 26)
  else none

/-- The lowest `count` base-32 digits of a number, most significant first. -/
def digitsOf : (count n : Nat) → List Char
  | 0, _ => []
  | count + 1, n => digitsOf count (n / 32) ++ [digit (n % 32)]

/-- The characters of a byte string, five bytes at a time; a last group of fewer bytes is filled
with zero bits and padded. -/
def encodeChars : Bytes → List Char
  | [] => []
  | [a] => digitsOf 2 (Bytes.toNat [a] * 4) ++ List.replicate 6 '='
  | [a, b] => digitsOf 4 (Bytes.toNat [a, b] * 16) ++ List.replicate 4 '='
  | [a, b, c] => digitsOf 5 (Bytes.toNat [a, b, c] * 2) ++ List.replicate 3 '='
  | [a, b, c, d] => digitsOf 7 (Bytes.toNat [a, b, c, d] * 8) ++ ['=']
  | a :: b :: c :: d :: e :: rest => digitsOf 8 (Bytes.toNat [a, b, c, d, e]) ++ encodeChars rest

/-- The padded text of a byte string. -/
def encode (bytes : Bytes) : String :=
  String.ofList (encodeChars bytes)

/-- Why a text is not base32. -/
inductive Defect where
  /-- A character outside ASCII. -/
  | notAscii
  /-- The length is no multiple of eight, or no group ends with that much padding. -/
  | incorrectPadding
  /-- An ASCII character that is no digit. -/
  | foreignCharacter
deriving DecidableEq, Repr

/-- The wording of a defect. -/
def Defect.message : Defect → String
  | .notAscii => "string argument should contain only ASCII characters"
  | .incorrectPadding => "Incorrect padding"
  | .foreignCharacter => "Non-base32 digit found"

/-- The bytes of a sequence of five-bit values, eight at a time; a shorter last group gives the
bytes that it completes. -/
def bytesOf : List Nat → Bytes
  | a :: b :: c :: d :: e :: f :: g :: h :: rest =>
    Bytes.ofNat 5 ([a, b, c, d, e, f, g, h].foldl (fun n value => n * 32 + value) 0) ++ bytesOf rest
  | values =>
    let bits := 5 * values.length
    let n := values.foldl (fun n value => n * 32 + value) 0
    Bytes.ofNat (bits / 8) (n >>> (bits % 8))

/-- The byte string of a padded text. -/
def decode (text : String) : Except Defect Bytes :=
  let chars := text.toList
  let padding := (chars.reverse.takeWhile (· = '=')).length
  let digits := chars.take (chars.length - padding)
  if chars.any (0x80 ≤ ·.toNat) then .error .notAscii
  else if chars.length % 8 ≠ 0 then .error .incorrectPadding
  else match digits.mapM value? with
    | none => .error .foreignCharacter
    | some values =>
      if padding ∈ [0, 1, 3, 4, 6] then .ok (bytesOf values) else .error .incorrectPadding

end ContractInterface.Base32
