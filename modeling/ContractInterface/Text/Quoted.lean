/-
# Quoted text

A text as messages quote it: between single quotes, or between double quotes when it holds a
single quote and no double quote.  The backslash, the quote itself, the tab and the line breaks
are escaped with a backslash, and an unprintable character is given by its code point with two,
four or eight hexadecimal digits.  Bytes are quoted as the characters of ASCII that they are.
-/
import ContractInterface.Bytes.Hex
import ContractInterface.Text.Printable

namespace ContractInterface.Text

/-- One character inside the given quotes. -/
def quotedChar (quote c : Char) : List Char :=
  let n := c.toNat
  if c = quote || c = '\\' then ['\\', c]
  else if c = '\n' then ['\\', 'n']
  else if c = '\r' then ['\\', 'r']
  else if c = '\t' then ['\\', 't']
  else if isPrintable c then [c]
  else if n < 0x100 then '\\' :: 'x' :: Hex.digits 2 n
  else if n < 0x10000 then '\\' :: 'u' :: Hex.digits 4 n
  else '\\' :: 'U' :: Hex.digits 8 n

/-- The quote that characters are put between. -/
def quoteFor (chars : List Char) : Char :=
  if '\'' ∈ chars ∧ '"' ∉ chars then '"' else '\''

/-- The quoted form of a text. -/
def quoted (text : String) : String :=
  let chars := text.toList
  let quote := quoteFor chars
  String.ofList (quote :: chars.flatMap (quotedChar quote) ++ [quote])

/-- One byte inside the given quotes. -/
def quotedByte (quote : Char) (byte : UInt8) : List Char :=
  if byte < 0x80 then quotedChar quote (.ofNat byte.toNat)
  else '\\' :: 'x' :: Hex.digits 2 byte.toNat

/-- The quoted form of bytes. -/
def quotedBytes (bytes : Bytes) : String :=
  let quote := quoteFor (bytes.map fun byte => .ofNat byte.toNat)
  String.ofList ('b' :: quote :: bytes.flatMap (quotedByte quote) ++ [quote])

end ContractInterface.Text
