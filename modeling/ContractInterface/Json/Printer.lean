/-
# JSON text

A value is written in one line, or with each item and member on a line of its own, indented by a
number of blanks for each level.  Strings are written in ASCII: a character outside it, and a
control character without a short escape, is given by its UTF-16 units in hexadecimal.
-/
import ContractInterface.Binary64.Shortest
import ContractInterface.Bytes.Hex
import ContractInterface.Json

namespace ContractInterface.Json

/-- One UTF-16 unit as an escape. -/
def unitEscape (unit : Nat) : List Char :=
  '\\' :: 'u' :: Hex.digits 4 unit

/-- One character inside a string. -/
def escapeChar (c : Char) : List Char :=
  let n := c.toNat
  if c = '"' then ['\\', '"']
  else if c = '\\' then ['\\', '\\']
  else if c = '\n' then ['\\', 'n']
  else if c = '\r' then ['\\', 'r']
  else if c = '\t' then ['\\', 't']
  else if n = 0x08 then ['\\', 'b']
  else if n = 0x0C then ['\\', 'f']
  else if n < 0x20 then unitEscape n
  else if n < 0x7F then [c]
  else if n < 0x10000 then unitEscape n
  else
    unitEscape (0xD800 + (n - 0x10000) / 0x400) ++ unitEscape (0xDC00 + (n - 0x10000) % 0x400)

/-- A string with its quotes. -/
def writeString (text : String) : List Char :=
  '"' :: text.toList.flatMap escapeChar ++ ['"']

/-- A floating point number; infinities and the value that is no number have names. -/
def writeFloat : Binary64 → List Char
  | .nan => "NaN".toList
  | .infinite negative => (if negative then "-Infinity" else "Infinity").toList
  | x => x.toText.toList

/-- How the parts of an array or object are set out. -/
inductive Layout where
  /-- All in one line. -/
  | inline
  /-- Each part on its own line, indented by `width` blanks for each level. -/
  | lines (width : Nat)
deriving DecidableEq, Repr

/-- What stands before the part of an array or object at a level: nothing, or a new line. -/
def Layout.lineBreak : Layout → (level : Nat) → List Char
  | .inline, _ => []
  | .lines width, level => '\n' :: List.replicate (width * level) ' '

/-- What stands between two parts at a level. -/
def Layout.separator : Layout → (level : Nat) → List Char
  | .inline, _ => [',', ' ']
  | .lines width, level => ',' :: (Layout.lines width).lineBreak level

mutual

/-- The text of a value at a level of nesting, in front of what follows it. -/
def write (layout : Layout) (level : Nat) (value : Json) (rest : List Char) : List Char :=
  match value with
  | .null => "null".toList ++ rest
  | .bool true => "true".toList ++ rest
  | .bool false => "false".toList ++ rest
  | .int n => (toString n).toList ++ rest
  | .float x => writeFloat x ++ rest
  | .str text => writeString text ++ rest
  | .arr [] => '[' :: ']' :: rest
  | .arr (item :: items) =>
    '[' :: (layout.lineBreak (level + 1) ++
      write layout (level + 1) item (writeItems layout (level + 1) items
        (layout.lineBreak level ++ ']' :: rest)))
  | .obj [] => '\x7b' :: '\x7d' :: rest
  | .obj ((name, value) :: members) =>
    '\x7b' :: (layout.lineBreak (level + 1) ++ writeString name ++ ':' :: ' ' ::
      write layout (level + 1) value (writeMembers layout (level + 1) members
        (layout.lineBreak level ++ '\x7d' :: rest)))

/-- The items of an array after the first, each behind its separator, in front of what follows. -/
def writeItems (layout : Layout) (level : Nat) (items : List Json) (rest : List Char) :
    List Char :=
  match items with
  | [] => rest
  | item :: items =>
    layout.separator level ++ write layout level item (writeItems layout level items rest)

/-- The members of an object after the first, each behind its separator, in front of what
follows. -/
def writeMembers (layout : Layout) (level : Nat) (members : List (String × Json))
    (rest : List Char) : List Char :=
  match members with
  | [] => rest
  | (name, value) :: members =>
    layout.separator level ++ writeString name ++ ':' :: ' ' ::
      write layout level value (writeMembers layout level members rest)

end

/-- The text of a value. -/
def render (layout : Layout) (value : Json) : String :=
  String.ofList (write layout 0 value [])

end ContractInterface.Json
