/-
# Reading JSON

A text is first cut into tokens, and the tokens are then read by a machine that keeps the arrays
and objects still open on a stack.  Where a name occurs twice in an object the later value counts.
-/
import ContractInterface.Bytes.Hex
import ContractInterface.Json

namespace ContractInterface.Json

/-- A lexical element of a JSON text. -/
inductive Token where
  | openArray
  | closeArray
  | openObject
  | closeObject
  | comma
  | colon
  /-- A value that has no parts. -/
  | scalar (value : Json)
deriving Repr

/-- The value of four hexadecimal digits. -/
def readUnit? : List Char → Option (Nat × List Char)
  | a :: b :: c :: d :: rest => do
    let a ← Hex.value? a
    let b ← Hex.value? b
    let c ← Hex.value? c
    let d ← Hex.value? d
    return (((a * 16 + b) * 16 + c) * 16 + d, rest)
  | _ => none

/-- The character of a short escape. -/
def shortEscape? : Char → Option Char
  | '"' => some '"'
  | '\\' => some '\\'
  | '/' => some '/'
  | 'b' => some '\x08'
  | 'f' => some '\x0C'
  | 'n' => some '\n'
  | 'r' => some '\r'
  | 't' => some '\t'
  | _ => none

/-- The next character of a string and what follows it.  Two units of a surrogate pair are one
character, and half a pair is refused. -/
def readChar? : List Char → Option (Char × List Char)
  | '\\' :: 'u' :: rest => do
    let (unit, rest) ← readUnit? rest
    if 0xD800 ≤ unit ∧ unit < 0xDC00 then
      match rest with
      | '\\' :: 'u' :: rest =>
        let (low, rest) ← readUnit? rest
        if 0xDC00 ≤ low ∧ low < 0xE000 then
          return (Char.ofNat (0x10000 + (unit - 0xD800) * 0x400 + (low - 0xDC00)), rest)
        else none
      | _ => none
    else if 0xDC00 ≤ unit ∧ unit < 0xE000 then none
    else return (Char.ofNat unit, rest)
  | '\\' :: c :: rest => (shortEscape? c).map (·, rest)
  | '\\' :: [] => none
  | c :: rest => if c.toNat < 0x20 then none else some (c, rest)
  | [] => none

/-- The characters of a string up to its closing quote, and what follows the quote. -/
def readString? : (fuel : Nat) → List Char → Option (List Char × List Char)
  | _, '"' :: rest => some ([], rest)
  | 0, _ => none
  | fuel + 1, chars => do
    let (c, rest) ← readChar? chars
    let (cs, rest) ← readString? fuel rest
    return (c :: cs, rest)

/-- The number that a sequence of digits stands for. -/
def digitsValue (digits : List Char) : Nat :=
  digits.foldl (fun n c => n * 10 + (c.toNat - '0'.toNat)) 0

/-- An exponent: an optional sign and digits. -/
def readExponent? (chars : List Char) : Option (Int × List Char) :=
  let (negative, chars) := match chars with
    | '-' :: rest => (true, rest)
    | '+' :: rest => (false, rest)
    | rest => (false, rest)
  match chars.span Char.isDigit with
  | ([], _) => none
  | (digits, rest) =>
    some (if negative then -(digitsValue digits : Int) else digitsValue digits, rest)

/-- Whether a number is negative, and what follows its sign. -/
def readSign : List Char → Bool × List Char
  | '-' :: rest => (true, rest)
  | chars => (false, chars)

/-- The digits of a fraction, where a point begins one, and what follows them. -/
def readFraction? : List Char → Option (Option (List Char) × List Char)
  | '.' :: rest =>
    match rest.span Char.isDigit with
    | ([], _) => none
    | (digits, rest) => some (some digits, rest)
  | chars => some (none, chars)

/-- The exponent of a number, where a letter begins one, and what follows it. -/
def readScale? : List Char → Option (Option Int × List Char)
  | 'e' :: rest | 'E' :: rest => (readExponent? rest).map fun (e, rest) => (some e, rest)
  | chars => some (none, chars)

/-- The number of given digits: an integer unless it has a fraction or an exponent. -/
def numberOf (negative : Bool) (whole : List Char) (fraction : Option (List Char))
    (exponent : Option Int) : Json :=
  match fraction, exponent with
  | none, none =>
    let size : Int := digitsValue whole
    .int (if negative then -size else size)
  | fraction, exponent =>
    let digits := fraction.getD []
    .float (Binary64.ofDecimal negative (digitsValue (whole ++ digits))
      (exponent.getD 0 - digits.length))

/-- A number; zeros in front of others are refused. -/
def readNumber? (chars : List Char) : Option (Json × List Char) :=
  let (negative, chars) := readSign chars
  let (whole, chars) := chars.span Char.isDigit
  if whole.isEmpty ∨ (whole.head? = some '0' ∧ 1 < whole.length) then none
  else do
    let (fraction, chars) ← readFraction? chars
    let (exponent, chars) ← readScale? chars
    return (numberOf negative whole fraction exponent, chars)

/-- Takes a given word off the front. -/
def dropWord? : (word chars : List Char) → Option (List Char)
  | [], chars => some chars
  | w :: word, c :: chars => if w = c then dropWord? word chars else none
  | _ :: _, [] => none

/-- The next token and what follows it. -/
def readToken? : List Char → Option (Token × List Char)
  | '[' :: rest => some (.openArray, rest)
  | ']' :: rest => some (.closeArray, rest)
  | '\x7b' :: rest => some (.openObject, rest)
  | '\x7d' :: rest => some (.closeObject, rest)
  | ',' :: rest => some (.comma, rest)
  | ':' :: rest => some (.colon, rest)
  | '"' :: rest => do
    let (chars, rest) ← readString? rest.length rest
    return (.scalar (.str (String.ofList chars)), rest)
  | 'n' :: rest => (dropWord? ['u', 'l', 'l'] rest).map (.scalar .null, ·)
  | 't' :: rest => (dropWord? ['r', 'u', 'e'] rest).map (.scalar (.bool true), ·)
  | 'f' :: rest => (dropWord? ['a', 'l', 's', 'e'] rest).map (.scalar (.bool false), ·)
  | chars => (readNumber? chars).map fun (value, rest) => (.scalar value, rest)

/-- Whether a character may stand between tokens. -/
def isSpace (c : Char) : Bool :=
  c = ' ' || c = '\n' || c = '\r' || c = '\t'

/-- The tokens of a text. -/
def tokens? : (fuel : Nat) → List Char → Option (List Token)
  | _, [] => some []
  | 0, _ => none
  | fuel + 1, c :: rest =>
    if isSpace c then tokens? fuel rest
    else do
      let (token, rest) ← readToken? (c :: rest)
      let tokens ← tokens? fuel rest
      return token :: tokens

/-- An array or object that is still open, with what it holds so far, the latest item first. -/
inductive Frame where
  | array (items : List Json)
  /-- An object that waits for the value of the member `name`. -/
  | object (members : List (String × Json)) (name : String)
deriving Repr

/-- What the machine expects next. -/
inductive Expecting where
  /-- A value; `mayClose` where an array that has just been opened may end instead. -/
  | value (mayClose : Bool)
  /-- The name of a member of an object; `mayClose` as for values. -/
  | name (members : List (String × Json)) (mayClose : Bool)
  /-- The colon after a name. -/
  | colon (members : List (String × Json)) (name : String)
  /-- A separator, the end of the innermost open part or, where none is open, the end of the
  text, after a complete value. -/
  | after (value : Json)
deriving Repr

/-- The machine between two tokens: the open parts, the innermost first, and what comes next. -/
structure Machine where
  frames : List Frame
  expecting : Expecting
deriving Repr

/-- Reads one token. -/
def Machine.step? (m : Machine) (token : Token) : Option Machine :=
  match m.expecting, token, m.frames with
  | .value _, .scalar value, frames => some ⟨frames, .after value⟩
  | .value _, .openArray, frames => some ⟨.array [] :: frames, .value true⟩
  | .value _, .openObject, frames => some ⟨frames, .name [] true⟩
  | .value true, .closeArray, .array [] :: frames => some ⟨frames, .after (.arr [])⟩
  | .name members _, .scalar (.str name), frames => some ⟨frames, .colon members name⟩
  | .name [] true, .closeObject, frames => some ⟨frames, .after (.obj [])⟩
  | .colon members name, .colon, frames => some ⟨.object members name :: frames, .value false⟩
  | .after value, .comma, .array items :: frames =>
    some ⟨.array (value :: items) :: frames, .value false⟩
  | .after value, .closeArray, .array items :: frames =>
    some ⟨frames, .after (.arr (value :: items).reverse)⟩
  | .after value, .comma, .object members name :: frames =>
    some ⟨frames, .name (insertMember name value members) false⟩
  | .after value, .closeObject, .object members name :: frames =>
    some ⟨frames, .after (.obj (insertMember name value members))⟩
  | _, _, _ => none

/-- The value of a text that holds one. -/
def parse? (text : String) : Option Json := do
  let chars := text.toList
  let tokens ← tokens? chars.length chars
  match ← tokens.foldlM Machine.step? ⟨[], .value false⟩ with
  | ⟨[], .after value⟩ => some value
  | _ => none

end ContractInterface.Json
