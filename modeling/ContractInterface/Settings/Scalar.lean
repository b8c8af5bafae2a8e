/-
# Scalars in settings

A scalar that is not quoted is read by its spelling: as nothing, as a truth value, as an integer
in one of five notations, as a fraction with a point, also of base 60, and otherwise as text.
-/
import ContractInterface.Bytes.Hex
import ContractInterface.Json
import ContractInterface.Text.Basic

namespace ContractInterface.Settings

/-- The spellings of a word in small letters, capitalized and in capitals. -/
def spellings (word : String) : List String :=
  [word, word.capitalize, String.ofList (word.toList.map Char.toUpper)]

/-- The value of a word that stands for nothing or for a truth value. -/
def word? (text : String) : Option Json :=
  if text ∈ "" :: "~" :: spellings "null" then some .null
  else if text ∈ ["yes", "true", "on"].flatMap spellings then some (.bool true)
  else if text ∈ ["no", "false", "off"].flatMap spellings then some (.bool false)
  else none

/-- The digits of a base that are below it, or none if another character occurs.  Underscores are
passed over. -/
def digitsIn? (base : Nat) (chars : List Char) : Option (List Nat) :=
  (chars.filter (· ≠ '_')).mapM fun c => (Hex.value? c).filter (· < base)

/-- The number that a sequence of digits stands for. -/
def numberOf (base : Nat) (digits : List Nat) : Nat :=
  digits.foldl (fun n digit => n * base + digit) 0

/-- A number in a base, with at least one digit. -/
def inBase? (base : Nat) (chars : List Char) : Option Nat :=
  match digitsIn? base chars with
  | some (digit :: digits) => some (numberOf base (digit :: digits))
  | _ => none

/-- The parts of a text between its colons. -/
def betweenColons (chars : List Char) : List (List Char) :=
  Text.splitAt ':' chars

/-- A part of a number of base 60 that is not the first: one or two digits, below 60. -/
def sixtieths? (part : List Char) : Option Nat :=
  if part.length ≤ 2 ∧ part.all Char.isDigit then (inBase? 10 part).filter (· < 60) else none

/-- A number of base 60: parts between colons. -/
def sexagesimal? (chars : List Char) : Option Nat := do
  match betweenColons chars with
  | first :: second :: rest =>
    let lead ← if first.head? = some '0' then none else inBase? 10 first
    let others ← (second :: rest).mapM sixtieths?
    return others.foldl (fun n part => n * 60 + part) lead
  | _ => none

/-- An integer without its sign. -/
def unsigned? : List Char → Option Nat
  | '0' :: 'b' :: rest => inBase? 2 rest
  | '0' :: 'x' :: rest => inBase? 16 rest
  | '0' :: rest => inBase? 8 ('0' :: rest)
  | c :: rest =>
    if c.isDigit then (inBase? 10 (c :: rest)) <|> sexagesimal? (c :: rest) else none
  | [] => none

/-- The exponent of a fraction, which has to be signed. -/
def exponent? : List Char → Option Int
  | [] => some 0
  | e :: sign :: digits =>
    if (e = 'e' ∨ e = 'E') ∧ digits.all Char.isDigit then
      match sign, inBase? 10 digits with
      | '+', some n => some n
      | '-', some n => some (-n)
      | _, _ => none
    else none
  | _ => none

/-- A fraction without its sign: a point, digits around it and an exponent.  The first character
is a digit, or the point, which then has a digit after it. -/
def fraction? (negative : Bool) (chars : List Char) : Option Binary64 := do
  let isPart (c : Char) : Bool := c.isDigit || c == '_'
  let (whole, rest) := chars.span isPart
  let (decimals, rest) ← match rest with
    | '.' :: rest => some (rest.span isPart)
    | _ => none
  let lead := if whole.isEmpty then decimals.head? else whole.head?
  if !(lead.any Char.isDigit) then none
  let exponent ← exponent? rest
  let whole ← digitsIn? 10 whole
  let decimals ← digitsIn? 10 decimals
  return Binary64.ofDecimal negative (numberOf 10 (whole ++ decimals))
    (exponent - decimals.length)

/-- A fraction of base 60 without its sign: parts between colons, the last with a point.  The parts
are added from the last on; every part, every multiple and every sum is rounded. -/
def sexagesimalFraction? (negative : Bool) (chars : List Char) : Option Binary64 := do
  match (betweenColons chars).reverse with
  | last :: before =>
    let (units, decimals) := last.span (· ≠ '.')
    if decimals.isEmpty ∨ before.isEmpty then none
    let decimals ← digitsIn? 10 (decimals.drop 1)
    let units ← sixtieths? units
    let others ← before.dropLast.mapM sixtieths?
    let lead ← before.getLast?.filter (·.head?.any Char.isDigit)
    let lead ← inBase? 10 lead
    let start := Binary64.ofDecimal negative (numberOf 10 (units :: decimals)) (-decimals.length)
    let add (sum : Binary64 × Nat) (part : Nat) : Binary64 × Nat :=
      (sum.1.addSizes negative ((Binary64.ofInt part).sizeTimes sum.2), sum.2 * 60)
    return ((others ++ [lead]).foldl add (start, 60)).1
  | [] => none

/-- The words for infinity and for no number. -/
def special? (negative signed : Bool) (chars : List Char) : Option Binary64 :=
  let text := String.ofList chars
  if text ∈ [".inf", ".Inf", ".INF"] then some (.infinite negative)
  else if !signed ∧ text ∈ [".nan", ".NaN", ".NAN"] then some .nan
  else none

/-- A number. -/
def number? (text : String) : Option Json :=
  let (signed, negative, chars) := match text.toList with
    | '-' :: rest => (true, true, rest)
    | '+' :: rest => (true, false, rest)
    | rest => (false, false, rest)
  match unsigned? chars with
  | some n => some (.int (if negative then -n else n))
  | none =>
    -- A fraction that begins with its point takes no sign.
    if signed ∧ chars.head? = some '.' then (special? negative signed chars).map .float
    else
      let value := (fraction? negative chars) <|> sexagesimalFraction? negative chars <|>
        special? negative signed chars
      value.map .float

/-- The value of a scalar that is not quoted. -/
def plainScalar (text : String) : Json :=
  ((word? text) <|> number? text).getD (.str text)

end ContractInterface.Settings
