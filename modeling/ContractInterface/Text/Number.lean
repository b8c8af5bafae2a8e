/-
# Numbers in texts

Integers and decimal fractions as people write them in settings and documents: with a sign, with
blanks around them, with single underscores between digits and in the digits of any script.
-/
import ContractInterface.Binary64
import ContractInterface.Text.Blank
import ContractInterface.Text.DecimalDigit

namespace ContractInterface.Text

/-- Whether a character may surround a number: a blank, but no information separator. -/
def mayPadNumber (c : Char) : Bool :=
  isBlank c && !(0x1C ≤ c.toNat && c.toNat ≤ 0x1F)

/-- The values of the digits at the front, and what follows them.  A single underscore may stand
between two digits; `after` says whether a digit stands just before. -/
def digitRun (after : Bool) : List Char → List Nat × List Char
  | [] => ([], [])
  | c :: rest =>
    match digitValue? c with
    | some value =>
      let (values, rest) := digitRun true rest
      (value :: values, rest)
    | none =>
      if after && c == '_' && ((rest.head?.bind digitValue?).isSome) then digitRun false rest
      else ([], c :: rest)

/-- The number that a sequence of decimal digits stands for. -/
def ofDigits (values : List Nat) : Nat :=
  values.foldl (fun n value => n * 10 + value) 0

/-- Takes a sign off the front: whether it is a minus, and what follows it. -/
def takeSign : List Char → Bool × List Char
  | '-' :: rest => (true, rest)
  | '+' :: rest => (false, rest)
  | rest => (false, rest)

/-- The integer that a text stands for. -/
def integer? (text : String) : Option Int :=
  let (negative, chars) := takeSign (trim mayPadNumber text.toList)
  match digitRun false chars with
  | ([], _) | (_, _ :: _) => none
  | (values, []) =>
    let size : Int := ofDigits values
    some (if negative then -size else size)

/-- An exponent at the front, zero if there is none, and what follows it. -/
def takeExponent? : List Char → Option (Int × List Char)
  | [] => some (0, [])
  | c :: rest =>
    if c = 'e' ∨ c = 'E' then
      let (negative, rest) := takeSign rest
      match digitRun false rest with
      | ([], _) => none
      | (values, rest) =>
        let size : Int := ofDigits values
        some (if negative then -size else size, rest)
    else some (0, c :: rest)

/-- A decimal fraction without its sign: digits, a point and digits, of which one of the two
groups may be missing, and an exponent. -/
def unsignedDecimal? (negative : Bool) (chars : List Char) : Option Binary64 := do
  let (whole, rest) := digitRun false chars
  let (fraction, rest) := match rest with
    | '.' :: rest => digitRun false rest
    | rest => ([], rest)
  if whole.isEmpty ∧ fraction.isEmpty then none
  let (exponent, rest) ← takeExponent? rest
  if rest.isEmpty then
    return Binary64.ofDecimal negative (ofDigits (whole ++ fraction)) (exponent - fraction.length)
  else none

/-- The number that a text stands for: a decimal fraction, or one of the words for infinity and
for no number, in any letter case. -/
def decimal? (text : String) : Option Binary64 :=
  let (negative, chars) := takeSign (trim mayPadNumber text.toList)
  let word := String.ofList (chars.map Char.toLower)
  if word = "inf" ∨ word = "infinity" then some (.infinite negative)
  else if word = "nan" then some .nan
  else unsignedDecimal? negative chars

end ContractInterface.Text
