/-
# The shortest decimal text of a floating point number

The text has the fewest digits that read back as the number, and among those the digits nearest
to it.  A number is written positionally, with at least one digit after the point, as long as its
leading digit stands at most four places behind the point and at most sixteen before it, and
otherwise with an exponent of at least two digits.
-/
import ContractInterface.Binary64

namespace ContractInterface.Binary64

/-- The exponent `e` with `10 ^ e ≤ num / den < 10 ^ (e + 1)`, for a positive ratio. -/
def decimalExponent (num den : Nat) : Int :=
  if den ≤ num then (Nat.toDigits 10 (num / den)).length - 1
  else -(Nat.toDigits 10 ((den - 1) / num)).length

/-- The numbers that round to `significand · 2 ^ exponent`, in units of a quarter of
`2 ^ exponent`: the lower end, the upper end and whether the ends belong to them.  Below a power
of two the neighbour is only half as far. -/
def roundingInterval (significand : Nat) (exponent : Int) : Nat × Nat × Bool :=
  let below := if significand = leastNormal ∧ minExponent < exponent then 1 else 2
  (4 * significand - below, 4 * significand + 2, significand % 2 = 0)

/-- The multiple of `10 ^ place` nearest to `significand · 2 ^ exponent`, among the two
neighbours of it that read back as it, in units of `10 ^ place`. -/
def candidate? (significand : Nat) (exponent place : Int) : Option Nat :=
  let (low, high, closed) := roundingInterval significand exponent
  let (n, d) := scale 2 1 1 (2 - exponent)
  -- `n / d` is a quarter of a unit in the last binary place.
  let (valueNum, valueDen) := scale 10 (4 * significand * n) d place
  let (lowNum, _) := scale 10 (low * n) d place
  let (highNum, _) := scale 10 (high * n) d place
  let inside (c : Nat) : Bool :=
    let c := c * valueDen
    if closed then lowNum ≤ c && c ≤ highNum else lowNum < c && c < highNum
  let floor := valueNum / valueDen
  match inside floor, inside (floor + 1) with
  | true, true => some (roundDiv valueNum valueDen)
  | true, false => some floor
  | false, true => some (floor + 1)
  | false, false => none

/-- The digits of a positive finite number and the place of the last of them: the first grid of
1, 2, … 17 digits that has a point reading back as the number. -/
def shortestDigits (significand : Nat) (exponent : Int) : Nat × Int :=
  let (n, d) := scale 2 significand 1 (-exponent)
  let lead := decimalExponent n d
  let found := (List.range 17).findSome? fun (count : Nat) =>
    let place := lead - count
    (candidate? significand exponent place).map fun digits => (digits, place)
  found.getD (significand, exponent)

/-- Drops the zeros at the end of a number, and counts them to its place. -/
def dropZeros : (fuel : Nat) → Nat → Int → Nat × Int
  | 0, digits, place => (digits, place)
  | fuel + 1, digits, place =>
    if digits % 10 = 0 then dropZeros fuel (digits / 10) (place + 1) else (digits, place)

/-- The text of `digits · 10 ^ place`. -/
def positionalOrScientific (digits : Nat) (place : Int) : List Char :=
  let ds := Nat.toDigits 10 digits
  let lead := place + ds.length - 1
  if -4 ≤ lead ∧ lead < 16 then
    if lead < 0 then
      '0' :: '.' :: List.replicate (-lead - 1).toNat '0' ++ ds
    else if 0 ≤ place then ds ++ List.replicate place.toNat '0' ++ ['.', '0']
    else ds.take (lead + 1).toNat ++ '.' :: ds.drop (lead + 1).toNat
  else
    let mantissa := match ds with
      | [d] => [d]
      | d :: rest => d :: '.' :: rest
      | [] => []
    let size := Nat.toDigits 10 lead.natAbs
    mantissa ++ 'e' :: (if lead < 0 then '-' else '+') ::
      (List.replicate (2 - size.length) '0' ++ size)

/-- The text of a number. -/
def toText : Binary64 → String
  | .nan => "nan"
  | .infinite negative => if negative then "-inf" else "inf"
  | .finite negative significand exponent =>
    let body :=
      if significand = 0 then ['0', '.', '0']
      else
        let (digits, place) := shortestDigits significand exponent
        let (digits, place) := dropZeros 20 digits place
        positionalOrScientific digits place
    String.ofList (if negative then '-' :: body else body)

end ContractInterface.Binary64
