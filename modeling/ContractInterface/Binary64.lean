/-
# Binary floating point numbers of 64 bits

A finite number is a significand below `2^53` times a power of two, in the one form where the
significand is at least `2^52` or the exponent is the smallest, `-1074`.  A rational number is
rounded to the nearest of them, a tie to the even significand, and beyond the largest to
infinity.
-/

namespace ContractInterface

/-- A binary floating point number of 64 bits; all numbers that are no numbers are one. -/
inductive Binary64 where
  | nan
  | infinite (negative : Bool)
  /-- The number `significand · 2 ^ exponent`, negated if `negative`. -/
  | finite (negative : Bool) (significand : Nat) (exponent : Int)
deriving DecidableEq, Repr

namespace Binary64

/-- The smallest exponent. -/
def minExponent : Int := -1074

/-- The largest exponent. -/
def maxExponent : Int := 971

/-- The quotient rounded to the nearest natural number, a tie to the even one. -/
def roundDiv (num den : Nat) : Nat :=
  let quotient := num / den
  let twice := 2 * (num % den)
  if twice < den ∨ (twice = den ∧ quotient % 2 = 0) then quotient else quotient + 1

/-- The numerator and denominator of `num / den / base ^ exponent`. -/
def scale (base num den : Nat) (exponent : Int) : Nat × Nat :=
  match exponent with
  | .ofNat e => (num, den * Nat.pow base e)
  | .negSucc e => (num * Nat.pow base (e + 1), den)

/-- The smallest significand of a number whose exponent is not the smallest. -/
def leastNormal : Nat := Nat.pow 2 52

/-- The number nearest to `num / den`, for a positive denominator. -/
def ofRatio (negative : Bool) (num den : Nat) : Binary64 :=
  if num = 0 then .finite negative 0 minExponent
  else
    let low := max ((num.log2 : Int) - den.log2 - 53) minExponent
    let (n, d) := scale 2 num den low
    let exponent := if 2 * leastNormal ≤ n / d then low + 1 else low
    let (n, d) := scale 2 num den exponent
    let significand := roundDiv n d
    let (significand, exponent) :=
      if significand = 2 * leastNormal then (leastNormal, exponent + 1) else (significand, exponent)
    if maxExponent < exponent then .infinite negative
    else .finite negative significand exponent

/-- The number nearest to `digits · 10 ^ exponent`.  Exponents that lead beyond the largest or
below half the smallest number are decided without computing the power. -/
def ofDecimal (negative : Bool) (digits : Nat) (exponent : Int) : Binary64 :=
  let magnitude := (Nat.toDigits 10 digits).length + exponent
  if digits = 0 ∨ magnitude < -330 then .finite negative 0 minExponent
  else if 320 < magnitude then .infinite negative
  else
    let (n, d) := scale 10 digits 1 (-exponent)
    ofRatio negative n d

/-- The number nearest to an integer. -/
def ofInt (n : Int) : Binary64 :=
  ofRatio (n < 0) n.natAbs 1

/-- The integer part of a finite number. -/
def truncate? : Binary64 → Option Int
  | .finite negative significand exponent =>
    let (n, d) := scale 2 significand 1 (-exponent)
    let size : Int := ((n / d : Nat) : Int)
    some (if negative then -size else size)
  | _ => none

/-- The size of a finite number, without its sign, as a quotient. -/
def size? : Binary64 → Option (Nat × Nat)
  | .finite _ significand exponent => some (scale 2 significand 1 (-exponent))
  | _ => none

/-- The number nearest to a multiple of a size. -/
def sizeTimes (x : Binary64) (factor : Nat) : Binary64 :=
  match x.size? with
  | some (n, d) => ofRatio false (n * factor) d
  | none => .infinite false

/-- The number nearest to the sum of two sizes, negated if `negative`. -/
def addSizes (negative : Bool) (x y : Binary64) : Binary64 :=
  match x.size?, y.size? with
  | some (m, d), some (n, e) => ofRatio negative (m * e + n * d) (d * e)
  | _, _ => .infinite negative

/-- Whether a finite number has a minus sign. -/
def isNegative : Binary64 → Bool
  | .finite negative _ _ => negative
  | _ => false

/-- Whether a number is zero, of either sign. -/
def isZero : Binary64 → Bool
  | .finite _ 0 _ => true
  | _ => false

end Binary64

end ContractInterface
