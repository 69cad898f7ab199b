/-!
# Binary floating-point numbers

Exact 64-bit floating-point values: a finite number is a sign and `mantissa · 2 ^ exponent`.
`Binary64.nearest` rounds a fraction to the nearest value, a tie going to the even mantissa, and all
reading of decimals goes through it.
-/

namespace Scaffold

/-- A 64-bit floating-point number. In a finite one the mantissa is below `2 ^ 53`, and it is at
least `2 ^ 52` unless the exponent is the least one, `-1074`. -/
inductive Binary64
  | finite (negative : Bool) (mantissa : Nat) (exponent : Int)
  | infinite (negative : Bool)
  | nan
  deriving DecidableEq, Repr

namespace Binary64

def leastExponent : Int := -1074

def greatestExponent : Int := 971

/-- The fraction `num / den` divided by `2 ^ exponent`, as a fraction. -/
def scale (num den : Nat) (exponent : Int) : Nat × Nat :=
  if 0 ≤ exponent then (num, den * Nat.pow 2 exponent.toNat)
  else (num * Nat.pow 2 (-exponent).toNat, den)

/-- The natural number nearest to `num / den`, a tie going to the even one. -/
def roundHalfEven (num den : Nat) : Nat :=
  let quotient := num / den
  let twice := 2 * (num % den)
  if den < twice || (twice == den && quotient % 2 == 1) then quotient + 1 else quotient

/-- The exponent at which `num / den` has a mantissa of 53 bits, or the least one. -/
def exponentOf (num den : Nat) : Int :=
  let guess := max ((num.log2 : Int) - den.log2 - 53) leastExponent
  let scaled := scale num den guess
  if Nat.pow 2 53 ≤ scaled.1 / scaled.2 then guess + 1 else guess

/-- The value nearest to `num / den`, a tie going to the even mantissa. -/
def nearest (negative : Bool) (num den : Nat) : Binary64 :=
  if num = 0 then finite negative 0 leastExponent
  else
    let exponent := exponentOf num den
    let scaled := scale num den exponent
    let mantissa := roundHalfEven scaled.1 scaled.2
    let normal :=
      if mantissa = Nat.pow 2 53 then (Nat.pow 2 52, exponent + 1) else (mantissa, exponent)
    if greatestExponent < normal.2 then infinite negative
    else finite negative normal.1 normal.2

/-- The value nearest to `digits · 10 ^ exponent`. -/
def ofDecimal (negative : Bool) (digits : Nat) (exponent : Int) : Binary64 :=
  let magnitude := (digits.log2 : Int) * 3 / 10 + exponent
  if digits = 0 || magnitude < -400 then finite negative 0 leastExponent
  else if 400 < magnitude then infinite negative
  else if 0 ≤ exponent then nearest negative (digits * Nat.pow 10 exponent.toNat) 1
  else nearest negative digits (Nat.pow 10 (-exponent).toNat)

/-- The magnitude of a finite value as a fraction. -/
def magnitude (mantissa : Nat) (exponent : Int) : Nat × Nat :=
  if 0 ≤ exponent then (mantissa * Nat.pow 2 exponent.toNat, 1)
  else (mantissa, Nat.pow 2 (-exponent).toNat)

def isZero : Binary64 → Bool
  | finite _ mantissa _ => mantissa == 0
  | _ => false

/-- The value as an integer, if it is a whole number. -/
def toInt? : Binary64 → Option Int
  | finite negative mantissa exponent =>
    let (num, den) := magnitude mantissa exponent
    if num % den = 0 then some (if negative then -(num / den : Nat) else (num / den : Nat))
    else none
  | _ => none

/-- The value as a fraction with a sign, if it is finite. -/
def toFraction? : Binary64 → Option (Int × Nat)
  | finite negative mantissa exponent =>
    let (num, den) := magnitude mantissa exponent
    some (if negative then -(num : Int) else num, den)
  | _ => none

/-- The value nearest to a fraction with a sign. -/
def ofFraction (num : Int) (den : Nat) : Binary64 :=
  nearest (num < 0) num.natAbs den

/-- The value nearest to an integer. -/
def ofInt (n : Int) : Binary64 := ofFraction n 1

end Binary64

end Scaffold
