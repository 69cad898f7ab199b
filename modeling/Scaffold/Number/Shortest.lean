import Scaffold.Number.Binary64
import Scaffold.Text.Basic

/-!
# Shortest decimals

The text of a floating-point number: the fewest digits that read back as the same number and, of
those, the ones nearest to it. Numbers from `10 ^ -4` up to `10 ^ 16` are written positionally, the
others with an exponent of at least two digits.
-/

namespace Scaffold

namespace Binary64

/-- A decimal `0.d₁d₂… · 10 ^ point`, given by the number with the digits `d₁d₂…`. -/
structure Decimal where
  digits : Nat
  point : Int
  deriving DecidableEq, Repr

/-- Fractions compared by cross multiplication. -/
def fractionLt (a b : Nat × Nat) : Bool := a.1 * b.2 < b.1 * a.2

def fractionLe (a b : Nat × Nat) : Bool := a.1 * b.2 ≤ b.1 * a.2

/-- The fraction `digits · 10 ^ exponent`. -/
def decimalFraction (digits : Nat) (exponent : Int) : Nat × Nat :=
  if 0 ≤ exponent then (digits * Nat.pow 10 exponent.toNat, 1)
  else (digits, Nat.pow 10 (-exponent).toNat)

/-- Four times the lower end, the value and the upper end of the numbers that are nearest to
`mantissa`, in units of its last bit: the gap below a power of two is half as wide. -/
def interval (mantissa : Nat) (exponent : Int) : Nat × Nat :=
  (if mantissa = Nat.pow 2 52 && leastExponent < exponent then 4 * mantissa - 1 else 4 * mantissa - 2,
    4 * mantissa + 2)

/-- Whether a fraction rounds to `mantissa · 2 ^ exponent`. -/
def roundsTo (mantissa : Nat) (exponent : Int) (fraction : Nat × Nat) : Bool :=
  let (low, high) := interval mantissa exponent
  let lowEnd := magnitude low (exponent - 2)
  let highEnd := magnitude high (exponent - 2)
  if mantissa % 2 = 0 then fractionLe lowEnd fraction && fractionLe fraction highEnd
  else fractionLt lowEnd fraction && fractionLt fraction highEnd

/-- The least `k` with the value below `10 ^ k`, sought from a lower bound on. -/
def pointOf (value : Nat × Nat) : Int :=
  let guess := ((value.1.log2 : Int) - value.2.log2 - 1) * 30103 / 100000 - 1
  ([0, 1, 2, 3].findSome? fun (step : Nat) =>
    if fractionLt value (decimalFraction 1 (guess + step)) then some (guess + step) else none).getD
      (guess + 4)

/-- The neighbours of the value on the grid of `count` digits that round to it, the nearer one. -/
def onGrid (mantissa : Nat) (exponent : Int) (point : Int) (count : Nat) : Option Nat :=
  let value := magnitude mantissa exponent
  let unit := decimalFraction 1 (point - count)
  let scaled := (value.1 * unit.2, value.2 * unit.1)
  let below := scaled.1 / scaled.2
  let fits := fun digits => roundsTo mantissa exponent (decimalFraction digits (point - count))
  let nearer := roundHalfEven scaled.1 scaled.2
  if fits nearer then some nearer
  else if fits below then some below
  else if fits (below + 1) then some (below + 1)
  else none

/-- The shortest decimal that reads back as `mantissa · 2 ^ exponent`, for a positive mantissa. -/
def shortest (mantissa : Nat) (exponent : Int) : Decimal :=
  let point := pointOf (magnitude mantissa exponent)
  match (List.range 17).findSome? fun count =>
    (onGrid mantissa exponent point (count + 1)).map fun digits => (digits, count + 1) with
  | some (digits, count) => if digits = Nat.pow 10 count then ⟨1, point + 1⟩ else ⟨digits, point⟩
  | none => ⟨0, point⟩

/-- The text of a decimal: positional from `10 ^ -4` up to `10 ^ 16`. -/
def Decimal.text (decimal : Decimal) : Text :=
  let digits := Text.ofNat decimal.digits
  let count : Int := digits.length
  if -4 < decimal.point && decimal.point ≤ 16 then
    if decimal.point ≤ 0 then "0." ++ List.replicate (-decimal.point).toNat '0' ++ digits
    else if count ≤ decimal.point then
      digits ++ List.replicate (decimal.point - count).toNat '0' ++ ".0"
    else digits.take decimal.point.toNat ++ "." ++ digits.drop decimal.point.toNat
  else
    let power := decimal.point - 1
    let size := Text.ofNat power.natAbs
    let fraction : Text := if digits.length = 1 then [] else '.' :: digits.drop 1
    let sign : Text := if power < 0 then "-" else "+"
    let leading : Text := if size.length < 2 then "0" else []
    digits.take 1 ++ fraction ++ "e" ++ sign ++ leading ++ size

/-- The sign in front of a number. -/
def signText (negative : Bool) : Text := if negative then "-" else []

/-- The text of a number. -/
def text : Binary64 → Text
  | nan => "nan"
  | infinite negative => signText negative ++ "inf"
  | finite negative mantissa exponent =>
    if mantissa = 0 then signText negative ++ "0.0"
    else signText negative ++ (shortest mantissa exponent).text

end Binary64

end Scaffold
