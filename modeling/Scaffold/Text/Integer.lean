import Scaffold.Text.Digit

/-!
# Integers in texts

An integer is written with decimal digits of any script, one underscore at most between two of them,
an optional sign in front and blanks around.
-/

namespace Scaffold

namespace Text

/-- The most digits that an integer may have. -/
def digitLimit : Nat := 4300

/-- The digits of a run, single underscores between them left out. -/
def digitRun? : Text → Option (List Nat)
  | [] => none
  | [c] => (digitValue? c).map ([·])
  | c :: '_' :: rest => do some ((← digitValue? c) :: (← digitRun? rest))
  | c :: next :: rest => do some ((← digitValue? c) :: (← digitRun? (next :: rest)))

/-- The number that digits stand for. -/
def numberOf (digits : List Nat) : Nat := digits.foldl (fun value digit => value * 10 + digit) 0

/-- The number without a sign that a text stands for. -/
def toNat? (text : Text) : Option Nat :=
  ((digitRun? text).filter fun digits => digits.length ≤ digitLimit).map numberOf

/-- The information separators, the only blanks that may not stand around an integer. -/
def isInformationMark (c : Char) : Bool := 0x1c ≤ c.toNat && c.toNat ≤ 0x1f

/-- Whether a minus sign stands in front, and what follows the sign and the blanks. -/
def signed? (text : Text) : Option (Bool × Text) :=
  if text.any isInformationMark then none
  else match text.trim with
    | '-' :: digits => some (true, digits)
    | '+' :: digits => some (false, digits)
    | digits => some (false, digits)

/-- An integer of a sign and a size. -/
def signedNumber (negative : Bool) (size : Nat) : Int := if negative then -(size : Int) else size

/-- The integer that a text stands for. -/
def toInt? (text : Text) : Option Int := do
  let (negative, digits) ← signed? text
  return signedNumber negative (← toNat? digits)

end Text

end Scaffold
