import Scaffold.Document.Json
import Scaffold.Text.Integer
import Scaffold.Text.LetterCase

/-!
# Fields of a form

Reading the fields of a mapping into typed values. Numbers and truth values are also taken from
other kinds of values that clearly stand for them. A reading is refused with the faults of all its
fields in order.
-/

namespace Scaffold

/-- Why a value is refused for a field. -/
inductive FieldFault
  | missing
  | notMapping
  | notText
  | notList
  | notInteger
  | integerUnreadable
  | integerFractional
  | integerInfinite
  | integerLong
  | notBool
  | boolUnreadable
  deriving DecidableEq

/-- The message for a fault. -/
def FieldFault.message : FieldFault → Text
  | missing => "Field required"
  | notMapping => "Input should be a valid dictionary or object to extract fields from"
  | notText => "Input should be a valid string"
  | notList => "Input should be a valid list"
  | notInteger => "Input should be a valid integer"
  | integerUnreadable => "Input should be a valid integer, unable to parse string as an integer"
  | integerFractional => "Input should be a valid integer, got a number with a fractional part"
  | integerInfinite => "Input should be a finite number"
  | integerLong => "Unable to parse input string as an integer, exceeded maximum size"
  | notBool => "Input should be a valid boolean"
  | boolUnreadable => "Input should be a valid boolean, unable to interpret input"

/-- A fault with the keys and positions that lead to its field. -/
structure Blame where
  place : List Text
  fault : FieldFault

/-- The same fault seen from one step further out. -/
def Blame.under (name : Text) (blame : Blame) : Blame := { blame with place := name :: blame.place }

/-- A value that has been read, or the faults of its fields. -/
abbrev Checked (α : Type) := Except (List Blame) α

namespace Checked

variable {α β : Type}

/-- Accepts a value. -/
def accept (a : α) : Checked α := .ok a

/-- Refuses a value. -/
def refuse (fault : FieldFault) : Checked α := .error [⟨[], fault⟩]

/-- Gives a function one more argument. The faults of both count. -/
def apply : Checked (α → β) → Checked α → Checked β
  | .ok f, .ok a => .ok (f a)
  | .error faults, .ok _ => .error faults
  | .ok _, .error faults => .error faults
  | .error first, .error second => .error (first ++ second)

/-- The reading of what stands under a key or at a position. -/
def under (name : Text) (checked : Checked α) : Checked α :=
  checked.mapError fun blames => blames.map (·.under name)

/-- The values of all readings. -/
def all : List (Checked α) → Checked (List α)
  | [] => accept []
  | first :: rest => ((accept List.cons).apply first).apply (all rest)

end Checked

/-- Reads the field that has one of the given names, the first one that is there counting. -/
def checkField {α : Type} (names : List Text) (default : α) (check : Value → Checked α)
    (fields : Fields) : Checked α :=
  match names.findSome? fun name => (Fields.get? fields name).map fun value => (name, value) with
  | none => .ok default
  | some (name, value) => (check value).under name

/-- Reads a mapping. -/
def checkMapping {α : Type} (check : Fields → Checked α) : Value → Checked α
  | .map fields => check fields
  | _ => .refuse .notMapping

/-- Reads a text. -/
def checkText : Value → Checked Text
  | .scalar (.text text) => .ok text
  | _ => .refuse .notText

/-! ## Integers -/

/-- The bound on whole numbers that are taken from a number with a point. -/
def wholeBound : Nat := Nat.pow 2 63

/-- The integer that a number with a point stands for. -/
def checkWhole (number : Binary64) : Checked Int :=
  match number, number.toInt? with
  | .finite .., some n => if n.natAbs < wholeBound then .ok n else .refuse .integerLong
  | .finite .., none => .refuse .integerFractional
  | _, _ => .refuse .integerInfinite

def isAsciiDigit (c : Char) : Bool := '0' ≤ c && c ≤ '9'

/-- The integer that a text in its strict form stands for: a minus sign or none, and digits that do
not start with a zero unless it is the only one. Too many digits are refused whatever follows. -/
def checkStrictInteger (text : Text) : Checked Int :=
  let (negative, unsigned) := match text with
    | '-' :: rest => (true, rest)
    | _ => (false, text)
  let digits := unsigned.takeWhile isAsciiDigit
  let isWhole := digits.length = unsigned.length
  match digits with
  | [] => .refuse .integerUnreadable
  | ['0'] => if isWhole then .ok 0 else .refuse .integerUnreadable
  | '0' :: _ => .refuse .integerUnreadable
  | _ =>
    if Text.digitLimit < digits.length then .refuse .integerLong
    else if isWhole then .ok (Text.signedNumber negative (Json.digitsValue digits))
    else .refuse .integerUnreadable

/-- What may stand around an integer: blanks, but not the information separators. -/
def isSurrounding (c : Char) : Bool := isBlank c && !Text.isInformationMark c

/-- A text without blanks around it. -/
def withoutSurroundings (text : Text) : Text :=
  ((text.dropWhile isSurrounding).reverse.dropWhile isSurrounding).reverse

/-- A text without a plus sign in front, which no other sign may follow. -/
def withoutPlus? : Text → Option Text
  | '+' :: '-' :: _ => none
  | '+' :: rest => some rest
  | text => some text

/-- Whether a number without zeros in front may start with a character. -/
def startsCounting (c : Char) : Bool := c == '-' || ('1' ≤ c && c ≤ '9')

/-- What is left of a number behind zeros and underscores, `last` being the last one of them. It is
kept in front of a point, and where nothing follows. -/
def behindZeros? (last : Char) : Text → Option Text
  | [] => some [last]
  | c :: rest =>
    if c == '0' || c == '_' then behindZeros? c rest
    else if startsCounting c then some (c :: rest)
    else if c == '.' then some (last :: c :: rest)
    else none

/-- A number without zeros in front. -/
def withoutZeros? : Text → Option Text
  | [] => none
  | c :: rest =>
    if c == '0' then behindZeros? c rest
    else if startsCounting c then some (c :: rest)
    else none

/-- A number without a point and zeros at its end. -/
def withoutZeroFraction (text : Text) : Text :=
  let whole := text.takeWhile (· != '.')
  match text.drop (whole.length + 1) with
  | [] => text
  | fraction => if fraction.all (· == '0') then whole else text

/-- A number without single underscores between its other characters. -/
def withoutUnderscores (text : Text) : Text :=
  let isMisplaced := text.head? == some '_' || text.getLast? == some '_' || Text.occursIn "__" text
  if isMisplaced then text else text.filter (· != '_')

/-- The strict form of an integer that is written more freely. A minus sign in front stays. -/
def strictForm? (text : Text) : Option Text := do
  let signed ← withoutPlus? (withoutSurroundings text)
  let (sign, digits) : Text × Text := match signed with
    | '-' :: rest => (['-'], rest)
    | _ => ([], signed)
  return sign ++ withoutUnderscores (withoutZeroFraction (← withoutZeros? digits))

/-- The integer that a text stands for: as it is, or else in its strict form. Only a text that has
too many digits as it is counts as too long. -/
def checkIntegerText (text : Text) : Checked Int :=
  match checkStrictInteger text with
  | .error [⟨[], .integerUnreadable⟩] =>
    match (strictForm? text).map checkStrictInteger with
    | some (.ok n) => .ok n
    | _ => .refuse .integerUnreadable
  | checked => checked

/-- Reads an integer. Truth values count as zero and one. -/
def checkInteger : Value → Checked Int
  | .scalar (.int n) => .ok n
  | .scalar (.bool value) => .ok (if value then 1 else 0)
  | .scalar (.float number) => checkWhole number
  | .scalar (.text text) => checkIntegerText text
  | _ => .refuse .notInteger

/-- Reads a list of integers. -/
def checkIntegers : Value → Checked (List Int)
  | .list items => .all (items.zipIdx.map fun item =>
      (checkInteger item.1).under (Text.ofNat item.2))
  | _ => .refuse .notList

/-! ## Truth values -/

/-- The words for true, in any case of letters. -/
def trueWords : List Text := ["1", "t", "y", "on", "yes", "true"]

/-- The words for false, in any case of letters. -/
def falseWords : List Text := ["0", "f", "n", "no", "off", "false"]

/-- The small letter of an ASCII capital. -/
def asciiLower (c : Char) : Char := if c.isUpper then c.toLower else c

/-- The truth value of a number. -/
def checkBit (n : Int) : Checked Bool :=
  if n = 0 then .ok false else if n = 1 then .ok true else .refuse .boolUnreadable

/-- The truth value of a word. -/
def checkBoolText (text : Text) : Checked Bool :=
  let word := text.map asciiLower
  if trueWords.contains word then .ok true
  else if falseWords.contains word then .ok false
  else .refuse .boolUnreadable

/-- Reads a truth value. Numbers that are not whole, or too big to tell, are none. -/
def checkBool : Value → Checked Bool
  | .scalar (.bool value) => .ok value
  | .scalar (.int n) =>
    if -(wholeBound : Int) ≤ n && n < wholeBound then checkBit n else .refuse .notBool
  | .scalar (.float number) =>
    match checkWhole number with
    | .ok n => checkBit n
    | .error _ => .refuse .notBool
  | .scalar (.text text) => checkBoolText text
  | _ => .refuse .notBool

end Scaffold
