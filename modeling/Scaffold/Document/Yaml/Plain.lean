import Scaffold.Document.Json

/-!
# Plain scalars

What a scalar without quotes stands for: null, a truth value, an integer, a floating-point number, a
date, or else the text itself. Integers may be binary, octal, hexadecimal or sexagesimal.
-/

namespace Scaffold

namespace Yaml

/-- Why a text is refused. -/
inductive Fault
  | malformed
  | value (fault : ValueFault)
  deriving DecidableEq

/-- The words for null. -/
def nullWords : List Text := [[], "~", "null", "Null", "NULL"]

/-- The words for truth values, in small letters. -/
def truthWords : List (Text × Bool) :=
  [("yes", true), ("no", false), ("true", true), ("false", false), ("on", true), ("off", false)]

/-- A word in small letters, with a capital, or in capitals. -/
def casings (word : Text) : List Text :=
  let capitals := word.map Char.toUpper
  [word, capitals.take 1 ++ word.drop 1, capitals]

/-- The truth value that a word stands for. -/
def truth? (text : Text) : Option Bool :=
  (truthWords.find? fun word => (casings word.1).contains text).map (·.2)

def isDigit (c : Char) : Bool := '0' ≤ c && c ≤ '9'

def isDigitOrUnderscore (c : Char) : Bool := isDigit c || c == '_'

/-- Whether all characters belong to a class, and there is one. -/
def isRun (accepts : Char → Bool) (text : Text) : Bool := !text.isEmpty && text.all accepts

/-- Whether a text is a digit other than zero with digits and underscores behind it. -/
def isCounted : Text → Bool
  | [] => false
  | c :: rest => isDigit c && c != '0' && rest.all isDigitOrUnderscore

/-- Whether a text is a digit with digits and underscores behind it. -/
def isDecimal : Text → Bool
  | [] => false
  | c :: rest => isDigit c && rest.all isDigitOrUnderscore

/-- Whether a text is a number of minutes or seconds: one digit, or two below sixty. -/
def isSixtieth : Text → Bool
  | [c] => isDigit c
  | [c, d] => '0' ≤ c && c ≤ '5' && isDigit d
  | _ => false

/-- A sign at the start of a text. -/
def splitSign : Text → Bool × Text
  | '-' :: rest => (true, rest)
  | '+' :: rest => (false, rest)
  | text => (false, text)

/-- The number that digits stand for, to the given base. -/
def valueIn (base : Nat) (digits : Text) : Nat :=
  digits.foldl (fun value c => value * base + (Json.hexValue? c).getD 0) 0

/-- The number that digits to a base stand for. -/
def based (base : Nat) (digits : Text) : Except Fault Nat :=
  if digits.isEmpty then .error (.value (.noDigits base)) else .ok (valueIn base digits)

/-- The number that decimal digits stand for. -/
def decimal (digits : Text) : Except Fault Nat :=
  if Text.digitLimit < digits.length then .error (.value (.longNumber digits.length))
  else .ok (valueIn 10 digits)

/-- The number of units that parts in sixtieths stand for. -/
def sexagesimal (parts : List Text) : Except Fault Nat :=
  parts.foldlM (fun value part => (decimal part).map (value * 60 + ·)) 0

def withoutUnderscores (text : Text) : Text := text.filter (· != '_')

/-- The magnitude of an integer without its sign, none if the text is no integer. -/
def natural? (text : Text) : Option (Except Fault Nat) :=
  let digits := withoutUnderscores text
  match text with
  | '0' :: 'b' :: rest =>
    if isRun (fun c => c == '0' || c == '1' || c == '_') rest then
      some (based 2 (withoutUnderscores rest))
    else none
  | '0' :: 'x' :: rest =>
    if isRun (fun c => (Json.hexValue? c).isSome || c == '_') rest then
      some (based 16 (withoutUnderscores rest))
    else none
  | '0' :: rest =>
    if rest.all fun c => ('0' ≤ c && c ≤ '7') || c == '_' then some (.ok (valueIn 8 digits))
    else none
  | _ =>
    if isCounted text then some (decimal digits)
    else
      match text.splitOn ':' with
      | first :: second :: rest =>
        if isCounted first && (second :: rest).all isSixtieth then
          some (sexagesimal (digits.splitOn ':'))
        else none
      | _ => none

/-- The integer that a text stands for, none if it is no integer. -/
def integer? (text : Text) : Option (Except Fault Int) :=
  let (negative, digits) := splitSign text
  (natural? digits).map fun magnitude =>
    magnitude.map fun n => if negative then -(n : Int) else (n : Int)

/-- The exponent at the end of a number, its sign being required; none without one. -/
def exponent? : Text → Option Int
  | [] => some 0
  | e :: sign :: digits =>
    if (e == 'e' || e == 'E') && isRun isDigit digits then
      if sign == '-' then some (-(valueIn 10 digits : Int))
      else if sign == '+' then some (valueIn 10 digits)
      else none
    else none
  | _ => none

/-- The number with the given digits before and behind the point. -/
def pointNumber (negative : Bool) (whole fraction : Text) (exponent : Int) : Binary64 :=
  let whole := withoutUnderscores whole
  let fraction := withoutUnderscores fraction
  .ofDecimal negative (valueIn 10 (whole ++ fraction)) (exponent - fraction.length)

/-- A number with a point at the start of the text, without a sign. -/
def decimalFloat? (negative : Bool) (text : Text) : Option Binary64 :=
  let whole := text.takeWhile isDigitOrUnderscore
  match text.drop whole.length with
  | '.' :: rest =>
    let fraction := rest.takeWhile isDigitOrUnderscore
    if isDecimal whole || (whole.isEmpty && isDecimal fraction) then
      (exponent? (rest.drop fraction.length)).map (pointNumber negative whole fraction)
    else none
  | _ => none

/-- The sum of a value and the product of two others, rounded at each step. -/
def addScaled (value part factor : Binary64) : Binary64 :=
  match part.toFraction?, factor.toFraction?, value.toFraction? with
  | some p, some f, some v =>
    match (Binary64.ofFraction (p.1 * f.1) (p.2 * f.2)).toFraction? with
    | some product =>
      .ofFraction (v.1 * product.2 + product.1 * v.2) (v.2 * product.2)
    | none => .infinite false
  | _, _, _ => .infinite false

/-- The sum of parts in sixtieths, the smallest first, each of them worth `unit` of the first one's
units. There is none if a unit is too large for a number with a point. -/
def sumOfSixtieths (value : Binary64) (unit : Nat) : (parts : List Binary64) →
    Except Fault Binary64
  | [] => .ok value
  | part :: rest =>
    match Binary64.ofInt unit with
    | .infinite _ => .error (.value .wideNumber)
    | factor => sumOfSixtieths (addScaled value part factor) (unit * 60) rest

/-- The number that parts in sixtieths stand for, the last one with a point. -/
def sexagesimalFloat (parts : List Binary64) : Except Fault Binary64 :=
  sumOfSixtieths (.ofInt 0) 1 parts.reverse

/-- A number in sixtieths with a point in its last part, without a sign. -/
def sixtiethsFloat? (text : Text) : Option (Except Fault Binary64) :=
  match text.splitOn ':' with
  | first :: second :: rest =>
    let parts := second :: rest
    let last := (parts.getLast?.getD []).splitOn '.'
    match last with
    | [whole, fraction] =>
      if isDecimal first && (parts.dropLast ++ [whole]).all isSixtieth &&
          fraction.all isDigitOrUnderscore then
        let wholes := (first :: parts.dropLast).map fun part => pointNumber false part [] 0
        some (sexagesimalFloat (wholes ++ [pointNumber false whole fraction 0]))
      else none
    | _ => none
  | _ => none

/-- The value with its sign turned. -/
def negate : Binary64 → Binary64
  | .finite negative mantissa exponent => .finite (!negative) mantissa exponent
  | .infinite negative => .infinite (!negative)
  | .nan => .nan

/-- The words for infinity. -/
def infinityWords : List Text := [".inf", ".Inf", ".INF"]

/-- The words for what is no number. -/
def nanWords : List Text := [".nan", ".NaN", ".NAN"]

/-- The floating-point number that a text stands for. -/
def float? (text : Text) : Option (Except Fault Binary64) :=
  let (negative, digits) := splitSign text
  if nanWords.contains text then some (.ok .nan)
  else if infinityWords.contains digits then some (.ok (.infinite negative))
  else if digits.startsWith "." && digits.length != text.length then none
  else
    match decimalFloat? negative digits with
    | some value => some (.ok value)
    | none =>
      (sixtiethsFloat? digits).map fun value =>
        value.map fun value => if negative then negate value else value

/-- A run of digits of at least `least` and at most `most` characters at the start of a text. -/
def digitsUpTo? (least most : Nat) (text : Text) : Option (Nat × Text) :=
  let digits := (text.take most).takeWhile isDigit
  if digits.length < least then none else some (valueIn 10 digits, text.drop digits.length)

/-- Checks that a day is in the calendar. -/
def checkDate (date : Date) : Except ValueFault Unit :=
  if date.year = 0 then .error .yearRange
  else if date.month = 0 || 12 < date.month then .error .monthRange
  else if date.day = 0 || daysIn date.year date.month < date.day then .error .dayRange
  else .ok ()

/-- Checks that a time of day is on the clock. -/
def checkClock (moment : Moment) : Except ValueFault Unit :=
  if 23 < moment.hour then .error .hourRange
  else if 59 < moment.minute then .error .minuteRange
  else if 59 < moment.second then .error .secondRange
  else .ok ()

/-- Checks that a zone is less than a day away from universal time. -/
def checkOffset (offset : Option Int) : Except ValueFault Unit :=
  match offset with
  | some minutes => if 1440 ≤ minutes.natAbs then .error (.offsetRange minutes) else .ok ()
  | none => .ok ()

/-- Checks a moment: its zone first, then the day, then the time of day. -/
def checkMoment (moment : Moment) : Except ValueFault Unit := do
  checkOffset moment.offset
  checkDate moment.date
  checkClock moment

/-- The zone at the end of a moment. -/
def zone? (text : Text) : Option (Option Int) :=
  match text.dropWhile fun c => c == ' ' || c == '\t' with
  | [] => if text.isEmpty then some none else none
  | ['Z'] => some (some 0)
  | sign :: rest => do
    if sign != '+' && sign != '-' then failure
    let (hours, rest) ← digitsUpTo? 1 2 rest
    let minutes ← match rest with
      | [] => some 0
      | ':' :: rest => do
        let (minutes, rest) ← digitsUpTo? 2 2 rest
        if rest.isEmpty then some minutes else none
      | _ => none
    let offset : Int := hours * 60 + minutes
    some (some (if sign == '-' then -offset else offset))

/-- The microseconds that the digits behind the point of a second stand for. -/
def microseconds (digits : Text) : Nat :=
  let six := digits.take 6
  valueIn 10 six * Nat.pow 10 (6 - six.length)

/-- The time of day behind a date. -/
def moment? (date : Date) (text : Text) : Option Moment := do
  let text ← match text with
    | 't' :: rest => some rest
    | 'T' :: rest => some rest
    | c :: rest =>
      if c == ' ' || c == '\t' then some (rest.dropWhile fun c => c == ' ' || c == '\t') else none
    | [] => none
  let (hour, text) ← digitsUpTo? 1 2 text
  let (minute, text) ← digitsUpTo? 2 2 (← Text.after? ":" text)
  let (second, text) ← digitsUpTo? 2 2 (← Text.after? ":" text)
  let (fraction, text) := match text with
    | '.' :: rest => (rest.takeWhile isDigit, rest.dropWhile isDigit)
    | text => ([], text)
  let offset ← zone? text
  some ⟨date, hour, minute, second, microseconds fraction, offset⟩

/-- A scalar that has been checked. -/
def checked (scalar : Scalar) (check : Except ValueFault Unit) : Except Fault Scalar :=
  match check with
  | .ok () => .ok scalar
  | .error fault => .error (.value fault)

/-- The date or moment that a text stands for. -/
def timestamp? (text : Text) : Option (Except Fault Scalar) := do
  let (year, rest) ← digitsUpTo? 4 4 text
  let (month, rest) ← digitsUpTo? 1 2 (← Text.after? "-" rest)
  let (day, rest) ← digitsUpTo? 1 2 (← Text.after? "-" rest)
  let date : Date := ⟨year, month, day⟩
  if rest.isEmpty then
    if text.length = 10 then some (checked (.date date) (checkDate date)) else none
  else (moment? date rest).map fun moment => checked (.moment moment) (checkMoment moment)

/-- The key that merges another mapping into its own. -/
def mergeKey : Text := "<<"

/-- The word that stands for no value of its own. -/
def defaultKey : Text := "="

/-- The scalar that a text without quotes stands for. -/
def plainScalar (text : Text) : Except Fault Scalar :=
  if nullWords.contains text then .ok .null
  else if text = mergeKey || text = defaultKey then .error .malformed
  else
    match truth? text, float? text, integer? text, timestamp? text with
    | some value, _, _, _ => .ok (.bool value)
    | _, some value, _, _ => value.map .float
    | _, _, some value, _ => value.map .int
    | _, _, _, some value => value
    | _, _, _, _ => .ok (.text text)

end Yaml

end Scaffold
