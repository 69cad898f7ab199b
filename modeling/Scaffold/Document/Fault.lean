import Scaffold.Document.Display

/-!
# Faults of values

Why a text in good form stands for no value, as a day that no month has, and why a value cannot be
shown. `ValueFault.message` words each cause.
-/

namespace Scaffold

/-- Why there is no value for a text, or no text for a value. -/
inductive ValueFault
  | longNumber (digits : Nat)
  | longToShow
  | noDigits (base : Nat)
  | wideNumber
  | yearRange
  | monthRange
  | dayRange
  | hourRange
  | minuteRange
  | secondRange
  | offsetRange (minutes : Int)
  | characterRange
  | wideCharacter
  | nested (inMapping : Bool)
  deriving DecidableEq

namespace ValueFault

/-- What the messages about integers with too many digits start and end with. -/
def longText (detail : Text) : Text :=
  "Exceeds the limit (4300 digits) for integer string conversion" ++ detail ++
    "; use sys.set_int_max_str_digits() to increase the limit"

/-- The message for a fault. -/
def message : ValueFault → Text
  | longNumber digits => longText (": value has " ++ Text.ofNat digits ++ " digits")
  | longToShow => longText []
  | noDigits base => "invalid literal for int() with base " ++ Text.ofNat base ++ ": ''"
  | wideNumber => "int too large to convert to float"
  | yearRange => "year 0 is out of range"
  | monthRange => "month must be in 1..12"
  | dayRange => "day is out of range for month"
  | hourRange => "hour must be in 0..23"
  | minuteRange => "minute must be in 0..59"
  | secondRange => "second must be in 0..59"
  | offsetRange minutes =>
    "offset must be a timedelta strictly between -timedelta(hours=24) and timedelta(hours=24), " ++
      "not " ++ durationText minutes ++ "."
  | characterRange => "chr() arg not in range(0x110000)"
  | wideCharacter => "Python int too large to convert to C int"
  | nested inMapping =>
    "maximum recursion depth exceeded while decoding a JSON " ++
      (if inMapping then "object" else "array") ++ " from a unicode string"

end ValueFault

/-- The text of a scalar, if it can be shown. -/
def Scalar.shown (scalar : Scalar) : Except ValueFault Text :=
  if scalar.isShowable then .ok scalar.display else .error .longToShow

/-- The text of a value, if it can be shown. -/
def Value.shown (value : Value) : Except ValueFault Text :=
  if value.isShowable then .ok value.display else .error .longToShow

end Scaffold
