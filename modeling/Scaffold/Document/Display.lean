import Scaffold.Document.Value
import Scaffold.Number.Shortest
import Scaffold.Text.Integer
import Scaffold.Text.Quoted

/-!
# Values as plain text

How a value reads where a text is expected: a text as it is, numbers in their shortest form, and
sequences and mappings with their parts quoted. An integer with too many digits is never shown, and
neither is a value that holds one.
-/

namespace Scaffold

/-- A number below a hundred with two digits. -/
def twoDigits (n : Nat) : Text := if n < 10 then '0' :: Text.ofNat n else Text.ofNat n

/-- A number padded with zeros to `width` digits. -/
def paddedDigits (width n : Nat) : Text :=
  let digits := Text.ofNat n
  List.replicate (width - digits.length) '0' ++ digits

/-- Year, month and day with dashes. -/
def Date.text (date : Date) : Text :=
  paddedDigits 4 date.year ++ "-" ++ twoDigits date.month ++ "-" ++ twoDigits date.day

/-- The distance from universal time in hours and minutes. -/
def offsetText (minutes : Int) : Text :=
  let sign : Text := if minutes < 0 then "-" else "+"
  sign ++ twoDigits (minutes.natAbs / 60) ++ ":" ++ twoDigits (minutes.natAbs % 60)

/-- Date and time of day with `separator` between them. -/
def Moment.textWith (separator : Char) (moment : Moment) : Text :=
  let fraction : Text :=
    if moment.microsecond = 0 then [] else '.' :: paddedDigits 6 moment.microsecond
  let offset : Text := (moment.offset.map offsetText).getD []
  moment.date.text ++ separator :: twoDigits moment.hour ++ ":" ++ twoDigits moment.minute ++ ":" ++
    twoDigits moment.second ++ fraction ++ offset

def Moment.text (moment : Moment) : Text := moment.textWith ' '

/-- A number of minutes as whole days, which may be negative, and the seconds that are left. -/
def durationText (minutes : Int) : Text :=
  let days := minutes / 1440
  let seconds := minutes % 1440 * 60
  let parts : List Text :=
    (if days = 0 then [] else ["days=" ++ Text.ofInt days]) ++
      (if seconds = 0 then [] else ["seconds=" ++ Text.ofInt seconds])
  "datetime.timedelta(" ++ (if parts.isEmpty then ['0'] else Text.join ", " parts) ++ ")"

/-- The zone of a moment inside a sequence or mapping. -/
def zoneText (minutes : Int) : Text :=
  if minutes = 0 then "datetime.timezone.utc"
  else "datetime.timezone(" ++ durationText minutes ++ ")"

/-- A moment inside a sequence or mapping. -/
def Moment.quoted (moment : Moment) : Text :=
  let fraction := if moment.microsecond = 0 then [] else [moment.microsecond]
  let seconds :=
    if moment.second = 0 && moment.microsecond = 0 then [] else moment.second :: fraction
  let parts := [moment.date.year, moment.date.month, moment.date.day, moment.hour, moment.minute] ++
    seconds
  let zone : List Text := match moment.offset with
    | some minutes => ["tzinfo=" ++ zoneText minutes]
    | none => []
  "datetime.datetime(" ++ Text.join ", " (parts.map Text.ofNat ++ zone) ++ ")"

namespace Scalar

/-- A scalar where a text is expected. -/
def display : Scalar → Text
  | null => "None"
  | bool value => if value then "True" else "False"
  | int value => Text.ofInt value
  | float value => value.text
  | text value => value
  | date value => value.text
  | moment value => value.text

/-- A scalar inside a sequence or mapping. -/
def quoted : Scalar → Text
  | text value => value.quoted
  | date value => "datetime.date(" ++
      Text.join ", " ([value.year, value.month, value.day].map Text.ofNat) ++ ")"
  | moment value => value.quoted
  | value => value.display

/-- Whether a scalar can be shown: an integer only with as many digits as can be read again. -/
def isShowable : Scalar → Bool
  | int value => (Text.ofNat value.natAbs).length ≤ Text.digitLimit
  | _ => true

end Scalar

namespace Value

mutual

/-- A value inside a sequence or mapping. -/
def quoted : Value → Text
  | .scalar value => value.quoted
  | .list items => '[' :: quotedItems items ++ [']']
  | .map fields => '\x7b' :: quotedFields fields ++ ['\x7d']

def quotedItems : List Value → Text
  | [] => []
  | [item] => quoted item
  | item :: rest => quoted item ++ ", " ++ quotedItems rest

def quotedFields : List (Scalar × Value) → Text
  | [] => []
  | [(key, value)] => key.quoted ++ ": " ++ quoted value
  | (key, value) :: rest => key.quoted ++ ": " ++ quoted value ++ ", " ++ quotedFields rest

end

/-- A value where a text is expected. -/
def display : Value → Text
  | scalar value => value.display
  | value => value.quoted

mutual

/-- Whether all the scalars in a value can be shown. -/
def isShowable : Value → Bool
  | .scalar value => value.isShowable
  | .list items => itemsShowable items
  | .map fields => fieldsShowable fields

def itemsShowable : List Value → Bool
  | [] => true
  | item :: rest => isShowable item && itemsShowable rest

def fieldsShowable : List (Scalar × Value) → Bool
  | [] => true
  | (key, value) :: rest => key.isShowable && isShowable value && fieldsShowable rest

end

end Value

end Scaffold
