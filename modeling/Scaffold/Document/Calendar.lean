import Scaffold.Text.Basic

/-!
# Days and moments

Days of the calendar, and moments that may know their distance from universal time. Two moments that
know it are the same point of time if they are equally far from the first day: `Moment.isSame`.
-/

namespace Scaffold

/-- A day of the calendar. -/
structure Date where
  year : Nat
  month : Nat
  day : Nat
  deriving DecidableEq, Repr

/-- A day and a time of day, with the distance from universal time in minutes if it is known. -/
structure Moment where
  date : Date
  hour : Nat
  minute : Nat
  second : Nat
  microsecond : Nat
  offset : Option Int
  deriving DecidableEq, Repr

/-- Whether a year has a day more than others. -/
def isLeapYear (year : Nat) : Bool := year % 4 = 0 && (year % 100 != 0 || year % 400 = 0)

/-- The days of a month. -/
def daysIn (year month : Nat) : Nat :=
  if month = 2 then (if isLeapYear year then 29 else 28)
  else if month = 4 || month = 6 || month = 9 || month = 11 then 30
  else 31

/-- The days before a year, counted from the first year on. -/
def daysBeforeYear (year : Nat) : Nat :=
  let past := year - 1
  past * 365 + past / 4 - past / 100 + past / 400

/-- The number of a day, counted from the first year on. -/
def Date.number (date : Date) : Nat :=
  daysBeforeYear date.year +
    (List.range (date.month - 1)).foldl (fun days month => days + daysIn date.year (month + 1)) 0 +
      date.day

/-- The microseconds from the start of the calendar to a moment, on the clock of its own zone. -/
def Moment.clock (moment : Moment) : Nat :=
  (((moment.date.number * 24 + moment.hour) * 60 + moment.minute) * 60 + moment.second) * 1000000 +
    moment.microsecond

/-- The microseconds from the start of the calendar to a moment `offset` minutes ahead of universal
time. -/
def Moment.universal (moment : Moment) (offset : Int) : Int := moment.clock - offset * 60000000

/-- Whether two moments are the same point of time. One whose zone is not known is only the same as
itself. -/
def Moment.isSame (a b : Moment) : Bool :=
  match a.offset, b.offset with
  | some m, some n => a.universal m == b.universal n
  | _, _ => a == b

end Scaffold
