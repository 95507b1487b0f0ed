import ToolServer.Decimal.Digits

/-!
# Calendar values

Dates and moments of the Gregorian calendar, years 1 to 9999. A moment may carry its offset from
universal time; two moments with offsets are equal when they are the same instant.
-/

namespace ToolServer.Document

open Decimal (padded)

structure Date where
  year : Nat
  month : Nat
  day : Nat
deriving DecidableEq, Repr

structure Moment where
  date : Date
  hour : Nat
  minute : Nat
  second : Nat
  microsecond : Nat
  /-- Seconds east of universal time. -/
  offset : Option Int
deriving DecidableEq, Repr

def isLeap (year : Nat) : Bool := year % 4 == 0 && (year % 100 != 0 || year % 400 == 0)

def daysIn (year month : Nat) : Nat :=
  if month = 2 then (if isLeap year then 29 else 28)
  else if month = 4 || month = 6 || month = 9 || month = 11 then 30 else 31

namespace Date

/-- Days since the first day of year one. -/
def ordinal (d : Date) : Nat :=
  let y := d.year - 1
  let before := (List.range (d.month - 1)).foldl (fun n m => n + daysIn d.year (m + 1)) 0
  y * 365 + y / 4 - y / 100 + y / 400 + before + (d.day - 1)

def text (d : Date) : String :=
  String.ofList (padded 4 d.year ++ '-' :: padded 2 d.month ++ '-' :: padded 2 d.day)

end Date

namespace Moment

/-- Seconds since the start of year one, at the moment's own offset. -/
def seconds (t : Moment) : Int :=
  (t.date.ordinal * 86400 + t.hour * 3600 + t.minute * 60 + t.second : Nat)

def same (s t : Moment) : Bool :=
  match s.offset, t.offset with
  | none, none => s.date == t.date && s.seconds == t.seconds && s.microsecond == t.microsecond
  | some a, some b => s.seconds - a == t.seconds - b && s.microsecond == t.microsecond
  | _, _ => false

/-- An offset as sign, hours and minutes, with seconds when there are any. -/
def offsetText (offset : Int) : String :=
  let n := offset.natAbs
  let seconds := if n % 60 = 0 then [] else ':' :: padded 2 (n % 60)
  String.ofList ((if offset < 0 then '-' else '+') ::
    (padded 2 (n / 3600) ++ ':' :: padded 2 (n / 60 % 60) ++ seconds))

/-- Hours, minutes and seconds, with six digits of fraction when there is one. -/
def clockText (t : Moment) : String :=
  let part := if t.microsecond = 0 then [] else '.' :: padded 6 t.microsecond
  String.ofList (padded 2 t.hour ++ ':' :: padded 2 t.minute ++ ':' :: padded 2 t.second ++ part)

def text (t : Moment) : String :=
  t.date.text ++ " " ++ t.clockText ++ (t.offset.map offsetText).getD ""

/-- The interchange form: a letter between date and clock, and a letter for universal time. -/
def isoText (t : Moment) : String :=
  let zone := match t.offset with
    | none => ""
    | some 0 => "Z"
    | some n => offsetText n
  t.date.text ++ "T" ++ t.clockText ++ zone

end Moment

end ToolServer.Document
