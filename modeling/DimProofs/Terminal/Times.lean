/-
The timestamps of a terminal event. `Date.parse` reads the date-time format of ECMAScript, in which every month has up to 31
days and midnight may be the hour 24 of the day before; `z.string().datetime()` admits dates of the calendar and times of day
only. Fractions of a second may have any number of digits; `Date.parse` keeps milliseconds.
-/
import DimProofs.Lib.Decimal
import DimProofs.Lib.Pattern

namespace Dim.Terminal

open Pattern (CharClass sequence only digit)

/-- The numbers in a text of the shape `YYYY-MM-DDTHH:mm:ss[.f…]Z`. -/
structure Timestamp where
  (year month day hour minute second : Nat)
  fraction : List Char

/-- `\d{4}-\d{2}-\d{2}T\d{2}:\d{2}:\d{2}`. -/
def secondsPattern (text : List Char) : Bool :=
  sequence (List.replicate 4 digit ++ only '-' :: List.replicate 2 digit ++ only '-' :: List.replicate 2 digit ++ only 'T' ::
    List.replicate 2 digit ++ only ':' :: List.replicate 2 digit ++ only ':' :: List.replicate 2 digit) text

/-- `(?:\.\d+)?Z`, with the digits of the fraction. -/
def fractionOf : List Char → Option (List Char)
  | ['Z'] => some []
  | '.' :: rest => if rest.getLast? = some 'Z' ∧ rest.dropLast ≠ [] ∧
      rest.dropLast.all digit then some rest.dropLast else none
  | _ => none

def number (text : List Char) (start length : Nat) : Nat := Decimal.value ((text.drop start).take length)

/-- `^\d{4}-\d{2}-\d{2}T\d{2}:\d{2}:\d{2}(?:\.\d+)?Z$`. -/
def timestampOf (s : String) : Option Timestamp :=
  let text := s.toList
  if secondsPattern (text.take 19) then
    (fractionOf (text.drop 19)).map fun fraction =>
      { year := number text 0 4, month := number text 5 2, day := number text 8 2, hour := number text 11 2,
        minute := number text 14 2, second := number text 17 2, fraction }
  else none

namespace Timestamp

/-! ## `Date.parse` -/

/-- Days before a year, counted from 1970. -/
def dayFromYear (year : Int) : Int := 365 * (year - 1970) + (year - 1969) / 4 - (year - 1901) / 100 + (year - 1601) / 400

def leap (year : Nat) : Bool := year % 4 = 0 && (year % 100 ≠ 0 || year % 400 = 0)

def daysInMonth (year month : Nat) : Nat :=
  if month = 2 then if leap year then 29 else 28 else if [4, 6, 9, 11].contains month then 30 else 31

/-- Days of a year before a month. -/
def daysBefore (year month : Nat) : Nat := ((List.range (month - 1)).map fun m => daysInMonth year (m + 1)).sum

/-- The element values of the date-time format. -/
def inFormat (t : Timestamp) : Bool :=
  1 ≤ t.month && t.month ≤ 12 && 1 ≤ t.day && t.day ≤ 31 && t.minute ≤ 59 && t.second ≤ 59 &&
    (t.hour ≤ 23 || (t.hour = 24 && t.minute = 0 && t.second = 0 && t.fraction.all (· = '0')))

/-- Milliseconds since 1970; a day beyond the end of its month is one of the next. -/
def milliseconds (t : Timestamp) : Int :=
  (dayFromYear t.year + daysBefore t.year t.month + t.day - 1) * 86400000 +
    (t.hour * 3600 + t.minute * 60 + t.second : Nat) * 1000 + Decimal.value ((t.fraction ++ ['0', '0', '0']).take 3)

end Timestamp

/-- `Date.parse` on a text of that shape; `none` is `NaN`. -/
def dateParse (s : String) : Option Int :=
  (timestampOf s).bind fun t => if t.inFormat then some t.milliseconds else none

/-- `timestamp` of the result intake: the pattern, and a `Date.parse` that is finite. -/
def timestampPattern (s : String) : Bool := (timestampOf s).isSome && (dateParse s).isSome

example :
  dateParse "1970-01-01T00:00:01.5Z" = some 1500 ∧ dateParse "2024-02-30T00:00:00Z" = dateParse "2024-03-01T00:00:00Z" ∧
    dateParse "2024-13-01T00:00:00Z" = none := by decide

end Dim.Terminal
