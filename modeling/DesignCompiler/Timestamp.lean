import DesignCompiler.Decimal
import DesignCompiler.Text.Class

/-!
Moments of universal time, and their text: `2026-01-01T00:00:00.123Z`. A leap second is held as more
than a thousand million nanoseconds within the second before it.
-/
namespace DesignCompiler

/-- Seconds since the start of 1970, and nanoseconds within the second. -/
structure Timestamp where
  seconds : Int
  nanos : Nat
deriving DecidableEq, Repr, Inhabited

namespace Timestamp

/-- The days from the start of 1970 to a day. Years are counted from March, so that a leap day ends
its year, and in eras of 400 years, which are all alike. -/
def daysOf (year : Int) (month day : Nat) : Int :=
  let year := if month ≤ 2 then year - 1 else year
  let era := year.fdiv 400
  let yearOfEra := year - era * 400
  let dayOfYear : Nat := (153 * ((month + 9) % 12) + 2) / 5 + day - 1
  let dayOfEra := yearOfEra * 365 + yearOfEra.fdiv 4 - yearOfEra.fdiv 100 + dayOfYear
  era * 146097 + dayOfEra - 719468

/-- The year, month and day so many days after the start of 1970. -/
def dateOf (days : Int) : Int × Nat × Nat :=
  let shifted := days + 719468
  let era := shifted.fdiv 146097
  let dayOfEra : Nat := (shifted - era * 146097).toNat
  let yearOfEra : Nat :=
    (dayOfEra - dayOfEra / 1460 + dayOfEra / 36524 - dayOfEra / 146096) / 365
  let dayOfYear : Nat := dayOfEra - (365 * yearOfEra + yearOfEra / 4 - yearOfEra / 100)
  let monthFromMarch : Nat := (5 * dayOfYear + 2) / 153
  let day : Nat := dayOfYear - (153 * monthFromMarch + 2) / 5 + 1
  let month : Nat := if monthFromMarch < 10 then monthFromMarch + 3 else monthFromMarch - 9
  (era * 400 + yearOfEra + (if month ≤ 2 then 1 else 0), month, day)

def isLeapYear (year : Int) : Bool :=
  year % 4 == 0 && (year % 100 != 0 || year % 400 == 0)

def daysInMonth (year : Int) (month : Nat) : Nat :=
  if month = 2 then (if isLeapYear year then 29 else 28)
  else if [4, 6, 9, 11].contains month then 30 else 31

def padded (width n : Nat) : String :=
  let digits := Decimal.natText n
  Decimal.zeros (width - digits.length) ++ digits

/-- A year of four digits, with a sign if it needs more or lies before year zero. -/
def yearText (year : Int) : String :=
  if 0 ≤ year ∧ year ≤ 9999 then padded 4 year.toNat
  else (if year < 0 then "-" else "+") ++ padded 4 year.natAbs

/-- The part after the seconds: nothing, or as many thousandths of thousandths as it takes. -/
def fractionText (nanos : Nat) : String :=
  if nanos = 0 then ""
  else if nanos % 1000000 = 0 then "." ++ padded 3 (nanos / 1000000)
  else if nanos % 1000 = 0 then "." ++ padded 6 (nanos / 1000)
  else "." ++ padded 9 nanos

def text (moment : Timestamp) : String :=
  let days := moment.seconds.fdiv 86400
  let (year, month, day) := dateOf days
  let second : Nat := (moment.seconds - days * 86400).toNat
  let leap : Nat := moment.nanos / 1000000000
  yearText year ++ "-" ++ padded 2 month ++ "-" ++ padded 2 day ++ "T" ++
    padded 2 (second / 3600) ++ ":" ++ padded 2 (second % 3600 / 60) ++ ":" ++
    padded 2 (second % 60 + leap) ++ fractionText (moment.nanos % 1000000000) ++ "Z"

def holdsYear (year : Int) : Bool := decide (-262143 ≤ year ∧ year ≤ 262142)

namespace Reader

def skipBlank (text : List Char) : List Char := text.dropWhile Text.isBlank

/-- The digits at the front, at most `width` of them, and at least one. -/
def digits (width : Nat) (text : List Char) : Option (List Char × List Char) :=
  let found := (text.take width).takeWhile Text.isAsciiDigit
  if found.isEmpty then none else some (found, text.drop found.length)

def value (digits : List Char) : Nat :=
  digits.foldl (fun value c => value * 10 + (c.toNat - '0'.toNat)) 0

/-- A number of one or two digits within bounds, blanks before it skipped. -/
def field (low high : Nat) (text : List Char) : Option (Nat × List Char) := do
  let (found, rest) ← digits 2 (skipBlank text)
  if low ≤ value found ∧ value found ≤ high then return (value found, rest) else none

/-- A year of up to four digits, or of any number of them after a sign. -/
def year (text : List Char) : Option (Int × List Char) :=
  match skipBlank text with
  | '-' :: rest => (digits rest.length rest).map fun (found, rest) => (-(value found : Int), rest)
  | '+' :: rest => (digits rest.length rest).map fun (found, rest) => ((value found : Int), rest)
  | text => (digits 4 text).map fun (found, rest) => ((value found : Int), rest)

/-- The rest after a mark, blanks before it skipped. -/
def mark (c : Char) (text : List Char) : Option (List Char) :=
  match skipBlank text with
  | d :: rest => if d = c then some rest else none
  | [] => none

/-- The nanoseconds after a point; digits beyond the ninth are dropped. -/
def fraction : List Char → Option (Nat × List Char)
  | '.' :: rest => do
    let (found, rest) ← digits 9 rest
    return (value found * Nat.pow 10 (9 - found.length), rest.dropWhile Text.isAsciiDigit)
  | rest => some (0, rest)

/-- Two digits of a distance from universal time. -/
def twoDigits (high : Nat) : List Char → Option (Nat × List Char)
  | a :: b :: rest =>
    if Text.isAsciiDigit a && Text.isAsciiDigit b && value [a, b] ≤ high then
      some (value [a, b], rest)
    else none
  | _ => none

def direction (sign : Char) : Option Int :=
  if sign = '+' then some 1 else if sign = '-' ∨ sign = '\u2212' then some (-1) else none

def offset (text : List Char) : Option (Int × List Char) :=
  match text with
  | 'Z' :: rest | 'z' :: rest => some (0, rest)
  | [] => none
  | sign :: rest =>
    if (text.take 3).map Char.toUpper = ['U', 'T', 'C'] then some (0, text.drop 3)
    else do
      let ahead ← direction sign
      let (hours, rest) ← twoDigits 99 rest
      let (minutes, rest) ← twoDigits 59 (rest.dropWhile fun c => c == ':' || Text.isBlank c)
      let seconds := hours * 3600 + minutes * 60
      if seconds < 86400 then return (ahead * seconds, rest) else none

def date (text : List Char) : Option ((Int × Nat × Nat) × List Char) := do
  let (year, rest) ← year text
  let (month, rest) ← field 1 12 (← mark '-' rest)
  let (day, rest) ← field 1 31 (← mark '-' rest)
  if day ≤ daysInMonth year month && holdsYear year then return ((year, month, day), rest) else none

/-- The rest after what stands between a date and a time of day. -/
def divider : List Char → Option (List Char)
  | 'T' :: rest | 't' :: rest | ' ' :: rest => some rest
  | _ => none

/-- A time of day as a second and nanoseconds. A leap second adds to those of the second before it. -/
def timeOfDay (text : List Char) : Option ((Nat × Nat) × List Char) := do
  let (hour, rest) ← field 0 23 text
  let (minute, rest) ← field 0 59 (← mark ':' rest)
  let (second, rest) ← field 0 60 (← mark ':' rest)
  let (nanos, rest) ← fraction rest
  let leap := second / 60
  return ((hour * 3600 + minute * 60 + (second - leap), nanos + leap * 1000000000), rest)

end Reader

open Reader in
/-- Reads a date, a time of day and a distance from universal time. Both the date as it is written and
that in universal time have to lie in the years for moments. -/
def parse (text : String) : Option Timestamp := do
  let ((year, month, day), rest) ← date text.toList
  let ((second, nanos), rest) ← timeOfDay (← divider rest)
  let (ahead, rest) ← offset (skipBlank rest)
  let seconds := daysOf year month day * 86400 + second - ahead
  if (skipBlank rest).isEmpty && holdsYear (dateOf (seconds.fdiv 86400)).1 then
    return { seconds, nanos }
  else none

end Timestamp
end DesignCompiler
