import DesignCompiler.Decimal
import DesignCompiler.Text.Class

/-!
Spans of time and how people write them: numbers with units, such as `1h 30m`.
-/
namespace DesignCompiler

/-- A span of time. -/
structure Duration where
  nanos : Nat
deriving DecidableEq, Repr, Inhabited

namespace Duration

def zero : Duration := ⟨0⟩

def ofMillis (count : Nat) : Duration := ⟨count * 1000000⟩

def ofSeconds (count : Nat) : Duration := ⟨count * 1000000000⟩

def millis (duration : Duration) : Nat := duration.nanos / 1000000

def seconds (duration : Duration) : Nat := duration.nanos / 1000000000

/-- A unit counts nanoseconds or seconds. -/
inductive Measure where
  | nanos (count : Nat)
  | seconds (count : Nat)
deriving DecidableEq, Repr

/-- A month is 30.44 days and a year 365.25. -/
def measures : List (List String × Measure) :=
  [(["nanos", "nsec", "ns"], .nanos 1),
    (["usec", "us", "µs"], .nanos 1000),
    (["millis", "msec", "ms"], .nanos 1000000),
    (["seconds", "second", "secs", "sec", "s"], .seconds 1),
    (["minutes", "minute", "min", "mins", "m"], .seconds 60),
    (["hours", "hour", "hrs", "hr", "h"], .seconds 3600),
    (["days", "day", "d"], .seconds 86400),
    (["weeks", "week", "wk", "wks", "w"], .seconds 604800),
    (["months", "month", "M"], .seconds 2630016),
    (["years", "year", "yr", "yrs", "y"], .seconds 31557600)]

def measure? (name : String) : Option Measure :=
  (measures.find? fun entry => entry.1.contains name).map (·.2)

namespace Reader

def isUnitLetter (c : Char) : Bool :=
  Text.isAsciiLetter c || c == 'µ'

def word? (n : Nat) : Option Nat := if n < UInt64.size then some n else none

/-- Digits with blanks between them, put behind a number, and how many digits there were. -/
def digits (value count : Nat) : List Char → Option (Nat × Nat × List Char)
  | [] => some (value, count, [])
  | c :: rest =>
    if Text.isAsciiDigit c then do
      digits (← word? (value * 10 + (c.toNat - '0'.toNat))) (count + 1) rest
    else if Text.isBlank c then digits value count rest
    else some (value, count, c :: rest)

/-- The span of so many units and a fraction of one. Below the nanosecond there is nothing. -/
def span? (whole numerator : Nat) (places : Option Nat) : Measure → Option Nat
  | .nanos unit => do
    let whole ← word? (whole * unit)
    match places with
    | none => return whole
    | some places =>
      if unit = 1 then none
      else return whole + (← word? (numerator * unit)) / Nat.pow 10 places
  | .seconds unit => do
    let whole ← word? (whole * unit)
    match places with
    | none => return whole * 1000000000
    | some places =>
      if unit ≤ 60 then
        return whole * 1000000000 + (← word? (numerator * unit * 1000000000)) / Nat.pow 10 places
      else return (whole + (← word? (numerator * unit)) / Nat.pow 10 places) * 1000000000

/-- The numbers and units of a text, the blanks before the first number skipped. -/
def total : Nat → Nat → List Char → Option Nat
  | 0, _, _ => none
  | fuel + 1, sum, text => do
    let (whole, count, rest) ← digits 0 0 text
    if count = 0 then none
    let (numerator, places, rest) ← match rest with
      | '.' :: rest => do
        let (numerator, places, rest) ← digits 0 0 rest
        if places = 0 ∨ places > 19 then none
        pure (numerator, some places, rest)
      | rest => pure (0, none, rest)
    let sum := sum + (← span? whole numerator places
      (← measure? (String.ofList (rest.takeWhile isUnitLetter))))
    let _ ← word? (sum / 1000000000)
    match rest.dropWhile isUnitLetter with
    | [] => return sum
    | c :: rest =>
      if Text.isAsciiDigit c then total fuel sum (c :: rest)
      else if Text.isBlank c then
        if (rest.dropWhile Text.isBlank).isEmpty then return sum else total fuel sum rest
      else none

end Reader

/-- Reads a span; a lone zero needs no unit. -/
def parse (text : String) : Option Duration :=
  if text = "0" then some zero
  else (Reader.total (text.length + 1) 0 text.toList).map Duration.mk

/-- A count with its unit, or nothing if there is none. -/
def part (count : Nat) (unit : String) : List String :=
  if count = 0 then [] else [Decimal.natText count ++ unit]

/-- Long units are written out, and in the plural where there are more than one. -/
def longPart (count : Nat) (unit : String) : List String :=
  part count (if count > 1 then unit ++ "s" else unit)

/-- The span in units from years down to nanoseconds. -/
def text (duration : Duration) : String :=
  let seconds := duration.seconds
  let nanos := duration.nanos % 1000000000
  let ofYear := seconds % 31557600
  let ofMonth := ofYear % 2630016
  let ofDay := ofMonth % 86400
  let parts :=
    longPart (seconds / 31557600) "year" ++ longPart (ofYear / 2630016) "month" ++
      longPart (ofMonth / 86400) "day" ++ part (ofDay / 3600) "h" ++
      part (ofDay % 3600 / 60) "m" ++ part (ofDay % 60) "s" ++ part (nanos / 1000000) "ms" ++
      part (nanos / 1000 % 1000) "us" ++ part (nanos % 1000) "ns"
  if parts.isEmpty then "0s" else " ".intercalate parts

end Duration
end DesignCompiler
