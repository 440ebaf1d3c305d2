import Blocklist.Text.Blank
import Blocklist.Text.Number
-- Spans of time, written with units as in `1h 30m` or `1.5s`.
namespace Blocklist.Settings

structure Duration where
  seconds : Nat
  nanos : Nat
  deriving DecidableEq, Repr

inductive DurationError where
  -- no span of time is written like that, or it is too long
  | malformed
  -- the last carry from nanoseconds goes beyond the longest span
  | beyond
  deriving DecidableEq, Repr

inductive TimeUnit where
  | nanosecond
  | microsecond
  | millisecond
  | second
  | minute
  | hour
  | day
  | week
  | month
  | year
  deriving DecidableEq, Repr

namespace TimeUnit

def ofName? (name : String) : Option TimeUnit :=
  match name with
  | "nanos" | "nsec" | "ns" => some .nanosecond
  | "usec" | "us" | "µs" => some .microsecond
  | "millis" | "msec" | "ms" => some .millisecond
  | "seconds" | "second" | "secs" | "sec" | "s" => some .second
  | "minutes" | "minute" | "min" | "mins" | "m" => some .minute
  | "hours" | "hour" | "hr" | "hrs" | "h" => some .hour
  | "days" | "day" | "d" => some .day
  | "weeks" | "week" | "wk" | "wks" | "w" => some .week
  | "months" | "month" | "M" => some .month
  | "years" | "year" | "yr" | "yrs" | "y" => some .year
  | _ => none

-- Length in seconds, for the units that are whole seconds. A month has 30.44 days and a
-- year 365.25.
def inSeconds? : TimeUnit → Option Nat
  | .nanosecond | .microsecond | .millisecond => none
  | .second => some 1
  | .minute => some 60
  | .hour => some 3600
  | .day => some 86400
  | .week => some 604800
  | .month => some 2630016
  | .year => some 31557600

-- Length in nanoseconds, for the units whose fractions are counted in nanoseconds. A
-- nanosecond has no fractions.
def inNanos? : TimeUnit → Option Nat
  | .nanosecond => none
  | .microsecond => some 1000
  | .millisecond => some 1000000
  | .second => some 1000000000
  | .minute => some 60000000000
  | _ => none

end TimeUnit

namespace Duration

def zero : Duration := ⟨0, 0⟩

def ofSeconds (seconds : Nat) : Duration := ⟨seconds, 0⟩

def nanosPerSecond : Nat := 1000000000

-- Sums and products must stay below a bound
def word (n : Nat) : Except DurationError Nat :=
  if n < Text.bound64 then .ok n else .error .malformed

-- The span in milliseconds. A part of a millisecond counts as a whole one.
def inMilliseconds (d : Duration) : Nat :=
  d.seconds * 1000 + (d.nanos + 999999) / 1000000

-- The span longer by so much. Exactly one second of nanoseconds is carried at the end.
def plus (d : Duration) (seconds nanos : Nat) : Except DurationError Duration := do
  let nanos ← word (d.nanos + nanos)
  let carried := nanosPerSecond < nanos
  let seconds ← word (if carried then seconds + nanos / nanosPerSecond else seconds)
  let nanos := if carried then nanos % nanosPerSecond else nanos
  let seconds ← word (d.seconds + seconds)
  if nanos = nanosPerSecond then
    if seconds + 1 < Text.bound64 then .ok ⟨seconds + 1, 0⟩ else .error .beyond
  else .ok ⟨seconds, nanos⟩

-- A part of a unit, as a decimal fraction
structure Fraction where
  numerator : Nat
  denominator : Nat

def plusWhole (d : Duration) (n : Nat) (unit : TimeUnit) : Except DurationError Duration := do
  match unit with
  | .nanosecond => d.plus 0 n
  | .microsecond => d.plus 0 (← word (n * 1000))
  | .millisecond => d.plus 0 (← word (n * 1000000))
  | unit => d.plus (← word (n * unit.inSeconds?.getD 0)) 0

-- The span longer by a part of a unit. What is smaller than the unit it is counted in is
-- left out.
def plusFraction (d : Duration) (f : Fraction) (unit : TimeUnit) :
    Except DurationError Duration := do
  match unit.inNanos?, unit.inSeconds? with
  | some nanos, _ => d.plus 0 ((← word (f.numerator * nanos)) / f.denominator)
  | none, some seconds => d.plus ((← word (f.numerator * seconds)) / f.denominator) 0
  | none, none => .error .malformed

-- The span longer by a number of units, which a name tells
def plusUnits (d : Duration) (n : Nat) (fraction : Option Fraction) (name : List Char) :
    Except DurationError Duration := do
  match TimeUnit.ofName? (String.ofList name) with
  | none => .error .malformed
  | some unit =>
    let d ← d.plusWhole n unit
    match fraction with
    | none => .ok d
    | some f => d.plusFraction f unit

def isUnitLetter (c : Char) : Bool :=
  c.isAlpha || c == 'µ'

-- What is being read
inductive Reading where
  -- nothing but blanks since the last unit
  | start
  | whole (n : Nat)
  | fraction (n : Nat) (f : Fraction)
  -- a unit, its letters the latest first
  | unit (n : Nat) (f : Option Fraction) (letters : List Char)

-- Read on by one character
def read (d : Duration) (r : Reading) (c : Char) : Except DurationError (Duration × Reading) := do
  match r with
  | .start =>
    if c.isDigit then .ok (d, .whole (Text.digitValue c))
    else if Text.isBlank c then .ok (d, .start)
    else .error .malformed
  | .whole n =>
    if c.isDigit then .ok (d, .whole (← word (n * 10 + Text.digitValue c)))
    else if Text.isBlank c then .ok (d, .whole n)
    else if isUnitLetter c then .ok (d, .unit n none [c])
    else if c = '.' then .ok (d, .fraction n ⟨0, 1⟩)
    else .error .malformed
  | .fraction n f =>
    if c.isDigit then
      let denominator ← word (f.denominator * 10)
      let numerator ← word (f.numerator * 10 + Text.digitValue c)
      .ok (d, .fraction n ⟨numerator, denominator⟩)
    else if Text.isBlank c then .ok (d, .fraction n f)
    else if isUnitLetter c && f.denominator != 1 then .ok (d, .unit n (some f) [c])
    else .error .malformed
  | .unit n f letters =>
    if c.isDigit then .ok (← d.plusUnits n f letters.reverse, .whole (Text.digitValue c))
    else if Text.isBlank c then .ok (← d.plusUnits n f letters.reverse, .start)
    else if isUnitLetter c then .ok (d, .unit n f (c :: letters))
    else .error .malformed

-- The end of the text. A number must have its unit by then.
def close (d : Duration) : Reading → Except DurationError Duration
  | .start => .ok d
  | .unit n f letters => d.plusUnits n f letters.reverse
  | _ => .error .malformed

-- The span of time that a text tells. Zero needs no unit.
def ofText (text : String) : Except DurationError Duration :=
  if text == "0" then .ok zero
  else if text.toList.all Text.isBlank then .error .malformed
  else do
    let (d, r) ← text.toList.foldlM (fun (d, r) c => read d r c) (zero, Reading.start)
    close d r

-- A number with a fraction of so many places. Zeros at its end are left out.
def decimal (whole fraction places : Nat) : String :=
  let digits := (toString fraction).toList
  let filled := List.replicate (places - digits.length) '0' ++ digits
  let kept := (filled.reverse.dropWhile (· == '0')).reverse
  if kept.isEmpty then toString whole else toString whole ++ "." ++ String.ofList kept

-- The span in the greatest unit of which it is as long as one
def display (d : Duration) : String :=
  if 0 < d.seconds then decimal d.seconds d.nanos 9 ++ "s"
  else if 1000000 ≤ d.nanos then decimal (d.nanos / 1000000) (d.nanos % 1000000) 6 ++ "ms"
  else if 1000 ≤ d.nanos then decimal (d.nanos / 1000) (d.nanos % 1000) 3 ++ "µs"
  else toString d.nanos ++ "ns"

example : (⟨120, 0⟩ : Duration).display = "120s" ∧ (⟨0, 2050000⟩ : Duration).display = "2.05ms" := by
  decide

end Duration

end Blocklist.Settings
