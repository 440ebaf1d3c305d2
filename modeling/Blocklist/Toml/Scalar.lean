import Blocklist.Text.Number
-- Values of TOML that are written without quotes: truth values, numbers, dates, times.
namespace Blocklist.Toml

inductive Scalar where
  | integer (n : Int)
  | truth (b : Bool)
  | float
  -- a date, a time, or both
  | moment
  deriving DecidableEq, Repr

namespace Scalar

-- Digits that may be grouped by underscores between them
def grouped? (isDigit : Char → Bool) (text : List Char) : Option (List Char) :=
  let groups := text.splitOn '_'
  if groups.all fun g => !g.isEmpty && g.all isDigit then some groups.flatten else none

-- Decimal digits of a whole number. Only zero begins with a zero.
def wholeDigits? (text : List Char) : Option (List Char) := do
  let digits ← grouped? Char.isDigit text
  if digits.head? == some '0' && digits.length != 1 then none else some digits

def unsigned (text : List Char) : List Char :=
  match text with
  | '+' :: rest => rest
  | '-' :: rest => rest
  | _ => text

-- The value of digits in a base
def valueIn (base : Nat) (digits : List Char) : Nat :=
  digits.foldl (fun n c => n * base + (Text.hexValue? c).getD 0) 0

def isDigitIn (base : Nat) (c : Char) : Bool :=
  (Text.hexValue? c).any (· < base)

def integerIn? (base : Nat) (text : List Char) : Option Int :=
  (grouped? (isDigitIn base) text).map fun digits => Int.ofNat (valueIn base digits)

def integer? (text : List Char) : Option Int :=
  match text with
  | '0' :: 'x' :: rest => integerIn? 16 rest
  | '0' :: 'o' :: rest => integerIn? 8 rest
  | '0' :: 'b' :: rest => integerIn? 2 rest
  | _ =>
    let sign : Int := if text.head? == some '-' then -1 else 1
    (wholeDigits? (unsigned text)).map fun digits => sign * Int.ofNat (valueIn 10 digits)

-- A fraction after a whole number, an exponent, or both
def isFloat (text : List Char) : Bool :=
  let body := unsigned text
  let (mantissa, exponent) := body.span fun c => c != 'e' && c != 'E'
  let (whole, fraction) := mantissa.span (· != '.')
  let wellFormed :=
    (wholeDigits? whole).isSome &&
    (fraction.isEmpty || (grouped? Char.isDigit fraction.tail).isSome) &&
    (exponent.isEmpty || (grouped? Char.isDigit (unsigned exponent.tail)).isSome)
  body == "inf".toList || body == "nan".toList ||
    (wellFormed && !(fraction.isEmpty && exponent.isEmpty))

-- A number of so many digits at the front
def number? (digits : Nat) (text : List Char) : Option (Nat × List Char) :=
  let front := text.take digits
  if front.length = digits && front.all Char.isDigit then
    some (Text.digitsValue 0 front, text.drop digits)
  else none

def after? (c : Char) : List Char → Option (List Char)
  | d :: rest => if d = c then some rest else none
  | [] => none

def isLeapYear (year : Nat) : Bool :=
  year % 4 = 0 && (year % 100 != 0 || year % 400 = 0)

def daysIn (year month : Nat) : Nat :=
  if month = 2 then (if isLeapYear year then 29 else 28)
  else if [4, 6, 9, 11].contains month then 30
  else 31

-- What follows a date at the front
def afterDate? (text : List Char) : Option (List Char) := do
  let (year, rest) ← number? 4 text
  let (month, rest) ← number? 2 (← after? '-' rest)
  let (day, rest) ← number? 2 (← after? '-' rest)
  if 1 ≤ month && month ≤ 12 && 1 ≤ day && day ≤ daysIn year month then some rest else none

-- What follows an hour and a minute at the front
def afterMinute? (text : List Char) : Option (List Char) := do
  let (hour, rest) ← number? 2 text
  let (minute, rest) ← number? 2 (← after? ':' rest)
  if hour < 24 && minute < 60 then some rest else none

-- What follows the seconds at the front, if there are any. A second may be inserted.
def afterSeconds? (text : List Char) : Option (List Char) := do
  match text with
  | ':' :: rest =>
    let (second, rest) ← number? 2 rest
    if 60 < second then none
    else
      match rest with
      | '.' :: rest =>
        let digits := rest.takeWhile Char.isDigit
        if digits.isEmpty then none else some (rest.drop digits.length)
      | _ => some rest
  | _ => some text

def afterTime? (text : List Char) : Option (List Char) := do
  afterSeconds? (← afterMinute? text)

-- Nothing, or how far a time is off from the standard one
def isOffset (text : List Char) : Bool :=
  match text with
  | [] => true
  | ['Z'] => true
  | ['z'] => true
  | sign :: rest => (sign == '+' || sign == '-') && afterMinute? rest == some []

def isMoment (text : List Char) : Bool :=
  match afterDate? text with
  | some [] => true
  | some (mark :: time) =>
    (mark == 'T' || mark == 't' || mark == ' ') && (afterTime? time).any isOffset
  | none => afterTime? text == some []

def ofText? (text : List Char) : Option Scalar :=
  if text == "true".toList then some (.truth true)
  else if text == "false".toList then some (.truth false)
  else
    match integer? text with
    | some n => some (.integer n)
    | none =>
      if isFloat text then some .float
      else if isMoment text then some .moment
      else none

-- Characters that end a value
def isEnd (c : Char) : Bool :=
  [' ', '\t', '\n', '\r', ',', ']', '\x7d', '#', '='].contains c

-- The characters of a value at the front. One space may part a date from a time.
def letters (text : List Char) : List Char :=
  let front := text.takeWhile fun c => !isEnd c
  match text.drop front.length with
  | ' ' :: rest =>
    if afterDate? front == some [] && rest.head?.any Char.isDigit then
      front ++ ' ' :: rest.takeWhile fun c => !isEnd c
    else front
  | _ => front

-- A value at the front and what follows it
def read? (text : List Char) : Option (Scalar × List Char) := do
  let front := letters text
  let scalar ← ofText? front
  some (scalar, text.drop front.length)

end Scalar

end Blocklist.Toml
