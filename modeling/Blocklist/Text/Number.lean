-- Digits, and unsigned numbers in decimal notation.
namespace Blocklist.Text

-- Numbers of 16, 32 and 64 bits stay below these bounds
def bound16 : Nat := 65536
def bound32 : Nat := 4294967296
def bound64 : Nat := 18446744073709551616

def digitValue (c : Char) : Nat :=
  c.toNat - '0'.toNat

-- The value of a hexadecimal digit in either case
def hexValue? (c : Char) : Option Nat :=
  if c.isDigit then some (digitValue c)
  else if 'a' ≤ c && c ≤ 'f' then some (c.toNat - 'a'.toNat + 10)
  else if 'A' ≤ c && c ≤ 'F' then some (c.toNat - 'A'.toNat + 10)
  else none

-- The value of decimal digits, read from the left after `value`
def digitsValue (value : Nat) (digits : List Char) : Nat :=
  digits.foldl (fun n c => n * 10 + digitValue c) value

-- A number up to `bound`: digits of ASCII, with at most one plus sign before them
def unsigned? (bound : Nat) (text : List Char) : Option Nat :=
  let digits := if text.head? == some '+' then text.tail else text
  if digits.isEmpty || !digits.all Char.isDigit then none
  else
    let value := digitsValue 0 digits
    if value ≤ bound then some value else none

def word32? (text : List Char) : Option Nat :=
  unsigned? (bound32 - 1) text

def word64? (text : List Char) : Option Nat :=
  unsigned? (bound64 - 1) text

end Blocklist.Text
