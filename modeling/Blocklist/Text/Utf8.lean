-- Decoding of UTF-8. A machine reads the bytes one at a time. Bytes that cannot be
-- part of a character become U+FFFD, one for each maximal piece of a sequence.
namespace Blocklist.Text

-- A character whose first bytes have been read
structure Partial where
  -- continuation bytes still to come
  owed : Nat
  -- bounds of the next one
  low : Nat
  high : Nat
  -- the bits read so far
  code : Nat

structure Decoder where
  pending : Option Partial
  -- the characters decoded so far, the latest first
  chars : List Char
  -- whether some bytes had to be replaced
  replaced : Bool

namespace Decoder

def start : Decoder := ⟨none, [], false⟩

def push (d : Decoder) (c : Char) : Decoder :=
  { d with pending := none, chars := c :: d.chars }

-- Stand in for bytes that are no character
def replace (d : Decoder) : Decoder :=
  ⟨none, '\uFFFD' :: d.chars, true⟩

def await (d : Decoder) (owed low high code : Nat) : Decoder :=
  { d with pending := some ⟨owed, low, high, code⟩ }

-- The first byte of a character. The bounds of the second byte exclude overlong
-- forms, surrogates and codes beyond U+10FFFF.
def lead (d : Decoder) (b : Nat) : Decoder :=
  if b < 0x80 then d.push (Char.ofNat b)
  else if b < 0xC2 then d.replace
  else if b < 0xE0 then d.await 1 0x80 0xBF (b - 0xC0)
  else if b < 0xF0 then
    d.await 2 (if b = 0xE0 then 0xA0 else 0x80) (if b = 0xED then 0x9F else 0xBF) (b - 0xE0)
  else if b < 0xF5 then
    d.await 3 (if b = 0xF0 then 0x90 else 0x80) (if b = 0xF4 then 0x8F else 0xBF) (b - 0xF0)
  else d.replace

def step (d : Decoder) (byte : UInt8) : Decoder :=
  let b := byte.toNat
  match d.pending with
  | none => d.lead b
  | some p =>
    if p.low ≤ b && b ≤ p.high then
      let code := p.code * 0x40 + (b - 0x80)
      if p.owed ≤ 1 then d.push (Char.ofNat code)
      else d.await (p.owed - 1) 0x80 0xBF code
    else d.replace.lead b

-- A character that breaks off at the end is replaced as well
def finish (d : Decoder) : Decoder :=
  if d.pending.isSome then d.replace else d

end Decoder

def decodeBytes (bytes : List UInt8) : Decoder :=
  (bytes.foldl Decoder.step Decoder.start).finish

-- The text of `bytes`, with U+FFFD for what is no UTF-8
def decodeLossy (bytes : List UInt8) : List Char :=
  (decodeBytes bytes).chars.reverse

-- The text of `bytes` if all of it is UTF-8
def decode? (bytes : List UInt8) : Option (List Char) :=
  let d := decodeBytes bytes
  if d.replaced then none else some d.chars.reverse

def encode (text : List Char) : List UInt8 :=
  text.flatMap String.utf8EncodeChar

end Blocklist.Text
