import Blocklist.Text.Number
-- Reading of JSON by what is expected next. A reader takes a value off the front of
-- the text and gives the rest.
namespace Blocklist.Json

inductive ReadError where
  -- the text is no JSON
  | malformed
  -- the text breaks off
  | unfinished
  -- the text is JSON but not what was expected
  | unfitting
  deriving DecidableEq, Repr

abbrev Read (α : Type) : Type := List Char → Except ReadError (α × List Char)

def isBlank (c : Char) : Bool :=
  c == ' ' || c == '\n' || c == '\t' || c == '\r'

def skipBlanks (text : List Char) : List Char :=
  text.dropWhile isBlank

-- The character `c` after blanks
def expect (c : Char) : Read Unit := fun text =>
  match skipBlanks text with
  | [] => .error .unfinished
  | d :: rest => if d == c then .ok ((), rest) else .error .malformed

-- The letters of a word whose start has been read
def wordRest : List Char → Read Unit
  | [], text => .ok ((), text)
  | _ :: _, [] => .error .unfinished
  | c :: word, d :: rest => if d == c then wordRest word rest else .error .malformed

-- Four hexadecimal digits. The text breaks off if fewer than four bytes are left.
def hexCode : Read Nat
  | a :: b :: c :: d :: rest =>
    match Text.hexValue? a, Text.hexValue? b, Text.hexValue? c, Text.hexValue? d with
    | some a, some b, some c, some d => .ok (((a * 16 + b) * 16 + c) * 16 + d, rest)
    | _, _, _, _ => .error .malformed
  | text => if 4 ≤ (String.ofList text).utf8ByteSize then .error .malformed else .error .unfinished

def isHighSurrogate (code : Nat) : Bool := 0xD800 ≤ code && code ≤ 0xDBFF

def isLowSurrogate (code : Nat) : Bool := 0xDC00 ≤ code && code ≤ 0xDFFF

-- The second half of a character written as two surrogates
def lowSurrogate (high : Nat) : Read Char
  | [] => .error .unfinished
  | ['\\'] => .error .unfinished
  | '\\' :: 'u' :: rest => do
    let (low, rest) ← hexCode rest
    if isLowSurrogate low then
      .ok (Char.ofNat ((high - 0xD800) * 0x400 + (low - 0xDC00) + 0x10000), rest)
    else .error .malformed
  | _ => .error .malformed

-- The character that an escape stands for, after its backslash
def escaped : Read Char
  | [] => .error .unfinished
  | '\"' :: rest => .ok ('\"', rest)
  | '\\' :: rest => .ok ('\\', rest)
  | '/' :: rest => .ok ('/', rest)
  | 'b' :: rest => .ok ('\x08', rest)
  | 'f' :: rest => .ok ('\x0c', rest)
  | 'n' :: rest => .ok ('\n', rest)
  | 'r' :: rest => .ok ('\r', rest)
  | 't' :: rest => .ok ('\t', rest)
  | 'u' :: rest => do
    let (code, rest) ← hexCode rest
    if isLowSurrogate code then .error .malformed
    else if isHighSurrogate code then lowSurrogate code rest
    else .ok (Char.ofNat code, rest)
  | _ :: _ => .error .malformed

-- The characters up to a closing quote. Each takes at least one character of the
-- text, so its length is fuel enough.
def charsWith : Nat → Read (List Char)
  | 0, _ => .error .unfinished
  | _ + 1, [] => .error .unfinished
  | fuel + 1, c :: rest =>
    if c == '\"' then .ok ([], rest)
    else if c == '\\' then do
      let (c, rest) ← escaped rest
      let (cs, rest) ← charsWith fuel rest
      .ok (c :: cs, rest)
    else if c.toNat < 0x20 then .error .malformed
    else do
      let (cs, rest) ← charsWith fuel rest
      .ok (c :: cs, rest)

-- A text after its opening quote
def textRest : Read String := fun text => do
  let (cs, rest) ← charsWith text.length text
  .ok (String.ofList cs, rest)

-- A number as it is written: whether it is a plain natural number, and its value
inductive Number where
  | natural (value : Nat)
  | other
  deriving DecidableEq, Repr

def digits (text : List Char) : List Char × List Char :=
  (text.takeWhile Char.isDigit, text.dropWhile Char.isDigit)

-- Values from here on are no finite number: the midpoint between the largest double
-- and the power of two above it
def overflowLimit : Nat := Nat.pow 2 1024 - Nat.pow 2 970

-- Whether `mantissa` times ten to the power `exponent` is out of range. The decimal
-- exponent is bounded so that no power is large.
def overflows (mantissa : Nat) (exponent : Int) : Bool :=
  if mantissa = 0 then false
  else
    let size : Int := (Nat.toDigits 10 mantissa).length
    if exponent + size > 310 then true
    else if exponent + size < 300 then false
    else if exponent ≥ 0 then overflowLimit ≤ mantissa * Nat.pow 10 exponent.toNat
    else overflowLimit * Nat.pow 10 (-exponent).toNat ≤ mantissa

-- The exponent of a number, after its `e`
def exponentRest (whole fraction : List Char) : Read Number := fun text => do
  let (negative, text) := match text with
    | '+' :: rest => (false, rest)
    | '-' :: rest => (true, rest)
    | rest => (false, rest)
  match text with
  | [] => .error .unfinished
  | c :: _ =>
    let (ds, rest) := digits text
    if !c.isDigit then .error .malformed
    else
      let size : Int := Text.digitsValue 0 ds
      let exponent := (if negative then -size else size) - fraction.length
      if overflows (Text.digitsValue 0 (whole ++ fraction)) exponent then .error .malformed
      else .ok (.other, rest)

-- A number after its sign
def numberRest (negative : Bool) : Read Number := fun text =>
  match digits text with
  | ([], []) => .error .unfinished
  | ([], _ :: _) => .error .malformed
  | ('0' :: _ :: _, _) => .error .malformed
  | (whole, rest) =>
    match rest with
    | '.' :: rest =>
      match digits rest with
      | ([], []) => .error .unfinished
      | ([], _ :: _) => .error .malformed
      | (fraction, 'e' :: rest) => exponentRest whole fraction rest
      | (fraction, 'E' :: rest) => exponentRest whole fraction rest
      | (_, rest) => .ok (.other, rest)
    | 'e' :: rest => exponentRest whole [] rest
    | 'E' :: rest => exponentRest whole [] rest
    | rest =>
      if overflows (Text.digitsValue 0 whole) 0 then .error .malformed
      else if negative then .ok (.other, rest)
      else .ok (.natural (Text.digitsValue 0 whole), rest)

-- The error for a value of an unexpected kind. A broken word, text or number counts
-- as such first.
def unfitting (text : List Char) : ReadError :=
  let of {α : Type} (r : Except ReadError α) : ReadError := match r with
    | .error e => e
    | .ok _ => .unfitting
  match text with
  | 'n' :: rest => of (wordRest ['u', 'l', 'l'] rest)
  | 't' :: rest => of (wordRest ['r', 'u', 'e'] rest)
  | 'f' :: rest => of (wordRest ['a', 'l', 's', 'e'] rest)
  | '-' :: rest => of (numberRest true rest)
  | '\"' :: rest => of (textRest rest)
  | '[' :: _ => .unfitting
  | '\x7b' :: _ => .unfitting
  | c :: _ => if c.isDigit then of (numberRest false text) else .malformed
  | [] => .malformed

def readText : Read String := fun text =>
  match skipBlanks text with
  | [] => .error .unfinished
  | '\"' :: rest => textRest rest
  | other => .error (unfitting other)

-- A natural number of 32 bits
def readWord32 : Read UInt32 := fun text =>
  let fit (r : Except ReadError (Number × List Char)) : Except ReadError (UInt32 × List Char) := do
    match ← r with
    | (.natural n, rest) => if n < Text.bound32 then .ok (UInt32.ofNat n, rest) else .error .unfitting
    | (.other, _) => .error .unfitting
  match skipBlanks text with
  | [] => .error .unfinished
  | '-' :: rest => fit (numberRest true rest)
  | c :: rest => if c.isDigit then fit (numberRest false (c :: rest)) else .error (unfitting (c :: rest))

-- The end of a list, of which `first` tells whether an item has been read yet. Gives
-- whether another item follows.
def nextItem (first : Bool) : Read Bool := fun text =>
  match skipBlanks text with
  | [] => .error .unfinished
  | ']' :: rest => .ok (false, ']' :: rest)
  | c :: rest =>
    if first then .ok (true, c :: rest)
    else if c == ',' then
      match skipBlanks rest with
      | [] => .error .unfinished
      | ']' :: _ => .error .malformed
      | rest => .ok (true, rest)
    else .error .malformed

-- The same for an object. The next item starts with a quote.
def nextField (first : Bool) : Read Bool := fun text =>
  match skipBlanks text with
  | [] => .error .unfinished
  | '\x7d' :: rest => .ok (false, '\x7d' :: rest)
  | c :: rest =>
    if first then if c == '\"' then .ok (true, c :: rest) else .error .malformed
    else if c == ',' then
      match skipBlanks rest with
      | [] => .error .unfinished
      | '\"' :: rest => .ok (true, '\"' :: rest)
      | _ => .error .malformed
    else .error .malformed

-- Items up to the closing bracket, which stays in the rest
def itemsWith {α : Type} (read : Read α) : Nat → Bool → Read (List α)
  | 0, _, _ => .error .unfinished
  | fuel + 1, first, text => do
    let (more, rest) ← nextItem first text
    if more then
      let (item, rest) ← read rest
      let (items, rest) ← itemsWith read fuel false rest
      .ok (item :: items, rest)
    else .ok ([], rest)

-- A list of items of one kind
def readList {α : Type} (read : Read α) : Read (List α) := fun text =>
  match skipBlanks text with
  | [] => .error .unfinished
  | '[' :: rest => do
    let (items, rest) ← itemsWith read (rest.length + 1) true rest
    let (_, rest) ← expect ']' rest
    .ok (items, rest)
  | other => .error (unfitting other)

end Blocklist.Json
