import Blocklist.Json.Reader
-- Passing over a JSON value that nobody asked for.
namespace Blocklist.Json

-- A text after its opening quote. Escapes may be lone surrogates here.
def skipTextWith : Nat → Read Unit
  | 0, _ => .error .unfinished
  | _ + 1, [] => .error .unfinished
  | fuel + 1, c :: rest =>
    if c == '\"' then .ok ((), rest)
    else if c == '\\' then
      match rest with
      | [] => .error .unfinished
      | 'u' :: rest => do
        let (_, rest) ← hexCode rest
        skipTextWith fuel rest
      | d :: rest =>
        if ['\"', '\\', '/', 'b', 'f', 'n', 'r', 't'].contains d then skipTextWith fuel rest
        else .error .malformed
    else if c.toNat < 0x20 then .error .malformed
    else skipTextWith fuel rest

def skipText : Read Unit := fun text => skipTextWith (text.length + 1) text

-- Digits, of which there has to be one
def skipDigits : Read Unit := fun text =>
  match digits text with
  | ([], _) => .error .malformed
  | (_, rest) => .ok ((), rest)

def skipExponent : Read Unit := fun text =>
  match text with
  | 'e' :: '+' :: rest => skipDigits rest
  | 'e' :: '-' :: rest => skipDigits rest
  | 'e' :: rest => skipDigits rest
  | 'E' :: '+' :: rest => skipDigits rest
  | 'E' :: '-' :: rest => skipDigits rest
  | 'E' :: rest => skipDigits rest
  | rest => .ok ((), rest)

-- A number after its sign
def skipNumber : Read Unit := fun text =>
  match digits text with
  | ([], _) => .error .malformed
  | ('0' :: _ :: _, _) => .error .malformed
  | (_, '.' :: rest) => do
    let (_, rest) ← skipDigits rest
    skipExponent rest
  | (_, rest) => skipExponent rest

-- What encloses the value being passed over
inductive Enclosure where
  | list
  | object
  deriving DecidableEq, Repr

-- Where a value, or what comes after one, is expected
inductive Expected where
  | value
  -- after an opening bracket
  | firstItem
  -- after a value inside a bracket
  | afterItem
  deriving DecidableEq, Repr

-- The name of a field with its colon
def skipName : Read Unit := fun text =>
  match skipBlanks text with
  | [] => .error .unfinished
  | '\"' :: rest => do
    let (_, rest) ← skipText rest
    expect ':' rest
  | _ => .error .malformed

-- Where to go on inside an enclosure: at a value, which in an object has a name first
def intoItem (around : Enclosure) : Read Unit :=
  match around with
  | .list => fun text => .ok ((), text)
  | .object => skipName

def closing : Enclosure → Char
  | .list => ']'
  | .object => '\x7d'

-- Pass over a value, whose enclosures are kept in a stack. Two turns take at least
-- one character, so twice the length of the text is fuel enough.
def skipWith : Nat → List Enclosure → Expected → Read Unit
  | 0, _, _, _ => .error .unfinished
  | fuel + 1, stack, .value, text => do
    let next (r : Except ReadError (Unit × List Char)) : Except ReadError (Unit × List Char) := do
      let (_, rest) ← r
      if stack.isEmpty then .ok ((), rest) else skipWith fuel stack .afterItem rest
    match skipBlanks text with
    | [] => .error .unfinished
    | 'n' :: rest => next (wordRest ['u', 'l', 'l'] rest)
    | 't' :: rest => next (wordRest ['r', 'u', 'e'] rest)
    | 'f' :: rest => next (wordRest ['a', 'l', 's', 'e'] rest)
    | '-' :: rest => next (skipNumber rest)
    | '\"' :: rest => next (skipText rest)
    | '[' :: rest => skipWith fuel (.list :: stack) .firstItem rest
    | '\x7b' :: rest => skipWith fuel (.object :: stack) .firstItem rest
    | c :: rest => if c.isDigit then next (skipNumber (c :: rest)) else .error .malformed
  | _ + 1, [], _, text => .ok ((), text)
  | fuel + 1, around :: stack, expected, text =>
    match skipBlanks text with
    | [] => .error .unfinished
    | c :: rest =>
      if c == closing around then
        if stack.isEmpty then .ok ((), rest) else skipWith fuel stack .afterItem rest
      else if expected == .firstItem then do
        let (_, rest) ← intoItem around (c :: rest)
        skipWith fuel (around :: stack) .value rest
      else if c == ',' then do
        let (_, rest) ← intoItem around rest
        skipWith fuel (around :: stack) .value rest
      else .error .malformed

def skipValue : Read Unit := fun text =>
  skipWith (2 * text.length + 2) [] .value text

end Blocklist.Json
