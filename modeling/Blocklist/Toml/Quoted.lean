import Blocklist.Text.Number
-- Texts of TOML in quotes, on one line or on several.
namespace Blocklist.Toml

-- Control characters other than tabs stand in no text and no comment
def isControl (c : Char) : Bool :=
  (c.toNat < 0x20 && c != '\t') || c.toNat == 0x7F

def isSpace (c : Char) : Bool := c == ' ' || c == '\t'

-- What follows a line break at the front
def afterBreak? : List Char → Option (List Char)
  | '\n' :: rest => some rest
  | '\r' :: '\n' :: rest => some rest
  | _ => none

namespace Quoted

-- How a text is quoted
structure Style where
  quote : Char
  -- whether a backslash begins an escape
  hasEscapes : Bool
  -- whether it may have several lines
  hasLines : Bool

-- The character with a code of so many hexadecimal digits
def coded? (digits : Nat) (text : List Char) : Option (Char × List Char) := do
  let front := text.take digits
  let values ← front.mapM Text.hexValue?
  if values.length != digits then none
  else
    let code := values.foldl (fun n v => n * 16 + v) 0
    if code.isValidChar then some (Char.ofNat code, text.drop digits) else none

-- The character that an escape stands for, after its backslash
def escaped? : List Char → Option (Char × List Char)
  | 'b' :: rest => some ('\x08', rest)
  | 't' :: rest => some ('\t', rest)
  | 'n' :: rest => some ('\n', rest)
  | 'f' :: rest => some ('\x0c', rest)
  | 'r' :: rest => some ('\r', rest)
  | 'e' :: rest => some ('\x1b', rest)
  | '\"' :: rest => some ('\"', rest)
  | '\\' :: rest => some ('\\', rest)
  | 'x' :: rest => coded? 2 rest
  | 'u' :: rest => coded? 4 rest
  | 'U' :: rest => coded? 8 rest
  | _ => none

-- What follows blanks and line breaks that a backslash at the end of a line hides
def afterHidden? (text : List Char) : Option (List Char) := do
  let rest ← afterBreak? (text.dropWhile isSpace)
  some (rest.dropWhile fun c => isSpace c || c == '\n' || c == '\r')

-- Quotes at the end of a text with several lines. Three end it, and up to two more
-- before them are part of it.
def quotesAtEnd (quote : Char) (text : List Char) : Nat :=
  min 5 (text.takeWhile (· == quote)).length

-- The characters up to the end of the text. Each takes at least one character, so the
-- length is fuel enough.
def charsWith (style : Style) : Nat → List Char → Option (List Char × List Char)
  | 0, _ => none
  | _ + 1, [] => none
  | fuel + 1, c :: rest =>
    if c == style.quote then
      if !style.hasLines then some ([], rest)
      else
        let quotes := quotesAtEnd c (c :: rest)
        if 3 ≤ quotes then some (List.replicate (quotes - 3) c, (c :: rest).drop quotes)
        else (charsWith style fuel rest).map fun (cs, rest) => (c :: cs, rest)
    else if c == '\\' && style.hasEscapes then
      match if style.hasLines then afterHidden? rest else none with
      | some rest => charsWith style fuel rest
      | none => do
        let (c, rest) ← escaped? rest
        let (cs, rest) ← charsWith style fuel rest
        some (c :: cs, rest)
    else
      match afterBreak? (c :: rest) with
      | some rest =>
        if style.hasLines then
          (charsWith style fuel rest).map fun (cs, rest) => ('\n' :: cs, rest)
        else none
      | none =>
        if isControl c then none
        else (charsWith style fuel rest).map fun (cs, rest) => (c :: cs, rest)

def rest? (style : Style) (text : List Char) : Option (String × List Char) :=
  (charsWith style text.length text).map fun (cs, rest) => (String.ofList cs, rest)

-- A text on one line at the front
def line? : List Char → Option (String × List Char)
  | '\"' :: rest => rest? ⟨'\"', true, false⟩ rest
  | '\x27' :: rest => rest? ⟨'\x27', false, false⟩ rest
  | _ => none

-- A text on several lines, whose first line may be empty and does not count then
def lines? : List Char → Option (String × List Char)
  | '\"' :: '\"' :: '\"' :: rest => rest? ⟨'\"', true, true⟩ ((afterBreak? rest).getD rest)
  | '\x27' :: '\x27' :: '\x27' :: rest =>
    rest? ⟨'\x27', false, true⟩ ((afterBreak? rest).getD rest)
  | _ => none

-- A text at the front. Three quotes always begin a text on several lines.
def read? (text : List Char) : Option (String × List Char) :=
  match text with
  | '\"' :: '\"' :: '\"' :: _ => lines? text
  | '\x27' :: '\x27' :: '\x27' :: _ => lines? text
  | _ => line? text

end Quoted

end Blocklist.Toml
