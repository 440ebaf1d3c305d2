-- Writing of JSON, on one line or indented by two spaces.
namespace Blocklist.Json

inductive Layout where
  | compact
  | indented
  deriving DecidableEq, Repr

def hexDigit (n : Nat) : Char :=
  if n < 10 then Char.ofNat (n + '0'.toNat) else Char.ofNat (n - 10 + 'a'.toNat)

-- A character inside quotes. Control characters have a short escape or a code of
-- four hexadecimal digits.
def escape (c : Char) : List Char :=
  match c with
  | '\"' => ['\\', '\"']
  | '\\' => ['\\', '\\']
  | '\x08' => ['\\', 'b']
  | '\x0c' => ['\\', 'f']
  | '\n' => ['\\', 'n']
  | '\r' => ['\\', 'r']
  | '\t' => ['\\', 't']
  | c =>
    if c.toNat < 0x20 then
      ['\\', 'u', '0', '0', hexDigit (c.toNat / 16), hexDigit (c.toNat % 16)]
    else [c]

def text (s : String) : List Char :=
  '\"' :: s.toList.flatMap escape ++ ['\"']

def number (n : Nat) : List Char := Nat.toDigits 10 n

-- The break before an item at that depth
def lineBreak (layout : Layout) (depth : Nat) : List Char :=
  match layout with
  | .compact => []
  | .indented => '\n' :: List.replicate (2 * depth) ' '

-- Items one level deeper than `depth`, between brackets
def bracketed (layout : Layout) (depth : Nat) (opening closing : Char)
    (items : List (List Char)) : List Char :=
  if items.isEmpty then [opening, closing]
  else
    opening :: [','].intercalate (items.map (lineBreak layout (depth + 1) ++ ·)) ++
      lineBreak layout depth ++ [closing]

def array (layout : Layout) (depth : Nat) (items : List (List Char)) : List Char :=
  bracketed layout depth '[' ']' items

def field (layout : Layout) (name : String) (value : List Char) : List Char :=
  text name ++ (match layout with | .compact => [':'] | .indented => [':', ' ']) ++ value

def object (layout : Layout) (depth : Nat) (fields : List (String × List Char)) : List Char :=
  bracketed layout depth '\x7b' '\x7d' (fields.map fun f => field layout f.1 f.2)

end Blocklist.Json
