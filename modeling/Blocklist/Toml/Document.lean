import Blocklist.Toml.Quoted
import Blocklist.Toml.Table
-- Documents of TOML: lines that give values to keys and lines that name tables.
namespace Blocklist.Toml

def skipSpace (text : List Char) : List Char := text.dropWhile isSpace

-- What follows a comment at the front, if it has only characters that may stand there
def afterComment? (text : List Char) : Option (List Char) :=
  match text with
  | '#' :: rest =>
    let comment := rest.takeWhile fun c => c != '\n'
    let inner := if comment.getLast? == some '\r' then comment.dropLast else comment
    if inner.any isControl then none else some (rest.drop inner.length)
  | _ => some text

-- What follows the end of a line
def afterLine? (text : List Char) : Option (List Char) := do
  match ← afterComment? (skipSpace text) with
  | [] => some []
  | rest => afterBreak? rest

-- What follows spaces, line breaks and comments
def skipLinesWith : Nat → List Char → Option (List Char)
  | 0, text => some text
  | fuel + 1, text => do
    let rest ← afterComment? (skipSpace text)
    match afterBreak? rest with
    | some rest => skipLinesWith fuel rest
    | none => some rest

def skipLines? (text : List Char) : Option (List Char) := skipLinesWith text.length text

def isBareLetter (c : Char) : Bool :=
  c.isAlphanum || c == '_' || c == '-'

-- A key without dots at the front
def readName? (text : List Char) : Option (String × List Char) :=
  let bare := text.takeWhile isBareLetter
  if bare.isEmpty then Quoted.line? text
  else some (String.ofList bare, text.drop bare.length)

def readKeyWith : Nat → List Char → Option (List String × List Char)
  | 0, _ => none
  | fuel + 1, text => do
    let (name, rest) ← readName? (skipSpace text)
    match skipSpace rest with
    | '.' :: rest =>
      let (names, rest) ← readKeyWith fuel rest
      some (name :: names, rest)
    | rest => some ([name], rest)

-- A key at the front: names parted by dots. Spaces around them do not matter.
def readKey? (text : List Char) : Option (List String × List Char) :=
  readKeyWith (text.length + 1) text

mutual

-- A value at the front. Fuel of twice the length of the text is enough: each character
-- begins or ends at most one list, and each list takes two calls.
def readValueWith : Nat → List Char → Option (Value × List Char)
  | 0, _ => none
  | fuel + 1, text =>
    match text with
    | '[' :: rest => do
      let (items, rest) ← readItemsWith fuel rest
      some (.list items, rest)
    | '\x7b' :: rest => do
      let (entries, rest) ← readPairsWith fuel [] rest
      some (.table .closed entries, rest)
    | c :: _ =>
      if c == '\"' || c == '\x27' then
        (Quoted.read? text).map fun (s, rest) => (.text s, rest)
      else (Scalar.read? text).map fun (s, rest) => (.scalar s, rest)
    | [] => none

-- Values up to a closing bracket, parted by commas. One may stand at the end.
def readItemsWith : Nat → List Char → Option (List Value × List Char)
  | 0, _ => none
  | fuel + 1, text => do
    match ← skipLines? text with
    | ']' :: rest => some ([], rest)
    | rest =>
      let (item, rest) ← readValueWith fuel rest
      match ← skipLines? rest with
      | ',' :: rest =>
        let (items, rest) ← readItemsWith fuel rest
        some (item :: items, rest)
      | ']' :: rest => some ([item], rest)
      | _ => none

-- Keys with their values up to a closing brace, parted by commas
def readPairsWith : Nat → Entries → List Char → Option (Entries × List Char)
  | 0, _, _ => none
  | fuel + 1, entries, text => do
    match ← skipLines? text with
    | '\x7d' :: rest => some (entries, rest)
    | rest =>
      let (path, rest) ← readKey? rest
      let rest ← Scalar.after? '=' rest
      let (value, rest) ← readValueWith fuel (skipSpace rest)
      let entries ← entries.assign? [] path value
      match ← skipLines? rest with
      | ',' :: rest => readPairsWith fuel entries rest
      | '\x7d' :: rest => some (entries, rest)
      | _ => none

end

-- A document as far as it has been read
structure Draft where
  entries : Entries
  -- keys to the table that takes the values
  current : List String

-- A line at the front that says something
def readStatement? (d : Draft) (text : List Char) : Option (Draft × List Char) := do
  match text with
  | '[' :: '[' :: rest =>
    let (path, rest) ← readKey? rest
    let rest ← Scalar.after? ']' (← Scalar.after? ']' rest)
    some (⟨← d.entries.append? path, path⟩, rest)
  | '[' :: rest =>
    let (path, rest) ← readKey? rest
    let rest ← Scalar.after? ']' rest
    some (⟨← d.entries.define? path, path⟩, rest)
  | _ =>
    let (path, rest) ← readKey? text
    let rest ← Scalar.after? '=' rest
    let (value, rest) ← readValueWith (2 * rest.length + 2) (skipSpace rest)
    some (⟨← d.entries.assign? d.current path value, d.current⟩, rest)

-- A document has no more lines than characters
def readLinesWith : Nat → Draft → List Char → Option Entries
  | 0, _, _ => none
  | fuel + 1, d, text => do
    match ← skipLines? text with
    | [] => some d.entries
    | rest =>
      let (d, rest) ← readStatement? d rest
      readLinesWith fuel d (← afterLine? rest)

-- The entries of a document. A mark for the order of bytes at its start does not count.
def read? (text : String) : Option Entries :=
  let text := match text.toList with
    | '\uFEFF' :: rest => rest
    | text => text
  readLinesWith (text.length + 1) ⟨[], []⟩ text

end Blocklist.Toml
