import Blocklist.Text.Blank
import Blocklist.Text.Number
import Blocklist.Text.Utf8
-- Queries of requests: names with values, as a form sends them.
namespace Blocklist.Service

-- The part before the first question mark, and the query after it. Targets come from requests
-- whose lines could be read: there is no `#` in them, and nothing that no query may have.
def splitTarget (target : String) : String × List Char :=
  let (path, query) := target.toList.span (· != '?')
  (String.ofList path, query.tail)

-- The bytes that a text with percent codes stands for. What is no code stands for itself.
def unescape : List UInt8 → List UInt8
  | 0x25 :: high :: low :: rest =>
    match Text.hexValue? (Char.ofNat high.toNat), Text.hexValue? (Char.ofNat low.toNat) with
    | some h, some l => UInt8.ofNat (h * 16 + l) :: unescape rest
    | _, _ => 0x25 :: unescape (high :: low :: rest)
  | byte :: rest => byte :: unescape rest
  | [] => []

-- A plus stands for a space, and percent codes for bytes
def formDecode (text : List Char) : String :=
  let spaced := text.map fun c => if c = '+' then ' ' else c
  String.ofList (Text.decodeLossy (unescape (Text.encode spaced)))

-- A name without an equals sign has an empty value
def formPair (text : List Char) : String × String :=
  let (name, value) := text.span (· != '=')
  (formDecode name, formDecode value.tail)

def formPairs (query : List Char) : List (String × String) :=
  ((query.splitOn '&').filter fun item => !item.isEmpty).map formPair

def limitName : String := "limit"

-- The values that a query gives for the limit
def limitValues (query : List Char) : List String :=
  ((formPairs query).filter fun pair => pair.1 == limitName).map Prod.snd

-- What no number says leaves the limit as it is
def readLimit (standard : Nat) (value : String) : Nat :=
  (Text.word64? (Text.trim value.toList)).getD standard

-- The limit that a query asks for. It can be told only once.
def limitOf? (standard : Nat) (query : List Char) : Option Nat :=
  match limitValues query with
  | [] => some standard
  | [value] => some (readLimit standard value)
  | _ => none

end Blocklist.Service
