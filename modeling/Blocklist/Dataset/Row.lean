import Blocklist.Text.Blank
import Blocklist.Text.Number
-- Rows of the dataset of filter lists: the tags and the location of a list.
namespace Blocklist.Dataset

open Blocklist.Text

-- Tags that are selected unless others are asked for: advertising, tracking and
-- malware
def defaultInterest : List Nat := [2, 3, 6]

-- A cell that the dataset leaves out or leaves empty is absent
structure Row where
  tagIds : Option String
  url : Option String
  deriving DecidableEq, Repr

namespace Row

-- The part of `text` before its last `c`
def beforeLast? (c : Char) (text : List Char) : Option (List Char) :=
  match text.reverse.dropWhile (· != c) with
  | [] => none
  | _ :: earlier => some earlier.reverse

-- What stands between the first `[` of a line and its last `]`
def bracketed? (line : List Char) : Option (List Char) :=
  match line.dropWhile (· != '[') with
  | [] => none
  | _ :: rest => beforeLast? ']' rest

-- The bracketed tag list, from the first line that has one
def tagList? (text : List Char) : Option (List Char) :=
  (text.splitOn '\n').findSome? bracketed?

-- The tags in a raw cell. Items that are no tag numbers are left out.
def tagsOf (raw : List Char) : List Nat :=
  match tagList? raw with
  | none => []
  | some items => (items.splitOn ',').filterMap fun item => word32? (trim item)

def tags (row : Row) : List Nat :=
  match row.tagIds with
  | none => []
  | some raw => tagsOf raw.toList

-- The location of the list if it is on the web and has a tag of `interest`
def candidate? (interest : List Nat) (row : Row) : Option String := do
  let url ← row.url
  if "http".toList.isPrefixOf url.toList && row.tags.any interest.contains then some url else none

end Row

end Blocklist.Dataset
