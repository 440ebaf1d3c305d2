import Blocklist.Text.Blank
-- Matchers: each finds at most one domain in a line of a filter list, for one of
-- the notations in use.
namespace Blocklist.Domain

open Blocklist.Text

-- A matcher gives the domain as it is written in the line
abbrev Matcher : Type := List Char → Option (List Char)

namespace Matcher

-- Letters, digits, dots and hyphens of ASCII
def isHostChar (c : Char) : Bool :=
  c.isAlphanum || c == '.' || c == '-'

-- `text` split into its leading host characters and the rest
def hostSpan (text : List Char) : List Char × List Char :=
  (text.takeWhile isHostChar, text.dropWhile isHostChar)

-- The addresses that a hosts file maps unwanted hosts to
def sinkAddresses : List (List Char) :=
  ["0.0.0.0".toList, "127.0.0.1".toList]

-- The host of a hosts-file line, after its address: blanks, then host characters
-- to the end of the line
def hostAfterAddress (rest : List Char) : Option (List Char) :=
  let host := rest.dropWhile isBlank
  if host.length < rest.length && !host.isEmpty && host.all isHostChar then some host else none

-- Lines of hosts files, such as `0.0.0.0 ads.example.com`
def hosts : Matcher := fun line =>
  (sinkAddresses.findSome? fun address => address.isPrefixOf? line).bind hostAfterAddress

-- The domain after `||`, which ends at `^`
def anchorHere (text : List Char) : Option (List Char) := do
  let rest ← ['|', '|'].isPrefixOf? text
  let (host, rest) := hostSpan rest
  if !host.isEmpty && rest.head? == some '^' then some host else none

-- Domain anchors such as `||ads.example.com^`, anywhere in the line
def anchor : Matcher
  | [] => none
  | c :: text => (anchorHere (c :: text)).or (anchor text)

-- Cosmetic filters such as `example.com###banner`
def cosmetic : Matcher := fun line => do
  let (host, rest) := hostSpan line
  let c ← (← ['#', '#', '#'].isPrefixOf? rest).head?
  if !host.isEmpty && c != '#' then some host else none

-- `text` up to the end of the letters after its last dot that has two letters or
-- more behind it
def throughLastLabel : List Char → Option (List Char)
  | [] => none
  | c :: text =>
    match throughLastLabel text with
    | some found => some (c :: found)
    | none =>
      if c == '.' then
        let label := text.takeWhile Char.isAlpha
        if 2 ≤ label.length then some ('.' :: label) else none
      else none

-- The domain at the start of a run of host characters. Something has to stand
-- before its last dot.
def domainOfRun : List Char → Option (List Char)
  | [] => none
  | c :: run => (throughLastLabel run).map (c :: ·)

-- Anything that looks like a domain: the first run of host characters that has one
def generic : Matcher := fun line =>
  (line.splitOnP fun c => !isHostChar c).findSome? domainOfRun

-- The matchers that are used on filter lists
def standard : List Matcher := [hosts, anchor, cosmetic, generic]

end Matcher

end Blocklist.Domain
