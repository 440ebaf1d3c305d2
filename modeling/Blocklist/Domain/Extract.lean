import Blocklist.Domain.Matcher
import Blocklist.Text.Ascending
import Blocklist.Text.LowerCase
-- Extraction of the domains that a filter list blocks.
namespace Blocklist.Domain

open Blocklist.Text

-- The starts of lines that block nothing: comments and exceptions
def skippedStarts : List (List Char) :=
  [['#'], ['!'], ['@', '@']]

def isSkipped (line : List Char) : Bool :=
  line.isEmpty || skippedStarts.any (·.isPrefixOf line)

-- Lower case of a candidate. The local host and names with an underscore are no
-- public host names.
def normalize? (candidate : List Char) : Option (List Char) :=
  let domain := lowerCase candidate
  if "localhost".toList.isPrefixOf domain || domain.contains '_' then none else some domain

-- What the matchers find in a line
def domainsOfLine (matchers : List Matcher) (line : List Char) : List (List Char) :=
  let line := trim line
  if isSkipped line then [] else matchers.filterMap fun find => (find line).bind normalize?

-- The domains that `matchers` find in `text`, in code point order
def extractWith (matchers : List Matcher) (text : String) : List String :=
  ascending (((text.toList.splitOn '\n').flatMap (domainsOfLine matchers)).map String.ofList)

-- The domains that a filter list blocks, in code point order
def extract (text : String) : List String :=
  extractWith Matcher.standard text

end Blocklist.Domain
