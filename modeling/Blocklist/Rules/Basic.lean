import Blocklist.Text.Number
-- Block rules, as the rule engine of a browser reads them.
namespace Blocklist

-- What happens to a request that a rule matches
structure Action where
  kind : String
  deriving DecidableEq, Repr

-- Which requests a rule matches: the text in their address, and what they load
structure Condition where
  urlFilter : String
  resourceTypes : List String
  deriving DecidableEq, Repr

structure Rule where
  id : UInt32
  priority : UInt32
  action : Action
  condition : Condition
  deriving DecidableEq, Repr

namespace Rule

-- Identifier of the first rule
def firstId : Nat := 2000

-- Priority of every rule
def standardPriority : UInt32 := 1

-- What every rule applies to
def standardResources : List String := ["script", "image", "xmlhttprequest", "sub_frame"]

-- The rule that blocks a domain
def block (id : UInt32) (domain : String) : Rule :=
  ⟨id, standardPriority, ⟨"block"⟩, ⟨domain, standardResources⟩⟩

-- Rules with consecutive identifiers from `id` on. The identifier after the next is
-- counted up before a domain takes the next, so the largest one is never given out.
def number? (id : Nat) : List String → Option (List Rule)
  | [] => if id + 1 < Text.bound32 then some [] else none
  | domain :: rest =>
    if id + 1 < Text.bound32 then (number? (id + 1) rest).map (block (UInt32.ofNat id) domain :: ·)
    else none

-- A rule for each domain, in order
def build? (domains : List String) : Option (List Rule) :=
  number? firstId domains

-- Domains that a summary shows
def sampleSize : Nat := 5

-- What is said about the rules of a finished run
def summary (rules : List Rule) : String :=
  let count := "Generated " ++ toString rules.length ++ " rules"
  let sample := (rules.take sampleSize).map fun r => r.condition.urlFilter
  if sample.isEmpty then count else count ++ " (e.g. " ++ ", ".intercalate sample ++ ")"

end Rule

end Blocklist
