import Blocklist.Domain.Extract
import Blocklist.Fetch.Outcome
import Std.Data.HashSet
-- Collecting the domains of many filter lists, each once, up to a limit.
namespace Blocklist

structure Collector where
  limit : Nat
  -- for telling quickly whether a domain is there already
  seen : Std.HashSet String
  -- the domains so far, in the order in which they were first seen
  domains : Array String

namespace Collector

-- Limit of domains in one run, unless another is asked for
def defaultLimit : Nat := 400

def empty (limit : Nat) : Collector := ⟨limit, ∅, #[]⟩

def toList (c : Collector) : List String := c.domains.toList

def isFull (c : Collector) : Bool := c.limit ≤ c.domains.size

-- A domain that is new is appended while there is room
def insert (c : Collector) (domain : String) : Collector :=
  if c.isFull || c.seen.contains domain then c
  else ⟨c.limit, c.seen.insert domain, c.domains.push domain⟩

def insertAll (c : Collector) (domains : List String) : Collector :=
  domains.foldl insert c

-- The domains of an outcome: those of its text, in code point order
def domainsOf (o : Outcome) : List String :=
  match o.text? with
  | none => []
  | some text => Domain.extract text

def add (c : Collector) (o : Outcome) : Collector :=
  c.insertAll (domainsOf o)

-- What is said about an outcome when it is added
def remark (o : Outcome) : String :=
  match o.text? with
  | none => "Skipping " ++ o.display
  | some text => "Found " ++ toString (Domain.extract text).length ++ " domains in " ++ o.display

-- What is said when there are as many domains as are wanted
def fullRemark (limit : Nat) : String := "Reached limit of " ++ toString limit ++ " domains"

-- Add outcomes until the collector is full. The number tells how many were taken.
def addWhileRoom (c : Collector) : List Outcome → Collector × Nat
  | [] => (c, 0)
  | o :: rest =>
    if c.isFull then (c, 0)
    else
      let (last, taken) := (c.add o).addWhileRoom rest
      (last, taken + 1)

-- The domains of a stream of outcomes up to a limit, and how many outcomes it took
def collect (limit : Nat) (outcomes : List Outcome) : List String × Nat :=
  let (c, taken) := (empty limit).addWhileRoom outcomes
  (c.toList, taken)

end Collector

end Blocklist
