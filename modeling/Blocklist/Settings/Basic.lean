import Blocklist.Dataset.Load
import Blocklist.Domain.Collector
import Blocklist.Fetch.Client
import Blocklist.Pool.Generator
import Blocklist.Settings.Duration
import Blocklist.Settings.Verbosity
-- The settings of a run. What the command line leaves at its standard value, a file of
-- settings may change.
namespace Blocklist

open Blocklist.Files Blocklist.Settings

structure Settings where
  verbosity : Verbosity
  dataset : Path
  output : Path
  -- most domains of a run
  limit : Nat
  -- most fetches at a time
  maxConcurrency : Nat
  -- number of worker threads, if it is told
  threads : Option Nat
  -- seconds that a fetch may take
  timeout : Nat
  -- time after which no fetch begins
  deadline : Duration
  userAgent : String
  -- tags of the lists to fetch, as they are told
  interest : List Nat
  -- where the service listens
  address : String
  deriving DecidableEq, Repr

namespace Settings

def standardOutput : Path := "rules/generated_blocklist.json"
def standardAddress : String := "0.0.0.0:8080"
def standardDeadline : Duration := Duration.ofSeconds 120

-- The file that settings are read from if there is one and no other is told
def standardFile : Path := "shieldgen.toml"

def standard : Settings where
  verbosity := Verbosity.standard
  dataset := Dataset.standardPath
  output := standardOutput
  limit := Collector.defaultLimit
  maxConcurrency := Pool.defaultCeiling
  threads := none
  timeout := Fetch.Client.standardTimeout
  deadline := standardDeadline
  userAgent := Fetch.Client.standardAgent
  interest := []
  address := standardAddress

-- A value stays unless it counts as the standard one and the other does not
def unlessStandard {α : Type} (same : α → α → Bool) (standard value other : α) : α :=
  if same value standard && !same other standard then other else value

-- The settings, with those of a file where they have standard values. Paths are compared by
-- their steps.
def merge (given file : Settings) : Settings where
  verbosity := unlessStandard (· == ·) standard.verbosity given.verbosity file.verbosity
  dataset := unlessStandard Path.same standard.dataset given.dataset file.dataset
  output := unlessStandard Path.same standard.output given.output file.output
  limit := unlessStandard (· == ·) standard.limit given.limit file.limit
  maxConcurrency :=
    unlessStandard (· == ·) standard.maxConcurrency given.maxConcurrency file.maxConcurrency
  threads := unlessStandard (· == ·) standard.threads given.threads file.threads
  timeout := unlessStandard (· == ·) standard.timeout given.timeout file.timeout
  deadline := unlessStandard (· == ·) standard.deadline given.deadline file.deadline
  userAgent := unlessStandard (· == ·) standard.userAgent given.userAgent file.userAgent
  interest := unlessStandard (· == ·) standard.interest given.interest file.interest
  address := unlessStandard (· == ·) standard.address given.address file.address

-- The tags in effect
def tags (s : Settings) : List Nat :=
  if s.interest.isEmpty then Dataset.defaultInterest else s.interest

-- The tags in effect in ascending order, each once
def tagSet (s : Settings) : List Nat :=
  (s.tags.mergeSort fun m n => m ≤ n).eraseReps

-- How lists are fetched under these settings
def generator (s : Settings) : Pool.Generator :=
  ⟨Pool.effectiveCeiling s.maxConcurrency, s.deadline.inMilliseconds⟩

end Settings

end Blocklist
