import Blocklist.Program.Plan
import Blocklist.Program.World
-- Generating rules from the lists of a dataset, and what is said meanwhile: by the run itself,
-- and by the tasks that run beside it.
namespace Blocklist.Program

open Blocklist.Fetch Blocklist.Log Pool

-- What came of generating rules
structure Generation where
  rules : List Rule
  -- the addresses that were asked for lists
  requests : List String

def Generation.domains (g : Generation) : List String :=
  g.rules.map fun r => r.condition.urlFilter

def poolLine (level : Level) (text : String) : Line := ownLine "_lib::client_pool" level text

def clientLine (text : String) : Line := ownLine "_lib::client" .debug text

def collectorLine (text : String) : Line := ownLine "_lib::aggregator" .debug text

def generatorLine (level : Level) (text : String) : Line := ownLine "_lib::generator" level text

namespace Plan

variable (p : Plan) (world : World) (limit : Nat)

-- The run that collects the domains, unless none is wanted
def run? : Option Run := p.settings.generator.run? (p.script world.network) p.urls limit

def collected : Collected :=
  p.settings.generator.collectDomains (p.script world.network) p.urls limit

-- What is said of the outcomes that were taken
def outcomeLines (r : Run) : List Line :=
  (Notes.delivered r.timeline.history).map (fun o => collectorLine (Collector.remark o)) ++
    if r.collector.isFull then [collectorLine (Collector.fullRemark r.collector.limit)] else []

-- What the run itself has to say. Without a batch it comes to an end at its beginning.
def lines : List Line :=
  let g := p.settings.generator
  let start := generatorLine .info (g.startRemark p.urls)
  if g.isPossible then
    start :: (p.run? world limit).toList.flatMap outcomeLines ++
      [generatorLine .info (Pool.Generator.endRemark (p.collected world limit))]
  else [start]

-- The task that waits for the deadline
def deadlineStrand (r : Run) : Strand :=
  ⟨if r.timeline.batch.cancelled then
      [generatorLine .debug ("Deadline of " ++ p.settings.deadline.display ++ " elapsed")] else [],
    []⟩

-- What the task that submits fetches says of their crashes
def crashLines (crashes : List Crash) : List Line :=
  crashes.map fun crash => poolLine .warn (crash.remark (world.task crash.position))

-- The task that submits fetches. The stream of outcomes ends after the submission does, and a
-- run that returns before that does not wait for it.
def submissionStrand (r : Run) : Strand :=
  let b := r.timeline.batch
  let remark := if b.cancelled || !world.dropIsSeen then cancelRemark else dropRemark
  let stopped := if b.queue.isEmpty then [] else [poolLine .debug remark]
  if b.isEnded then ⟨stopped ++ crashLines world r.reports, crashLines world r.unreported⟩
  else ⟨[], stopped ++ crashLines world (r.reports ++ r.unreported)⟩

-- The task of a fetch
def fetchStrand (r : Run) (f : Flight) : Strand :=
  let begun := [poolLine .debug (fetchRemark f.url)]
  let cut := if (p.client.fetch world.network f.url).truncated
    then [clientLine (p.client.cutRemark f.url)] else []
  if (r.timeline.batch.flight? f.position).isSome then ⟨begun, cut⟩ else ⟨begun ++ cut, []⟩

-- The tasks beside a run. Where no domain is wanted, the submission finds so before it begins.
def strands : List Strand :=
  let g := p.settings.generator
  if g.isPossible then
    match p.run? world limit with
    | none =>
      let t : Timeline := ⟨p.script world.network, 0, Batch.start g.ceiling p.urls, []⟩
      [submissionStrand world ⟨t, Collector.empty limit⟩]
    | some r =>
      p.deadlineStrand r :: submissionStrand world r ::
        (Notes.begun r.timeline.history).map (p.fetchStrand world r)
  else []

def requests : List String :=
  if p.settings.generator.isPossible then p.urls.take (p.collected world limit).submitted else []

end Plan

-- Generate up to `limit` rules. There are none if the ceiling of the batch is out of
-- range, or more rules than identifiers.
def generate? (p : Plan) (world : World) (limit : Nat) : Option Generation :=
  if p.settings.generator.isPossible then
    (Rule.build? (p.collected world limit).domains).map fun rules =>
      ⟨rules, p.requests world limit⟩
  else none

end Blocklist.Program
