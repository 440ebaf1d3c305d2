import Blocklist.Domain.Collector
import Blocklist.Pool.Timeline
import Blocklist.Rules.Basic
-- One run over the filter lists: fetch them, collect their domains up to a limit, and
-- turn the domains into rules. A deadline ends the submission of fetches.
namespace Blocklist.Pool

-- Milliseconds after which no fetch begins any more, unless told otherwise
def defaultDeadline : Nat := 120000

structure Generator where
  ceiling : Nat
  -- in milliseconds
  deadline : Nat

-- What a run came to
structure Collected where
  domains : List String
  -- when it returned
  finishedAt : Nat
  submitted : Nat
  -- crashes that were reported meanwhile
  reports : List Crash

-- The state of a run
structure Run where
  timeline : Timeline
  collector : Collector

namespace Run

-- Take what is in the channel, while there is room
def drain (r : Run) : Run :=
  let (collector, taken) := r.collector.addWhileRoom r.timeline.batch.channel
  ⟨(List.range taken).foldl (fun t _ => t.happen .pull) r.timeline, collector⟩

-- The run at the next moment at which something happens: a fetch finishes, or the
-- deadline passes, which goes first
def advance? (deadline : Nat) (t : Timeline) : Option Timeline := do
  let due ← t.nextDue?
  if !t.batch.cancelled && deadline ≤ due then
    some ({ t with now := deadline }.cancel)
  else some (t.moveTo due)

def finishWith (deadline : Nat) : Nat → Run → Run
  | 0, r => r
  | fuel + 1, r =>
    let r := r.drain
    if r.collector.isFull then r
    else
      let t := r.timeline.settle
      if !t.batch.channel.isEmpty then finishWith deadline fuel { r with timeline := t }
      else if t.batch.isEnded then { r with timeline := t }
      else
        match advance? deadline t with
        | none => { r with timeline := t }
        | some t => finishWith deadline fuel { r with timeline := t }

-- Run to the end. Each turn takes an outcome, finishes a fetch or passes the deadline.
def finish (deadline : Nat) (r : Run) : Run :=
  let b := r.timeline.batch
  finishWith deadline
    (2 * b.queue.length + 2 * b.running.length + b.waiting.length + b.channel.length + 2) r

def reports (r : Run) : List Crash :=
  r.timeline.history.filterMap fun
    | .reported crash => some crash
    | _ => none

-- The crashes that are still to be reported, of fetches that have crashed or will
def unreported (r : Run) : List Crash :=
  r.timeline.batch.crashes ++ r.timeline.batch.running.filterMap fun f =>
    match (r.timeline.script f.url).2 with
    | .crashed reason => some ⟨f.position, reason⟩
    | .given _ => none

end Run

namespace Generator

-- A batch cannot be had if its ceiling is out of range
def isPossible (g : Generator) : Bool := g.ceiling ≤ maxCeiling

-- The run that collects domains, where it returns
def run (g : Generator) (script : Script) (urls : List String) (limit : Nat) : Run :=
  Run.finish g.deadline
    ⟨Timeline.start script g.ceiling urls (g.deadline == 0), Collector.empty limit⟩

-- There is no run for no domains
def run? (g : Generator) (script : Script) (urls : List String) (limit : Nat) : Option Run :=
  if (Collector.empty limit).isFull then none else some (g.run script urls limit)

-- The domains of the lists at `urls`, up to `limit`
def collectDomains (g : Generator) (script : Script) (urls : List String) (limit : Nat) :
    Collected :=
  match g.run? script urls limit with
  | none => ⟨[], 0, 0, []⟩
  | some r => ⟨r.collector.toList, r.timeline.now, r.timeline.batch.submitted, r.reports⟩

def startRemark (g : Generator) (urls : List String) : String :=
  "Fetching " ++ toString urls.length ++ " lists (" ++ toString g.ceiling ++ " at a time)"

def endRemark (c : Collected) : String :=
  "Collected " ++ toString c.domains.length ++ " unique domains"

end Generator

end Blocklist.Pool
