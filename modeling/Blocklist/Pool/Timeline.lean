import Blocklist.Pool.Batch
-- A batch run against a clock. A script says how long each fetch takes and what it
-- comes to, and everything else happens as soon as it can and takes no time.
namespace Blocklist.Pool

-- How long the fetch of a URL takes, in milliseconds, and what it comes to
abbrev Script : Type := String → Nat × Answer

structure Timeline where
  script : Script
  now : Nat
  batch : Batch
  -- what could be seen, and when, the latest first
  notes : List (Nat × Note)

namespace Timeline

-- What could be seen, the earliest first
def history (t : Timeline) : List Note := (t.notes.map Prod.snd).reverse

def due (t : Timeline) (f : Flight) : Nat := f.began + (t.script f.url).1

-- Of two fetches the one that finishes first, or began first
def earlier (t : Timeline) (f g : Flight) : Flight := if t.due g < t.due f then g else f

-- The running fetch that finishes first
def first? (t : Timeline) : Option Flight :=
  match t.batch.running with
  | [] => none
  | f :: rest => some (rest.foldl t.earlier f)

-- When a running fetch finishes next
def nextDue? (t : Timeline) : Option Nat := t.first?.map t.due

-- Let an event happen, if it can
def happen (t : Timeline) (e : Event) : Timeline :=
  match t.batch.step? e with
  | none => t
  | some b =>
    { t with
      batch := b
      notes := ((t.batch.note? e).map fun n => (t.now, n)).toList ++ t.notes }

-- The finishing of a fetch that is due
def landing? (t : Timeline) : Option Event := do
  let f ← t.first?
  if t.due f ≤ t.now then some (.finish f.position (t.script f.url).2) else none

-- An event that the batch is ready for without the consumer
def ready? (t : Timeline) : Option Event :=
  let can (e : Event) : Option Event := (t.batch.step? e).map fun _ => e
  t.landing?.or <| (can .discard).or <| (can .handOver).or <| (can .stop).or <|
    (can (.submit t.now)).or (can .report)

-- Let happen what is ready, a bounded number of times
def settleWith : Nat → Timeline → Timeline
  | 0, t => t
  | fuel + 1, t =>
    match t.ready? with
    | none => t
    | some e => settleWith fuel (t.happen e)

-- Let everything happen that is ready at this moment
def settle (t : Timeline) : Timeline := settleWith t.batch.work t

def start (script : Script) (ceiling : Nat) (urls : List String) (cancelled : Bool) : Timeline :=
  let t : Timeline := ⟨script, 0, Batch.start ceiling urls, []⟩
  (if cancelled then t.happen .cancel else t).settle

-- Turns in which time moves on are at most one for each fetch that is left
def turns (t : Timeline) : Nat := t.batch.queue.length + t.batch.running.length + 1

def moveTo (t : Timeline) (now : Nat) : Timeline := { t with now := now }.settle

def waitWith : Nat → Nat → Timeline → Timeline
  | 0, until_, t => t.moveTo until_
  | fuel + 1, until_, t =>
    match t.nextDue? with
    | some due => if due ≤ until_ then waitWith fuel until_ (t.moveTo due) else t.moveTo until_
    | none => t.moveTo until_

-- Let time pass
def wait (t : Timeline) (duration : Nat) : Timeline := waitWith t.turns (t.now + duration) t

def cancel (t : Timeline) : Timeline := (t.happen .cancel).settle

def drop (t : Timeline) : Timeline := (t.happen .drop).settle

def nextWith : Nat → Timeline → Timeline × Option Outcome
  | 0, t => (t, none)
  | fuel + 1, t =>
    match t.batch.channel with
    | o :: _ => ((t.happen .pull).settle, some o)
    | [] =>
      if t.batch.isEnded then (t, none)
      else
        match t.nextDue? with
        | none => (t, none)
        | some due => nextWith fuel (t.moveTo due)

-- Wait for the next outcome and take it. There is none at the end.
def next (t : Timeline) : Timeline × Option Outcome := nextWith (t.turns + 1) t

def collectWith : Nat → Timeline → Timeline × List Outcome
  | 0, t => (t, [])
  | fuel + 1, t =>
    match t.next with
    | (t, none) => (t, [])
    | (t, some o) =>
      let (t, outcomes) := collectWith fuel t
      (t, o :: outcomes)

-- Take all outcomes until the end
def collect (t : Timeline) : Timeline × List Outcome :=
  collectWith (t.turns + t.batch.waiting.length + t.batch.channel.length) t

end Timeline

end Blocklist.Pool
