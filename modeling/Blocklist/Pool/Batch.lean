import Blocklist.Fetch.Outcome
-- A batch of fetches with bounded concurrency. A fetch needs a permit from when it
-- begins until its outcome has been put into the channel to the consumer. There are
-- as many permits as places in the channel. Nothing here says when a fetch finishes
-- or when the consumer takes an outcome: every order of events is a run of the batch.
namespace Blocklist.Pool

-- Ceiling on the number of permits
def maxCeiling : Nat := 2305843009213693951

-- The ceiling that stands for one of zero
def fallbackCeiling : Nat := 4

-- Ceiling of a batch, unless another is asked for
def defaultCeiling : Nat := 10

def effectiveCeiling (requested : Nat) : Nat :=
  if requested = 0 then fallbackCeiling else requested

-- What a fetch comes to. A crash gives no outcome.
inductive Answer where
  | given (body : Except FetchError String)
  | crashed (reason : String)

-- A fetch that has begun and not finished
structure Flight where
  -- place in the list of URLs
  position : Nat
  url : String
  began : Nat

-- A fetch that crashed
structure Crash where
  position : Nat
  reason : String
  deriving DecidableEq, Repr

structure Batch where
  ceiling : Nat
  -- permits that no fetch holds
  free : Nat
  -- URLs that have not been submitted
  queue : List String
  submitted : Nat
  running : List Flight
  -- finished outcomes for which the channel has no place yet, in order of arrival
  waiting : List Outcome
  channel : List Outcome
  -- crashes that have not been reported
  crashes : List Crash
  -- whether more URLs may be submitted
  submitting : Bool
  -- holders of an end of the channel through which outcomes may come: the submission as
  -- long as it goes on, and each fetch until its outcome is handed over or it crashes
  senders : Nat
  cancelled : Bool
  -- whether the consumer has gone
  dropped : Bool

inductive Event where
  -- the next URL is submitted at that time. That submission may go on is looked up, a permit
  -- is taken and a task for the fetch is set going: all of that is one event.
  | submit (now : Nat)
  -- submission ends: no URL is left, or it was told to stop
  | stop
  -- the fetch of the URL at that place finishes
  | finish (position : Nat) (answer : Answer)
  -- an outcome moves into the channel and gives its permit back
  | handOver
  -- an outcome that nobody will take gives its permit back
  | discard
  -- a crash is reported
  | report
  -- the consumer takes an outcome
  | pull
  | cancel
  | drop

-- What is said of a fetch when it begins
def fetchRemark (url : String) : String := "Fetching " ++ url

-- What is said when submission is told to stop, or finds that the consumer has gone
def cancelRemark : String := "Deadline reached, no further lists are fetched"

def dropRemark : String := "Outcome receiver dropped, no further lists are fetched"

-- What is said of a crash in a task, which has a number
def Crash.remark (crash : Crash) (task : Nat) : String :=
  "Fetch task failed: task " ++ toString task ++ " panicked with message \"" ++ crash.reason ++ "\""

-- What an event shows to the outside
inductive Note where
  | began (flight : Flight)
  | ended (flight : Flight) (answer : Answer)
  | delivered (outcome : Outcome)
  | reported (crash : Crash)

namespace Notes

-- The fetches that began, in that order
def begun (notes : List Note) : List Flight :=
  notes.filterMap fun
    | .began f => some f
    | _ => none

-- The outcomes that the consumer took
def delivered (notes : List Note) : List Outcome :=
  notes.filterMap fun
    | .delivered o => some o
    | _ => none

end Notes

namespace Batch

def start (ceiling : Nat) (urls : List String) : Batch :=
  ⟨ceiling, ceiling, urls, 0, [], [], [], [], true, 1, false, false⟩

def flight? (b : Batch) (position : Nat) : Option Flight :=
  b.running.find? fun f => f.position == position

-- The batch without a fetch that finished
def land (b : Batch) (f : Flight) : Batch :=
  { b with running := b.running.filter fun g => g.position != f.position }

-- The batch after an event, if the event can happen
def step? (b : Batch) : Event → Option Batch
  | .submit now =>
    match b.queue with
    | [] => none
    | url :: queue =>
      -- no other event comes between this look, the permit and the task of the fetch
      if b.submitting && !b.cancelled && !b.dropped && 0 < b.free then
        some { b with
          free := b.free - 1, queue := queue, submitted := b.submitted + 1,
          running := b.running ++ [⟨b.submitted, url, now⟩], senders := b.senders + 1 }
      else none
  | .stop =>
    if b.submitting && (b.cancelled || b.dropped || b.queue.isEmpty) then
      some { b with submitting := false, senders := b.senders - 1 }
    else none
  | .finish position answer =>
    match b.flight? position with
    | none => none
    | some f =>
      match answer with
      | .given body => some { b.land f with waiting := b.waiting ++ [⟨f.url, body⟩] }
      | .crashed reason =>
        some { b.land f with
          free := b.free + 1, crashes := b.crashes ++ [⟨position, reason⟩],
          senders := b.senders - 1 }
  | .handOver =>
    match b.waiting with
    | [] => none
    | o :: waiting =>
      if !b.dropped && b.channel.length < b.ceiling then
        some { b with
          waiting := waiting, channel := b.channel ++ [o], free := b.free + 1,
          senders := b.senders - 1 }
      else none
  | .discard =>
    match b.waiting with
    | [] => none
    | _ :: waiting =>
      if b.dropped then
        some { b with waiting := waiting, free := b.free + 1, senders := b.senders - 1 }
      else none
  | .report =>
    match b.crashes with
    | [] => none
    | _ :: crashes => if b.submitting then none else some { b with crashes := crashes }
  | .pull =>
    match b.channel with
    | [] => none
    | _ :: channel => some { b with channel := channel }
  | .cancel => some { b with cancelled := true }
  | .drop => some { b with dropped := true, channel := [] }

-- What an event shows in a batch in which it can happen
def note? (b : Batch) : Event → Option Note
  | .submit now => b.queue.head?.map fun url => .began ⟨b.submitted, url, now⟩
  | .finish position answer => (b.flight? position).map fun f => .ended f answer
  | .report => b.crashes.head?.map .reported
  | .pull => b.channel.head?.map .delivered
  | _ => none

-- Nothing will come out of the channel any more: it is empty, and nobody holds an end of
-- it through which more could come
def isEnded (b : Batch) : Bool := b.dropped || (b.senders == 0 && b.channel.isEmpty)

-- The number of events that can happen without the consumer is at most this
def work (b : Batch) : Nat :=
  4 * b.queue.length + 3 * b.running.length + 2 * b.waiting.length + b.crashes.length +
    b.submitting.toNat

end Batch

end Blocklist.Pool
