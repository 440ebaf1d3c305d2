import Blocklist.Settings.Basic
-- The command line. Options stand before or after the name of a command, and those after
-- it count.
namespace Blocklist.Settings

open Blocklist.Files

inductive Command where
  | generate
  | serve
  deriving DecidableEq, Repr

-- Options that take a value
inductive Key where
  | config
  | dataset
  | output
  | limit
  | maxConcurrency
  | threads
  | timeout
  | deadline
  | userAgent
  | interest
  | address
  deriving DecidableEq, Repr

-- Options that take none
inductive Switch where
  | more
  | less
  | help
  | version
  deriving DecidableEq, Repr

inductive Flag where
  | key (k : Key)
  | switch (s : Switch)
  deriving DecidableEq, Repr

inductive UsageError where
  | unknownCommand
  | unknownArgument
  -- an option without its value, or a path that is empty
  | noValue
  -- a value that the option cannot have
  | badValue
  -- options that exclude each other, as one given twice does
  | conflict
  -- a value for an option that takes none
  | unwantedValue
  deriving DecidableEq, Repr

-- Why the command line does not lead to a run
inductive Stop where
  | usage (e : UsageError)
  | help
  | version
  -- a span of time that is just too long
  | beyond
  deriving DecidableEq, Repr

-- Where an argument stands
inductive Level where
  | top
  | command
  deriving DecidableEq, Repr

def longFlag? (level : Level) (name : String) : Option Flag :=
  match name with
  | "config" => some (.key .config)
  | "dataset" => some (.key .dataset)
  | "output" => some (.key .output)
  | "limit" => some (.key .limit)
  | "max-concurrency" => some (.key .maxConcurrency)
  | "threads" => some (.key .threads)
  | "timeout" => some (.key .timeout)
  | "deadline" => some (.key .deadline)
  | "user-agent" => some (.key .userAgent)
  | "interest" => some (.key .interest)
  | "address" => some (.key .address)
  | "verbose" => some (.switch .more)
  | "quiet" => some (.switch .less)
  | "help" => some (.switch .help)
  | "version" => if level = .top then some (.switch .version) else none
  | _ => none

def shortFlag? (level : Level) (letter : Char) : Option Flag :=
  match letter with
  | 'c' => some (.key .config)
  | 'd' => some (.key .dataset)
  | 'o' => some (.key .output)
  | 'l' => some (.key .limit)
  | 'T' => some (.key .threads)
  | 't' => some (.key .timeout)
  | 'u' => some (.key .userAgent)
  | 'a' => some (.key .address)
  | 'v' => some (.switch .more)
  | 'q' => some (.switch .less)
  | 'h' => some (.switch .help)
  | 'V' => if level = .top then some (.switch .version) else none
  | _ => none

-- What the options on one level tell
structure Given where
  config : Option Path
  dataset : Option Path
  output : Option Path
  limit : Option Nat
  maxConcurrency : Option Nat
  threads : Option Nat
  timeout : Option Nat
  deadline : Option Duration
  userAgent : Option String
  interest : Option (List Nat)
  address : Option String
  more : Nat
  less : Nat
  deriving DecidableEq

namespace Given

def nothing : Given :=
  ⟨none, none, none, none, none, none, none, none, none, none, none, 0, 0⟩

-- The value of an option that may be given once
def fresh {α : Type} (old : Option α) (read : String → Except Stop α) (value : String) :
    Except Stop (Option α) :=
  if old.isSome then .error (.usage .conflict) else (read value).map some

def readPath (value : String) : Except Stop Path :=
  if value.isEmpty then .error (.usage .noValue) else .ok value

def readWord (value : String) : Except Stop Nat :=
  match Text.word64? value.toList with
  | some n => .ok n
  | none => .error (.usage .badValue)

def readText (value : String) : Except Stop String := .ok value

def readDuration (value : String) : Except Stop Duration :=
  match Duration.ofText value with
  | .ok d => .ok d
  | .error .malformed => .error (.usage .badValue)
  | .error .beyond => .error .beyond

-- The number of a tag. Zero may have a minus sign.
def readTag (value : List Char) : Except Stop Nat :=
  let tag := match value with
    | '-' :: digits =>
      if digits.head? == some '+' then none
      else if Text.word32? digits == some 0 then some 0
      else none
    | _ => Text.word32? value
  match tag with
  | some n => .ok n
  | none => .error (.usage .badValue)

-- Tags, parted by commas
def readTags (value : String) : Except Stop (List Nat) :=
  (value.toList.splitOn ',').mapM readTag

-- What is told together with one more option
def put (g : Given) (k : Key) (value : String) : Except Stop Given := do
  match k with
  | .config => .ok { g with config := ← fresh g.config readPath value }
  | .dataset => .ok { g with dataset := ← fresh g.dataset readPath value }
  | .output => .ok { g with output := ← fresh g.output readPath value }
  | .limit => .ok { g with limit := ← fresh g.limit readWord value }
  | .maxConcurrency => .ok { g with maxConcurrency := ← fresh g.maxConcurrency readWord value }
  | .threads => .ok { g with threads := ← fresh g.threads readWord value }
  | .timeout => .ok { g with timeout := ← fresh g.timeout readWord value }
  | .deadline => .ok { g with deadline := ← fresh g.deadline readDuration value }
  | .userAgent => .ok { g with userAgent := ← fresh g.userAgent readText value }
  | .interest => .ok { g with interest := some (g.interest.getD [] ++ (← readTags value)) }
  | .address => .ok { g with address := ← fresh g.address readText value }

def flip (g : Given) (s : Switch) : Except Stop Given :=
  match s with
  | .more => .ok { g with more := min (g.more + 1) Verbosity.maxCount }
  | .less => .ok { g with less := min (g.less + 1) Verbosity.maxCount }
  | .help => .error .help
  | .version => .error .version

-- Wishes for more and for less on one level exclude each other
def check (g : Given) : Except Stop Given :=
  if 0 < g.more && 0 < g.less then .error (.usage .conflict) else .ok g

-- What is told after the name of a command counts before what is told ahead of it
def orElse (inner outer : Given) : Given where
  config := inner.config.or outer.config
  dataset := inner.dataset.or outer.dataset
  output := inner.output.or outer.output
  limit := inner.limit.or outer.limit
  maxConcurrency := inner.maxConcurrency.or outer.maxConcurrency
  threads := inner.threads.or outer.threads
  timeout := inner.timeout.or outer.timeout
  deadline := inner.deadline.or outer.deadline
  userAgent := inner.userAgent.or outer.userAgent
  interest := inner.interest.or outer.interest
  address := inner.address.or outer.address
  more := if inner.more = 0 then outer.more else inner.more
  less := if inner.less = 0 then outer.less else inner.less

-- The settings that are told. The environment may tell an address.
def settings (g : Given) (environment : Option String) : Settings where
  verbosity := ⟨g.more, g.less⟩
  dataset := g.dataset.getD standard.dataset
  output := g.output.getD standard.output
  limit := g.limit.getD standard.limit
  maxConcurrency := g.maxConcurrency.getD standard.maxConcurrency
  threads := g.threads.or standard.threads
  timeout := g.timeout.getD standard.timeout
  deadline := g.deadline.getD standard.deadline
  userAgent := g.userAgent.getD standard.userAgent
  interest := g.interest.getD standard.interest
  address := (g.address.or environment).getD standard.address

end Given

-- An option that is not complete yet: its value may come, or has come and is not read
structure Pending where
  key : Key
  value : Option String

-- The arguments of a level as far as they have been read
structure Progress where
  given : Given
  pending : Option Pending
  -- whether no options follow
  optionsEnded : Bool

namespace Progress

def start : Progress := ⟨.nothing, none, false⟩

-- Complete the option that is pending
def settle (p : Progress) : Except Stop Progress :=
  match p.pending with
  | none => .ok p
  | some ⟨_, none⟩ => .error (.usage .noValue)
  | some ⟨k, some value⟩ => do
    .ok { p with given := ← p.given.put k value, pending := none }

-- Whether the next argument is a value, unless it is an option
def awaitsValue (p : Progress) : Bool :=
  match p.pending with
  | some ⟨_, none⟩ => true
  | _ => false

def flip (p : Progress) (s : Switch) : Except Stop Progress := do
  let p ← p.settle
  .ok { p with given := ← p.given.flip s }

-- An option with its value
def put (p : Progress) (k : Key) (value : String) : Except Stop Progress := do
  let p ← p.settle
  .ok { p with given := ← p.given.put k value }

-- An option whose value may come
def await (p : Progress) (k : Key) : Except Stop Progress := do
  let p ← p.settle
  .ok { p with pending := some ⟨k, none⟩ }

-- Options of one letter, together after one dash. One that takes a value takes the rest.
def letters (level : Level) (p : Progress) : List Char → Except Stop Progress
  | [] => .ok p
  | c :: rest =>
    match shortFlag? level c with
    | none => .error (.usage .unknownArgument)
    | some (.switch s) => do letters level (← p.flip s) rest
    | some (.key k) =>
      match rest with
      | [] => p.await k
      | '=' :: value => p.put k (String.ofList value)
      | value => p.put k (String.ofList value)

-- An option with a long name, after its two dashes
def long (level : Level) (p : Progress) (text : List Char) : Except Stop Progress :=
  let (name, rest) := text.span (· != '=')
  match longFlag? level (String.ofList name), rest with
  | none, _ => .error (.usage .unknownArgument)
  | some (.switch s), [] => p.flip s
  | some (.switch _), _ :: _ => .error (.usage .unwantedValue)
  | some (.key k), [] => p.await k
  | some (.key k), _ :: value => p.put k (String.ofList value)

def finish (p : Progress) : Except Stop Given := do
  (← p.settle).given.check

end Progress

-- Commands by name. One of them only asks for help.
inductive Named where
  | run (c : Command)
  | help
  deriving DecidableEq, Repr

def command? (name : String) : Option Named :=
  match name with
  | "generate" => some (.run .generate)
  | "serve" => some (.run .serve)
  | "help" => some .help
  | _ => none

-- What asking for help leads to: at most one command may be named
def askHelp (names : List String) : Stop :=
  match names with
  | [] => .help
  | [name] => if (command? name).isSome then .help else .usage .unknownCommand
  | _ => .usage .unknownCommand

-- What is wrong with an argument that is neither an option nor a value
def misplaced (level : Level) (p : Progress) (argument : String) : Stop :=
  if level = .command || (p.optionsEnded && (command? argument).isSome) then
    .usage .unknownArgument
  else .usage .unknownCommand

-- An argument that names no command
def readArgument (level : Level) (p : Progress) (argument : String) : Except Stop Progress :=
  if p.optionsEnded then .error (misplaced level p argument)
  else
    match argument.toList with
    | ['-', '-'] => .ok { p with optionsEnded := true }
    | '-' :: '-' :: text => p.long level text
    | '-' :: c :: text => p.letters level (c :: text)
    | _ =>
      match p.pending with
      | some ⟨k, none⟩ => .ok { p with pending := some ⟨k, some argument⟩ }
      | _ => .error (misplaced level p argument)

-- What the arguments tell: on their own level, and after the name of a command. What is
-- wrong after the name comes first.
def readLevel (level : Level) (p : Progress) :
    List String → Except Stop (Given × Option (Command × Given))
  | [] => do .ok (← p.finish, none)
  | argument :: rest =>
    let named :=
      if level = .top && !p.optionsEnded && !p.awaitsValue then command? argument else none
    match named with
    | some .help => .error (askHelp rest)
    | some (.run c) => do
      let (inner, _) ← readLevel .command Progress.start rest
      .ok (← p.finish, some (c, inner))
    | none => do readLevel level (← readArgument level p argument) rest

-- What a command line tells
structure Arguments where
  command : Option Command
  config : Option Path
  settings : Settings
  deriving DecidableEq, Repr

-- The arguments of a run, and the address that the environment tells
def readArguments (environment : Option String) (arguments : List String) :
    Except Stop Arguments := do
  let (outer, named) ← readLevel .top Progress.start arguments
  let given := match named with
    | none => outer
    | some (_, inner) => inner.orElse outer
  .ok ⟨named.map Prod.fst, given.config, given.settings environment⟩

-- Without a name rules are generated
def Arguments.runs (a : Arguments) : Command := a.command.getD .generate

end Blocklist.Settings
