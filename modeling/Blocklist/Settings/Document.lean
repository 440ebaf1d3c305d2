import Blocklist.Settings.Basic
import Blocklist.Toml.Document
-- Settings in a file: a document of TOML with a key for each setting that it tells.
namespace Blocklist.Settings

open Blocklist.Files

inductive DocumentError where
  -- there is no file, or it is no text
  | unreadable
  -- no document, or a value that does not fit its key
  | malformed
  | unknownLevel (name : String)
  | unknownKey (name : String)
  -- a span of time that is just too long
  | beyond
  deriving DecidableEq, Repr

-- The keys of a document
def keys : List String :=
  ["verbose", "dataset", "output", "limit", "max_concurrency", "threads", "timeout", "deadline",
    "user_agent", "interest", "address"]

namespace DocumentError

-- What there is to say about an error beyond its kind
def message? : DocumentError → Option String
  | .unknownLevel name => some ("invalid log level `" ++ name ++ "`")
  | .unknownKey name =>
    some ("unknown field `" ++ name ++ "`, expected one of " ++
      ", ".intercalate (keys.map fun key => "`" ++ key ++ "`"))
  | _ => none

end DocumentError

def textOf : Toml.Value → Except DocumentError String
  | .text s => .ok s
  | _ => .error .malformed

-- A number that is not negative and below a bound
def naturalOf (bound : Nat) : Toml.Value → Except DocumentError Nat
  | .scalar (.integer (.ofNat n)) => if n < bound then .ok n else .error .malformed
  | _ => .error .malformed

def wordOf (v : Toml.Value) : Except DocumentError Nat := naturalOf Text.bound64 v

def tagsOf : Toml.Value → Except DocumentError (List Nat)
  | .list items => items.mapM (naturalOf Text.bound32)
  | _ => .error .malformed

def verbosityOf (v : Toml.Value) : Except DocumentError Verbosity := do
  match Verbosity.ofName (← textOf v) with
  | .ok verbosity => .ok verbosity
  | .error name => .error (.unknownLevel name)

def durationOf (v : Toml.Value) : Except DocumentError Duration := do
  match Duration.ofText (← textOf v) with
  | .ok d => .ok d
  | .error .malformed => .error .malformed
  | .error .beyond => .error .beyond

-- The settings with the value of a key
def put (s : Settings) (key : String) (v : Toml.Value) : Except DocumentError Settings := do
  match key with
  | "verbose" => .ok { s with verbosity := ← verbosityOf v }
  | "dataset" => .ok { s with dataset := ← textOf v }
  | "output" => .ok { s with output := ← textOf v }
  | "limit" => .ok { s with limit := ← wordOf v }
  | "max_concurrency" => .ok { s with maxConcurrency := ← wordOf v }
  | "threads" => .ok { s with threads := some (← wordOf v) }
  | "timeout" => .ok { s with timeout := ← wordOf v }
  | "deadline" => .ok { s with deadline := ← durationOf v }
  | "user_agent" => .ok { s with userAgent := ← textOf v }
  | "interest" => .ok { s with interest := ← tagsOf v }
  | "address" => .ok { s with address := ← textOf v }
  | _ => .error (.unknownKey key)

-- The settings that the entries of a document tell. The keys are looked at in code point
-- order.
def ofEntries (entries : Toml.Entries) : Except DocumentError Settings :=
  (entries.mergeSort fun a b => a.1 ≤ b.1).foldlM (fun s (key, v) => put s key v) Settings.standard

def ofBytes (bytes : List UInt8) : Except DocumentError Settings :=
  match Text.decode? bytes with
  | none => .error .unreadable
  | some text =>
    match Toml.read? (String.ofList text) with
    | none => .error .malformed
    | some entries => ofEntries entries

-- The settings in what opening a path gave
def ofOpened : Except FileError Opened → Except DocumentError Settings
  | .ok (.bytes bytes) => ofBytes bytes
  | _ => .error .unreadable

end Blocklist.Settings
