import Blocklist.Toml.Scalar
-- Tables of TOML, and how the lines of a document fill them. Nothing is told twice: a
-- key has one value, and a table has one place where it is defined.
namespace Blocklist.Toml

-- How a table came to be
inductive Origin where
  -- by a line with its name
  | header
  -- on the way to another table
  | implied
  -- on the way to the value of a key with dots
  | dotted
  -- as a value, which is complete
  | closed
  deriving DecidableEq, Repr

inductive Value where
  | scalar (s : Scalar)
  | text (s : String)
  | list (items : List Value)
  -- tables told one after the other, the latest first
  | tables (items : List (List (String × Value)))
  | table (origin : Origin) (entries : List (String × Value))

abbrev Entries : Type := List (String × Value)

namespace Entries

-- Put a value at a key. `f` makes it from the one that is there.
def alter (f : Option Value → Option Value) (key : String) : Entries → Option Entries
  | [] => (f none).map fun v => [(key, v)]
  | (k, v) :: rest =>
    if k = key then (f (some v)).map fun v => (key, v) :: rest
    else (alter f key rest).map ((k, v) :: ·)

-- Into a table, on the way to another one
def throughHeader (g : Entries → Option Entries) : Option Value → Option Value
  | none => (g []).map (.table .implied)
  | some (.table .closed _) => none
  | some (.table origin entries) => (g entries).map (.table origin)
  | some (.tables (last :: earlier)) => (g last).map fun last => .tables (last :: earlier)
  | some _ => none

-- Into a table, on the way to a value. It must not have been defined elsewhere.
def throughDots (g : Entries → Option Entries) : Option Value → Option Value
  | none => (g []).map (.table .dotted)
  | some (.table .dotted entries) => (g entries).map (.table .dotted)
  | some (.table .implied entries) => (g entries).map (.table .implied)
  | some _ => none

-- Change the table that the keys lead to
def at? (through : (Entries → Option Entries) → Option Value → Option Value) :
    List String → (Entries → Option Entries) → Entries → Option Entries
  | [], g, entries => g entries
  | key :: keys, g, entries => alter (through (at? through keys g)) key entries

-- Put a value at a key that has none
def once (value : Value) : Option Value → Option Value
  | none => some value
  | some _ => none

def opened : Option Value → Option Value
  | none => some (.table .header [])
  | some (.table .implied entries) => some (.table .header entries)
  | some _ => none

def appended : Option Value → Option Value
  | none => some (.tables [[]])
  | some (.tables items) => some (.tables ([] :: items))
  | some _ => none

-- Put a value at a key with dots in the table that the keys `current` lead to
def assign? (current path : List String) (value : Value) (entries : Entries) : Option Entries := do
  let last ← path.getLast?
  at? throughHeader current (at? throughDots path.dropLast (alter (once value) last)) entries

-- Define the table that the keys lead to
def define? (path : List String) (entries : Entries) : Option Entries := do
  let last ← path.getLast?
  at? throughHeader path.dropLast (alter opened last) entries

-- Begin one more of the tables that the keys lead to
def append? (path : List String) (entries : Entries) : Option Entries := do
  let last ← path.getLast?
  at? throughHeader path.dropLast (alter appended last) entries

end Entries

end Blocklist.Toml
