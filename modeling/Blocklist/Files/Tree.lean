import Blocklist.Files.Path
-- Trees of folders and files, and what can go wrong with paths in them.
namespace Blocklist.Files

inductive FileError where
  | missing
  | alreadyThere
  | notFolder
  | isFolder
  | nameTooLong
  | zeroInName
  -- anything else that a disk reports
  | other (text : String)
  deriving DecidableEq, Repr

def FileError.text : FileError → String
  | .missing => "No such file or directory (os error 2)"
  | .alreadyThere => "File exists (os error 17)"
  | .notFolder => "Not a directory (os error 20)"
  | .isFolder => "Is a directory (os error 21)"
  | .nameTooLong => "File name too long (os error 36)"
  | .zeroInName => "file name contained an unexpected NUL byte"
  | .other text => text

-- What opening a path gives: the bytes of a file, or a folder
inductive Opened where
  | bytes (bytes : List UInt8)
  | folder

inductive Entry where
  | file (bytes : List UInt8)
  | folder
  -- a file that is always empty, whatever is written to it
  | void
  deriving DecidableEq

-- The names on the way from the root
abbrev Place : Type := List String

structure Tree where
  -- what there is below the root
  entries : List (Place × Entry)
  -- where relative paths start
  home : Place

namespace Tree

def maxNameBytes : Nat := 255
def maxPathBytes : Nat := 4095

def entry? (t : Tree) (place : Place) : Option Entry :=
  if place.isEmpty then some .folder else t.entries.lookup place

def put (t : Tree) (place : Place) (e : Entry) : Tree :=
  { t with entries := (place, e) :: t.entries.filter fun other => other.1 != place }

-- Put an entry, and folders on the way to it where nothing is yet
def plant (t : Tree) (place : Place) (e : Entry) : Tree :=
  let ways := (List.range place.length).map place.take
  let t := ways.foldl (fun t way => if (t.entry? way).isSome then t else t.put way .folder) t
  t.put place e

-- One step of a walk. It starts in a folder and may end where nothing is.
def step (t : Tree) (place : Place) (name : String) : Except FileError Place :=
  match t.entry? place with
  | none => .error .missing
  | some .folder =>
    if Path.isIdle name then .ok place
    else if name == ".." then .ok place.dropLast
    else if maxNameBytes < name.utf8ByteSize then .error .nameTooLong
    else .ok (place ++ [name])
  | some _ => .error .notFolder

def walk (t : Tree) (path : Path) : List String → Except FileError Place :=
  List.foldlM t.step (if path.isAbsolute then [] else t.home)

-- The place that a path leads to
def locate (t : Tree) (path : Path) : Except FileError Place :=
  if path.toList.contains '\x00' then .error .zeroInName
  else if path.isEmpty then .error .missing
  else if maxPathBytes < path.utf8ByteSize then .error .nameTooLong
  else t.walk path path.pieces

def opened (t : Tree) (path : Path) : Except FileError Opened := do
  let place ← t.locate path
  match t.entry? place with
  | none => .error .missing
  | some (.file bytes) => .ok (.bytes bytes)
  | some .folder => .ok .folder
  | some .void => .ok (.bytes [])

def isFile (t : Tree) (path : Path) : Bool :=
  match t.locate path with
  | .ok place => match t.entry? place with
    | some (.file _) => true
    | _ => false
  | .error _ => false

def isFolder (t : Tree) (path : Path) : Bool :=
  match t.locate path with
  | .ok place => t.entry? place == some .folder
  | .error _ => false

-- Make a folder where nothing is. Slashes after its name do not matter.
def makeFolder (t : Tree) (path : Path) : Except FileError Tree := do
  let place ← t.locate path.withoutEndSlashes
  if (t.entry? place).isSome then .error .alreadyThere
  else .ok (t.put place .folder)

-- Make a folder after those on the way to it. A path has fewer parents than characters.
def makeFoldersWith : Nat → Tree → Path → Tree × Except FileError Unit
  | 0, t, _ => (t, .error .missing)
  | fuel + 1, t, path =>
    let retry (t : Tree) : Tree × Except FileError Unit :=
      match t.makeFolder path with
      | .ok t => (t, .ok ())
      | .error e => (t, if t.isFolder path then .ok () else .error e)
    match t.makeFolder path with
    | .ok t => (t, .ok ())
    | .error .missing =>
      match path.parent? with
      | none => (t, .error .missing)
      | some "" => retry t
      | some parent =>
        match makeFoldersWith fuel t parent with
        | (t, .ok ()) => retry t
        | failed => failed
    | .error e => (t, if t.isFolder path then .ok () else .error e)

-- Make a folder and all that are missing on the way to it. Those made before a failure
-- stay.
def makeFolders (t : Tree) (path : Path) : Tree × Except FileError Unit :=
  makeFoldersWith (path.length + 1) t path

-- Write a file, which replaces the one that is there
def write (t : Tree) (path : Path) (bytes : List UInt8) : Except FileError Tree := do
  let place ← t.locate path.withoutEndSlashes
  if path != path.withoutEndSlashes then .error .isFolder
  else
    match t.entry? place with
    | some .folder => .error .isFolder
    | some .void => .ok t
    | _ => .ok (t.put place (.file bytes))

-- The entries that are new or other than before, by their places below the home
def changes (before after : Tree) : List (Place × Entry) :=
  after.entries.filterMap fun (place, e) =>
    if before.entry? place != some e && after.home.isPrefixOf place then
      some (place.drop after.home.length, e)
    else none

end Tree

end Blocklist.Files
