import Blocklist.Log.Level
import Blocklist.Text.Blank
-- Which log lines are shown. Of the directives whose target begins the target of a line
-- the one with the longest target decides.
namespace Blocklist.Log

structure Directive where
  -- every line, or those whose target begins like this
  target : Option String
  -- the last level that is shown, if any is
  ceiling : Option Level
  deriving DecidableEq, Repr

structure Filter where
  -- in the order of the lengths of their targets
  directives : List Directive
  -- a text that a line must have in it
  needed : Option String
  -- what was wrong with the text that the filter was read from
  warnings : List String
  deriving Repr

namespace Directive

def applies (d : Directive) (l : Line) : Bool :=
  match d.target with
  | none => true
  | some target => target.toList.isPrefixOf l.target.toList

def admits (d : Directive) (l : Line) : Bool :=
  match d.ceiling with
  | none => false
  | some ceiling => l.level.rank ≤ ceiling.rank

def targetLength (d : Directive) : Nat := (d.target.getD "").utf8ByteSize

end Directive

-- Whether `part` stands somewhere in `text`
def contains (text part : List Char) : Bool :=
  match text with
  | [] => part.isEmpty
  | _ :: rest => part.isPrefixOf text || contains rest part

-- Names of levels are read in any case. One name stands for no level at all.
def ceilingOf? (name : List Char) : Option (Option Level) :=
  let upper := String.ofList (name.map Char.toUpper)
  if upper == "OFF" then some none
  else (Level.all.find? fun level => level.name == upper).map some

namespace Filter

-- Without a directive only errors are shown
def standard : List Directive := [⟨none, some .error⟩]

-- A directive takes the place of one with the same target
def insert (directives : List Directive) (d : Directive) : List Directive :=
  if directives.any fun other => other.target == d.target then
    directives.map fun other => if other.target == d.target then d else other
  else directives ++ [d]

def ofDirectives (directives : List Directive) (needed : Option String)
    (warnings : List String) : Filter :=
  let distinct := directives.foldl insert []
  let chosen := if distinct.isEmpty then standard else distinct
  ⟨chosen.mergeSort fun d e => d.targetLength ≤ e.targetLength, needed, warnings⟩

-- Whether a line is shown
def shows (f : Filter) (l : Line) : Bool :=
  let decides := f.directives.reverse.find? fun d => d.applies l
  (decides.any fun d => d.admits l) &&
    f.needed.all fun part => contains l.text.toList part.toList

-- The program's own lines up to a level, and warnings of others
def ofLevel (level : Level) : Filter :=
  ofDirectives [⟨none, some .warn⟩, ⟨some ownTarget, some level⟩, ⟨some fetchTarget, some level⟩]
    none []

-- A directive is a level, a target, or a target with its level
def readDirective (text : List Char) : Except String Directive :=
  let named (name : List Char) (ceiling : Option Level) : Directive :=
    ⟨some (String.ofList name), ceiling⟩
  match text.splitOn '=' with
  | [part] =>
    match ceilingOf? part with
    | some ceiling => .ok ⟨none, ceiling⟩
    | none => .ok (named part (some .trace))
  | [name, part] =>
    let level := Text.trim part
    if level.isEmpty then .ok (named name (some .trace))
    else
      match ceilingOf? level with
      | some ceiling => .ok (named name ceiling)
      | none => .error ("invalid logging spec '" ++ String.ofList level ++ "'")
  | _ => .error ("invalid logging spec '" ++ String.ofList text ++ "'")

def readDirectives (text : List Char) : List Directive × List String :=
  let items := ((text.splitOn ',').map Text.trim).filter fun item => !item.isEmpty
  let results := items.map readDirective
  (results.filterMap Except.toOption, results.filterMap fun
    | .ok _ => none
    | .error warning => some warning)

-- Directives, parted by commas. After a slash stands the text that lines must have.
def ofText (text : String) : Filter :=
  match text.toList.splitOn '/' with
  | [directives] =>
    let (directives, warnings) := readDirectives directives
    ofDirectives directives none warnings
  | [directives, needed] =>
    let (directives, warnings) := readDirectives directives
    ofDirectives directives (some (String.ofList needed)) warnings
  | _ => ofDirectives [] none ["invalid logging spec '" ++ text ++ "' (too many '/'s)"]

-- The warnings about the filter itself, and the lines that it shows
def display (f : Filter) (lines : List Line) : String :=
  String.join (f.warnings.map fun w => "warning: " ++ w ++ ", ignoring it\n") ++
    String.join ((lines.filter f.shows).map Line.display)

end Filter

end Blocklist.Log
