-- Levels of log lines, from the gravest to the least.
namespace Blocklist.Log

inductive Level where
  | error
  | warn
  | info
  | debug
  | trace
  deriving DecidableEq, Repr

namespace Level

def all : List Level := [.error, .warn, .info, .debug, .trace]

def rank : Level → Nat
  | .error => 0
  | .warn => 1
  | .info => 2
  | .debug => 3
  | .trace => 4

-- The level of a rank. Ranks beyond the ends count as the ends.
def ofRank (rank : Int) : Level :=
  if rank ≤ 0 then .error
  else if rank = 1 then .warn
  else if rank = 2 then .info
  else if rank = 3 then .debug
  else .trace

def name : Level → String
  | .error => "ERROR"
  | .warn => "WARN"
  | .info => "INFO"
  | .debug => "DEBUG"
  | .trace => "TRACE"

end Level

-- The target of all lines of this program begins with this
def ownTarget : String := "shieldgen"

-- Target of what fetches and collects
def fetchTarget : String := "shieldgen_lib"

-- Something that a part of the program, its target, has to say
structure Line where
  target : String
  level : Level
  text : String
  deriving DecidableEq, Repr

-- A line of a part of this program
def ownLine (part : String) (level : Level) (text : String) : Line :=
  ⟨ownTarget ++ part, level, text⟩

def Line.display (l : Line) : String :=
  "[" ++ l.level.name ++ "] " ++ l.text ++ "\n"

end Blocklist.Log
