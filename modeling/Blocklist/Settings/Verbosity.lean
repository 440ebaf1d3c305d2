import Blocklist.Log.Level
import Blocklist.Text.LowerCase
-- How much is logged: a number of wishes for more and a number of wishes for less.
namespace Blocklist.Settings

open Blocklist.Log

structure Verbosity where
  more : Nat
  less : Nat
  deriving DecidableEq, Repr

-- The rank of the level is counted in a signed byte
inductive RankOverflow where
  | below
  | above
  deriving DecidableEq, Repr

def RankOverflow.text : RankOverflow → String
  | .below => "attempt to subtract with overflow"
  | .above => "attempt to add with overflow"

namespace Verbosity

def standard : Verbosity := ⟨0, 0⟩

-- More wishes than this are not counted
def maxCount : Nat := 255

-- A count as a signed byte
def signed (count : Nat) : Int := Int.bmod count 256

def fits (n : Int) : Bool := -128 ≤ n && n ≤ 127

-- The level starts at information lines and goes up or down by one for each wish
def level (v : Verbosity) : Except RankOverflow Level :=
  let lowered := Level.info.rank - signed v.less
  let raised := lowered + signed v.more
  if !fits lowered then .error .below
  else if !fits raised then .error .above
  else .ok (Level.ofRank raised)

-- Names of levels in settings
def levelNamed? (name : String) : Option Level :=
  match name with
  | "error" => some .error
  | "warn" | "warning" => some .warn
  | "info" => some .info
  | "debug" => some .debug
  | "trace" => some .trace
  | _ => none

def ofLevel (level : Level) : Verbosity :=
  ⟨level.rank - Level.info.rank, Level.info.rank - level.rank⟩

-- The verbosity that a name in any case stands for, or the name in lower case
def ofName (name : String) : Except String Verbosity :=
  let lower := String.ofList (Text.lowerCase name.toList)
  match levelNamed? lower with
  | some level => .ok (ofLevel level)
  | none => .error lower

end Verbosity

end Blocklist.Settings
