import Blocklist.Log.Filter
import Blocklist.Program.Generation
import Blocklist.Settings.Arguments
-- What a run prints and how it ends.
namespace Blocklist.Program

open Blocklist.Fetch Blocklist.Log Blocklist.Settings

-- How a run ends
inductive Exit where
  | success
  | failure
  -- the command line is wrong
  | usage
  -- the file of settings is wrong
  | settings
  -- a limit of the machine is passed
  | crash
  deriving DecidableEq, Repr

def Exit.code : Exit → UInt32
  | .success => 0
  | .failure => 1
  | .usage => 2
  | .settings => 3
  | .crash => 101

structure Report where
  exit : Exit
  output : String
  errors : String
  -- the addresses that were asked for lists
  requests : List String

-- Either all is done, or requests are to be answered from now on
inductive Ending where
  | done (r : Report)
  | serving (p : Plan) (filter : Filter) (errors : String)

namespace Report

-- A run that passes a limit of the machine, after some lines have been shown
def crashed (world : World) (shown : String) (requests : List String) : Report :=
  ⟨.crash, "", shown ++ world.crashText, requests⟩

-- A run that fails after some lines have been logged
def failed (filter : Filter) (lines : List Line) (f : Failure) (requests : List String) : Report :=
  ⟨.failure, "", filter.display lines ++ f.display, requests⟩

end Report

def programName : String := "shieldgen"

def version : String := "0.1.0"

def versionText : String := programName ++ " " ++ version ++ "\n"

def Report.ofStop (world : World) (s : Stop) : Report :=
  match s with
  | .usage _ => ⟨.usage, "", world.parserText, []⟩
  | .help => ⟨.success, world.parserText, "", []⟩
  | .version => ⟨.success, versionText, "", []⟩
  | .beyond => Report.crashed world "" []

end Blocklist.Program
