import Blocklist.Fetch.Network
import Blocklist.Log.Strand
-- What a run meets beside its files: the network, the runtime that its tasks run on, and what
-- the libraries that it is built on have to say.
namespace Blocklist.Program

open Blocklist.Fetch Blocklist.Log

structure World where
  network : Network
  -- the address that a socket listens on when it is bound to this one, or why it cannot be
  bind : String → Except String String
  weave : Weave
  -- whether the submission of fetches finds that nobody waits for them any more before it is
  -- told to stop
  dropIsSeen : Bool
  -- the number of the task for the fetch at a place
  task : Nat → Nat
  -- what is wrong with the records of a dataset that are no rows, one after the other
  rowFault : Nat → String
  -- what is wrong with a file of settings that cannot be read
  settingsFault : String
  -- what is printed for a command line that leads to no run
  parserText : String
  -- what is printed when a limit of the machine is passed
  crashText : String

-- The world of a program that is cut off from the network: nobody can be asked for anything,
-- and tasks come one after the other
def World.offline : World where
  network := Network.unreachable
  bind address := .ok address
  weave := Weave.inTurn
  dropIsSeen := false
  task place := place + 1
  rowFault _ := "no row"
  settingsFault := "no settings"
  parserText := "Usage: shieldgen [OPTIONS] [COMMAND]\n"
  crashText := "thread 'main' panicked\n"

end Blocklist.Program
