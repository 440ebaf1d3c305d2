import Blocklist.Program.Run
import Blocklist.Service.Basic
-- The program on a real disk. It has no connection of its own to the network: every fetch
-- fails, and the service answers requests that come line by line, as `GET /health`.
namespace Blocklist

open Blocklist.Fetch Blocklist.Files Blocklist.Program

-- Number of the error that there is a folder and no file
def folderCode : UInt32 := 21

def Files.FileError.ofFailure (e : IO.Error) : FileError :=
  match e with
  | .noFileOrDirectory _ _ _ => .missing
  | .alreadyExists _ _ _ => .alreadyThere
  | .inappropriateType _ code _ => if code = folderCode then .isFolder else .notFolder
  | e => .other (toString e)

-- What an action gives, or why the disk refuses it
def attempt {α : Type} (action : IO α) : IO (Except FileError α) := do
  match ← action.toBaseIO with
  | .ok a => pure (.ok a)
  | .error e => pure (.error (FileError.ofFailure e))

def realDisk : Disk IO where
  opened path := do
    match ← attempt (IO.FS.readBinFile path) with
    | .ok bytes => pure (.ok (.bytes bytes.toList))
    | .error .isFolder => pure (.ok .folder)
    | .error e => pure (.error e)
  isFile path := do
    let read ← attempt (IO.FS.readBinFile path)
    pure read.toOption.isSome
  makeFolders path := attempt (IO.FS.createDirAll path)
  write path bytes := attempt (IO.FS.writeBinFile path bytes.toByteArray)

-- Answer requests until there are no more
partial def answerAll (input : IO.FS.Stream) (p : Plan) (filter : Log.Filter) : IO UInt32 := do
  let line ← input.getLine
  if line.isEmpty then
    IO.eprint (filter.display [Service.endLine none])
    return Exit.success.code
  match (line.trimAscii.toString.splitOn " ") with
  | [method, target] =>
    let request : Service.Request := ⟨method, target⟩
    IO.eprint (filter.display (Service.requestLines p World.offline request))
    match Service.answer? p World.offline request with
    | some response => IO.println (toString response.status ++ " " ++ response.body)
    | none => IO.eprintln "there is no answer"
  | _ => IO.eprintln "a request is a method and a path"
  answerAll input p filter

end Blocklist

open Blocklist Blocklist.Program

def main (arguments : List String) : IO UInt32 := do
  let address ← IO.getEnv "SHIELDGEN_ADDRESS"
  let logText ← IO.getEnv "RUST_LOG"
  match ← run realDisk World.offline ⟨arguments, address, logText⟩ with
  | .done r =>
    IO.eprint r.errors
    IO.print r.output
    return r.exit.code
  | .serving p filter errors =>
    IO.eprint errors
    answerAll (← IO.getStdin) p filter
