import Blocklist.Files.Tree
-- What a run needs of a disk, and the disk that a tree is.
namespace Blocklist.Files

structure Disk (m : Type → Type) where
  opened : Path → m (Except FileError Opened)
  -- whether there is a file, and no folder
  isFile : Path → m Bool
  -- make a folder and those on the way to it
  makeFolders : Path → m (Except FileError Unit)
  write : Path → List UInt8 → m (Except FileError Unit)

def Tree.disk : Disk (StateM Tree) where
  opened path := fun t => (t.opened path, t)
  isFile path := fun t => (t.isFile path, t)
  makeFolders path := fun t =>
    let (t, result) := t.makeFolders path
    (result, t)
  write path bytes := fun t =>
    match t.write path bytes with
    | .ok t => (.ok (), t)
    | .error e => (.error e, t)

end Blocklist.Files
