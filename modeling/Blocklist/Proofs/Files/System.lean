import Blocklist.Files.Disk
import Blocklist.Proofs.Files.Tree
-- File systems: disks together with the regular files that they hold. Trees are one of them.
namespace Blocklist.Files

-- A disk with states of one type, whose regular files are told apart by keys of another.
-- To look changes nothing, a folder is no regular file, and nothing is left of a file that
-- cannot be written.
structure FileSystem (σ κ : Type) where
  disk : Disk (StateM σ)
  -- the bytes of a regular file
  file? : σ → κ → Option (List UInt8)
  opened_keeps : ∀ path s, (disk.opened path s).2 = s
  isFile_keeps : ∀ path s, (disk.isFile path s).2 = s
  makeFolders_keeps : ∀ path s key, file? (disk.makeFolders path s).2 key = file? s key
  write_keeps : ∀ path bytes s e left, disk.write path bytes s = (.error e, left) →
    ∀ key, file? left key = file? s key

namespace Tree

variable {t made : Tree} {path : Path} {place key : Place} {result : Except FileError Unit}

-- The bytes of the regular file at a place
def fileAt? (t : Tree) (place : Place) : Option (List UInt8) :=
  match t.entry? place with
  | some (.file bytes) => some bytes
  | _ => none

-- A folder comes only where nothing was
theorem fileAt?_put_folder (hnothing : t.entry? place = none) (key : Place) :
    Tree.fileAt? (t.put place .folder) key = t.fileAt? key := by
  have hroot : place ≠ [] := by
    rintro rfl
    cases hnothing
  by_cases hsame : key = place
  · subst hsame
    simp only [fileAt?, entry?_put_self hroot, hnothing]
  · simp only [fileAt?, entry?_put_of_ne hsame]

theorem fileAt?_of_makeFolder (h : t.makeFolder path = .ok made) (key : Place) :
    made.fileAt? key = t.fileAt? key := by
  unfold makeFolder at h
  cases hplace : t.locate path.withoutEndSlashes with
  | error e =>
      rw [hplace] at h
      cases h
  | ok place =>
      simp only [hplace, bind, Except.bind] at h
      split at h
      case isTrue => cases h
      case isFalse hnothing =>
        cases h
        exact fileAt?_put_folder (Option.not_isSome_iff_eq_none.mp hnothing) key

-- By induction on the budget, which is spent on the folders on the way
theorem fileAt?_makeFoldersWith (fuel : Nat) (t : Tree) (path : Path) (key : Place) :
    (makeFoldersWith fuel t path).1.fileAt? key = t.fileAt? key := by
  induction fuel generalizing path with
  | zero => rfl
  | succ fuel ih =>
      unfold makeFoldersWith
      extract_lets retry
      have hretry : ∀ u : Tree, u.fileAt? key = t.fileAt? key →
          (retry u).1.fileAt? key = t.fileAt? key := by
        intro u hu
        simp only [retry]
        split
        case h_1 v hmade => exact (fileAt?_of_makeFolder hmade key).trans hu
        case h_2 => exact hu
      clear_value retry
      split
      case h_1 v hmade => exact fileAt?_of_makeFolder hmade key
      case h_2 =>
        split
        case h_1 => rfl
        case h_2 => exact hretry t rfl
        case h_3 parent hother hparent =>
          have hway := ih parent
          split
          case h_1 u hfolders =>
            rw [hfolders] at hway
            exact hretry u hway
          case h_2 => exact hway
      case h_3 => rfl

-- A tree of files is a file system
def fileSystem : FileSystem Tree Place where
  disk := Tree.disk
  file? := fileAt?
  opened_keeps _ _ := rfl
  isFile_keeps _ _ := rfl
  makeFolders_keeps path t key := by
    have hkeeps := fileAt?_makeFoldersWith (path.length + 1) t path key
    rw [← makeFolders] at hkeeps
    cases hfolders : t.makeFolders path with
    | mk made result =>
        rw [hfolders] at hkeeps
        simp only [Tree.disk, hfolders]
        exact hkeeps
  write_keeps path bytes t e left h key := by
    simp only [Tree.disk] at h
    split at h
    case h_1 => cases h
    case h_2 =>
      cases h
      rfl

end Tree

end Blocklist.Files
