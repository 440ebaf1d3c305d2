-- Paths: names of files, separated by slashes.
namespace Blocklist.Files

abbrev Path : Type := String

namespace Path

-- The pieces between slashes, as they are written
def pieces (path : Path) : List String :=
  (path.toList.splitOn '/').map String.ofList

def isAbsolute (path : Path) : Bool :=
  path.toList.head? == some '/'

-- A piece that names nothing: an empty one, or a dot
def isIdle (piece : String) : Bool :=
  piece == "" || piece == "."

-- The steps from the root or the working directory. A dot at the very start is kept.
def steps (path : Path) : List String :=
  match path.pieces with
  | "." :: rest => "." :: rest.filter fun p => !isIdle p
  | all => all.filter fun p => !isIdle p

-- Two paths are the same if they take the same steps from the same place
def same (p q : Path) : Bool :=
  p.isAbsolute == q.isAbsolute && p.steps == q.steps

theorem same_iff {p q : Path} :
    p.same q = true ↔ p.isAbsolute = q.isAbsolute ∧ p.steps = q.steps := by
  simp [same]

theorem same_equivalence : Equivalence fun p q : Path => p.same q = true where
  refl p := same_iff.mpr ⟨rfl, rfl⟩
  symm h := same_iff.mpr ((same_iff.mp h).imp Eq.symm Eq.symm)
  trans h g := by
    obtain ⟨hroot, hsteps⟩ := same_iff.mp h
    obtain ⟨groot, gsteps⟩ := same_iff.mp g
    exact same_iff.mpr ⟨hroot.trans groot, hsteps.trans gsteps⟩

-- Pieces at the end that name nothing are left out. The very first piece stands for
-- the root or the working directory and stays, if it is one of those.
private def trimIdle : List String → List String
  | [] => []
  | piece :: earlier =>
    if isIdle piece && !earlier.isEmpty then trimIdle earlier else piece :: earlier

-- The path without its last step. The root and the empty path have no parent.
def parent? (path : Path) : Option Path :=
  match trimIdle path.pieces.reverse with
  | [] => none
  | [""] => none
  | [_] => some ""
  | _ :: earlier =>
    match trimIdle earlier with
    | [""] => some "/"
    | left => some ("/".intercalate left.reverse)

-- The path without slashes after its last step. Of slashes alone one stays.
def withoutEndSlashes (path : Path) : Path :=
  let kept := (path.toList.reverse.dropWhile (· == '/')).reverse
  if kept.isEmpty && path.isAbsolute then "/" else String.ofList kept

end Path

end Blocklist.Files
