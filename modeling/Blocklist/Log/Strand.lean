import Blocklist.Log.Level
-- Lines of tasks that run side by side. The lines of each task come out in their order, and
-- nothing is said about the order of those of several tasks.
namespace Blocklist.Log

-- What a task has to say: as long as something else waits for it, and after that
structure Strand where
  early : List Line
  late : List Line

-- How the lines of tasks come out
structure Weave where
  -- the number of late lines that the task at a place gets to say before the program ends
  lasts : Nat → Nat
  merge : List (List Line) → List Line
  perm : ∀ strands, (merge strands).Perm strands.flatten
  sublist : ∀ strands, ∀ lines ∈ strands, List.Sublist lines (merge strands)

namespace Weave

-- The lines of a task that says all it has to say, and of those beside it
def lines (w : Weave) (own : List Line) (beside : List Strand) : List Line :=
  w.merge (own :: beside.mapIdx fun i s => s.early ++ s.late.take (w.lasts i))

-- One task after the other, and nothing late
def inTurn : Weave where
  lasts _ := 0
  merge := List.flatten
  perm _ := .refl _
  sublist _ _ h := List.sublist_flatten_of_mem h

end Weave

end Blocklist.Log
