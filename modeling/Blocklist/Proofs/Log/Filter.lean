import Blocklist.Log.Filter
import Blocklist.Log.Strand
import Mathlib.Data.List.Basic
-- What the filter of a level shows of the program's own lines: those up to this level, and
-- no others.
namespace Blocklist.Log

-- A line of this program, not of what it is built on
def Line.isOwn (l : Line) : Bool := ownTarget.toList.isPrefixOf l.target.toList

theorem isOwn_ownLine (part : String) (level : Level) (text : String) :
    (ownLine part level text).isOwn = true := by
  simp [Line.isOwn, ownLine]

-- What comes out was said by the task itself or by one beside it
theorem Weave.mem_lines {w : Weave} {own : List Line} {beside : List Strand} {l : Line}
    (h : l ∈ w.lines own beside) : l ∈ own ∨ ∃ strand ∈ beside, l ∈ strand.early ++ strand.late := by
  obtain ⟨part, hpart, hl⟩ := List.mem_flatten.mp ((w.perm _).mem_iff.mp h)
  rcases List.mem_cons.mp hpart with rfl | hbeside
  · exact .inl hl
  · obtain ⟨i, hi, rfl⟩ := List.mem_mapIdx.mp hbeside
    have hsublist := (List.Sublist.refl beside[i].early).append
      (List.take_sublist (w.lasts i) beside[i].late)
    exact .inr ⟨beside[i], List.getElem_mem hi, hsublist.subset hl⟩

def shownUpTo (level : Level) (lines : List Line) : String :=
  String.join ((lines.filter fun l => l.level.rank ≤ level.rank).map Line.display)

namespace Filter

variable {l : Line} {lines : List Line}

theorem directives_ofLevel (level : Level) : (ofLevel level).directives =
    [⟨none, some .warn⟩, ⟨some ownTarget, some level⟩, ⟨some fetchTarget, some level⟩] := by
  have hdistinct : [⟨none, some .warn⟩, ⟨some ownTarget, some level⟩,
      ⟨some fetchTarget, some level⟩].foldl insert [] = [⟨none, some .warn⟩,
      ⟨some ownTarget, some level⟩, ⟨some fetchTarget, some level⟩] := rfl
  have hlengths : ownTarget.utf8ByteSize ≤ fetchTarget.utf8ByteSize := by decide
  have hsorted : [⟨none, some .warn⟩, ⟨some ownTarget, some level⟩,
      ⟨some fetchTarget, some level⟩].Pairwise
      fun d e : Directive => d.targetLength ≤ e.targetLength := by
    simpa [Directive.targetLength] using hlengths
  simp only [ofLevel, ofDirectives, hdistinct]
  exact List.mergeSort_of_pairwise (hsorted.imp fun h => decide_eq_true h)

theorem shows_ofLevel (level : Level) (h : l.isOwn = true) :
    (ofLevel level).shows l = decide (l.level.rank ≤ level.rank) := by
  have hneeded : (ofLevel level).needed = none := rfl
  have hown : Directive.applies ⟨some ownTarget, some level⟩ l = true := h
  simp only [shows, directives_ofLevel, hneeded, List.reverse_cons, List.reverse_nil,
    List.nil_append, List.cons_append, List.find?_cons, hown]
  cases Directive.applies ⟨some fetchTarget, some level⟩ l <;> simp [Directive.admits]

theorem display_ofLevel (level : Level) (h : ∀ l ∈ lines, l.isOwn = true) :
    (ofLevel level).display lines = shownUpTo level lines := by
  have hwarnings : (ofLevel level).warnings = [] := rfl
  have hshown : lines.filter (ofLevel level).shows =
      lines.filter fun l => l.level.rank ≤ level.rank :=
    List.filter_congr fun l hl => shows_ofLevel level (h l hl)
  rw [display, hwarnings, hshown, List.map_nil, String.join_nil, String.empty_append, shownUpTo]

end Filter

end Blocklist.Log
