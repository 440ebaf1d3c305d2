-- Texts in code point order, each once.
namespace Blocklist.Text

-- Leave out a text that stands right before an equal one
def dropRepeats : List String → List String
  | [] => []
  | [s] => [s]
  | s :: t :: rest => if s = t then dropRepeats (t :: rest) else s :: dropRepeats (t :: rest)

def ascending (texts : List String) : List String :=
  dropRepeats (texts.mergeSort fun s t => decide (s ≤ t))

theorem mem_dropRepeats (s : String) (texts : List String) :
    s ∈ dropRepeats texts ↔ s ∈ texts := by
  fun_induction dropRepeats texts with
  | case1 => rfl
  | case2 => rfl
  | case3 t rest ih => simp [ih]
  | case4 t u rest _ ih => simp [ih]

theorem mem_ascending (s : String) (texts : List String) : s ∈ ascending texts ↔ s ∈ texts := by
  rw [ascending, mem_dropRepeats, List.mem_mergeSort]

end Blocklist.Text
