import Mathlib.Data.List.Basic
-- Lines of a text, and what stands on one of them.
namespace Blocklist.Text

theorem first_line (text : List Char) :
    ∃ line, '\n' ∉ line ∧ (text = line ∨ ∃ more, text = line ++ '\n' :: more) := by
  by_cases h : '\n' ∈ text
  · obtain ⟨line, more, htext, hline⟩ := List.eq_append_cons_of_mem h
    exact ⟨line, hline, .inr ⟨more, htext⟩⟩
  · exact ⟨text, h, .inl rfl⟩

-- A text is a line, or a line and the text behind its line end
theorem lines_induction {motive : List Char → Prop} (line : ∀ line, '\n' ∉ line → motive line)
    (append : ∀ line text, '\n' ∉ line → motive text → motive (line ++ '\n' :: text))
    (text : List Char) : motive text := by
  generalize hn : text.length = n
  induction n using Nat.strongRecOn generalizing text with
  | ind n ih =>
      obtain ⟨first, hfirst, rfl | ⟨rest, rfl⟩⟩ := first_line text
      · exact line text hfirst
      · simp only [List.length_append, List.length_cons] at hn
        exact append first rest hfirst (ih rest.length (by omega) rest rfl)

-- A part without line ends stands before a line end or behind it
theorem part_on_line {front part back line text : List Char} (hpart : '\n' ∉ part)
    (h : front ++ part ++ back = line ++ '\n' :: text) :
    (∃ rest, line = front ++ part ++ rest ∧ back = rest ++ '\n' :: text) ∨
      ∃ rest, front = line ++ '\n' :: rest ∧ text = rest ++ part ++ back := by
  rcases List.append_eq_append_iff.mp h with hbefore | ⟨more, hparts, hmore⟩
  · exact .inl hbefore
  · rcases List.cons_eq_append_iff.mp hmore with ⟨rfl, rfl⟩ | ⟨more, rfl, rfl⟩
    · exact .inl ⟨[], by rw [hparts, List.append_nil, List.append_nil], rfl⟩
    · rcases List.append_eq_append_iff.mp hparts with ⟨_, -, hend⟩ | ⟨rest, hfront, hend⟩
      · exact absurd (hend ▸ List.mem_append_right _ List.mem_cons_self) hpart
      · rcases List.cons_eq_append_iff.mp hend with ⟨-, rfl⟩ | ⟨rest, rfl, rfl⟩
        · exact absurd List.mem_cons_self hpart
        · exact .inr ⟨rest, hfront, rfl⟩

end Blocklist.Text
