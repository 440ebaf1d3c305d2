import Blocklist.Text.Blank
import Mathlib.Data.List.DropRight
import Mathlib.Data.List.TakeWhile
-- Trimming: blanks at the ends of a text do not count, and a text without blanks is left alone.
namespace Blocklist.Text

variable {c : Char} {text : List Char}

theorem code_of_isDigit (hc : c.isDigit = true) : 48 ≤ c.toNat ∧ c.toNat ≤ 57 :=
  Char.isDigit_iff_toNat.mp hc

theorem isBlank_of_isDigit (hc : c.isDigit = true) : isBlank c = false := by
  have hcode := code_of_isDigit hc
  exact isBlank_of_visible (by omega)

theorem trim_eq_self (h : ∀ c ∈ text, isBlank c = false) : trim text = text := by
  have hkeep : ∀ l : List Char, (∀ c ∈ l, isBlank c = false) → l.dropWhile isBlank = l :=
    fun l hl => List.dropWhile_eq_self_iff.mpr fun hlength => by
      simp [hl l[0] (List.getElem_mem hlength)]
  rw [trim, trimStart, hkeep text h, trimEnd,
    hkeep text.reverse fun c hc => h c (List.mem_reverse.mp hc), List.reverse_reverse]

-- No blank at either end
theorem trim_eq_self_of_ends (hfirst : ∀ c ∈ text.head?, isBlank c = false)
    (hlast : ∀ c ∈ text.getLast?, isBlank c = false) : trim text = text := by
  have hstart : trimStart text = text := List.dropWhile_eq_self_iff.mpr fun hlength => by
    simp [hfirst text[0] (List.head?_eq_getElem? ▸ List.getElem?_eq_getElem hlength)]
  have hend : text.rdropWhile isBlank = text := List.rdropWhile_eq_self_iff.mpr fun hne => by
    simp [hlast _ (List.getLast?_eq_some_getLast hne)]
  rw [trim, hstart]
  exact hend

theorem isBlank_of_last_of_trim (hc : c ∈ (trim text).getLast?) : isBlank c = false := by
  obtain ⟨hne, rfl⟩ := List.mem_getLast?_eq_getLast hc
  exact Bool.eq_false_iff.mpr (List.rdropWhile_last_not isBlank (trimStart text) hne)

theorem trim_cons_blank (hc : isBlank c = true) (text : List Char) :
    trim (c :: text) = trim text := by
  rw [trim, trimStart, List.dropWhile_cons_of_pos hc]
  rfl

-- Where there is more than blanks, what follows is no matter to the start
theorem trimStart_append (h : trimStart text ≠ []) (rest : List Char) :
    trimStart (text ++ rest) = trimStart text ++ rest := by
  unfold trimStart at h ⊢
  rw [List.dropWhile_append, if_neg (by rwa [List.isEmpty_iff])]

theorem trimEnd_append (h : trimEnd text ≠ []) (front : List Char) :
    trimEnd (front ++ text) = front ++ trimEnd text := by
  have hstart : trimStart text.reverse ≠ [] := fun hnil => h (congrArg List.reverse hnil)
  calc trimEnd (front ++ text)
      = (trimStart (text.reverse ++ front.reverse)).reverse := by rw [← List.reverse_append]; rfl
    _ = front ++ trimEnd text := by
      rw [trimStart_append hstart, List.reverse_append, List.reverse_reverse]
      rfl

theorem trimEnd_split (text : List Char) :
    ∃ blanks, (∀ c ∈ blanks, isBlank c = true) ∧ text = trimEnd text ++ blanks :=
  ⟨text.rtakeWhile isBlank, fun _ => List.mem_rtakeWhile_imp,
    List.rdropWhile_append_rtakeWhile.symm⟩

theorem trimEnd_concat_blank (hc : isBlank c = true) (text : List Char) :
    trimEnd (text ++ [c]) = trimEnd text :=
  List.rdropWhile_concat_pos isBlank text c hc

theorem trim_concat_blank (hc : isBlank c = true) (text : List Char) :
    trim (text ++ [c]) = trim text := by
  rw [trim, trimStart, List.dropWhile_append]
  split
  case isTrue hall =>
    -- there is nothing but blanks
    have hnil : trimStart text = [] := List.isEmpty_iff.mp hall
    rw [trim, hnil, List.dropWhile_cons_of_pos hc]
    rfl
  case isFalse => exact trimEnd_concat_blank hc (trimStart text)

end Blocklist.Text
