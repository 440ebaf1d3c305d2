import Blocklist.Text.Ascending
import Mathlib.Data.List.Sort
-- Sorting and leaving out repeats comes to a strictly ascending list.
namespace Blocklist.Text

-- Of equal neighbours one stays, so that of an ascending list each text stays once
theorem pairwise_dropRepeats {texts : List String} (h : texts.Pairwise (· ≤ ·)) :
    (dropRepeats texts).Pairwise (· < ·) := by
  fun_induction dropRepeats texts with
  | case1 => exact .nil
  | case2 s => exact List.pairwise_singleton _ s
  | case3 t rest ih => exact ih h.of_cons
  | case4 s t rest hne ih =>
      obtain ⟨hbelow, htail⟩ := List.pairwise_cons.mp h
      refine List.pairwise_cons.mpr ⟨fun u hu => ?_, ih htail⟩
      have hst : s < t := String.not_le.mp fun hts =>
        hne (String.le_antisymm (hbelow t List.mem_cons_self) hts)
      rcases List.mem_cons.mp ((mem_dropRepeats u _).mp hu) with rfl | hrest
      · exact hst
      · have htu : t ≤ u := (List.pairwise_cons.mp htail).1 u hrest
        exact String.not_le.mp fun hus => String.not_le.mpr hst (String.le_trans htu hus)

theorem pairwise_mergeSort_le (texts : List String) :
    (texts.mergeSort fun s t => decide (s ≤ t)).Pairwise (· ≤ ·) := by
  have htrans : ∀ s t u : String, decide (s ≤ t) = true → decide (t ≤ u) = true →
      decide (s ≤ u) = true := by
    intro s t u hst htu
    rw [decide_eq_true_eq] at hst htu ⊢
    exact String.le_trans hst htu
  have htotal : ∀ s t : String, (decide (s ≤ t) || decide (t ≤ s)) = true := by
    intro s t
    simpa using String.le_total s t
  simpa using List.pairwise_mergeSort htrans htotal texts

theorem pairwise_ascending (texts : List String) : (ascending texts).Pairwise (· < ·) :=
  pairwise_dropRepeats (pairwise_mergeSort_le texts)

-- There is one strictly ascending list of the same texts
theorem ascending_eq {texts sorted : List String} (hless : sorted.Pairwise (· < ·))
    (hsub : texts ⊆ sorted) (hsup : sorted ⊆ texts) : ascending texts = sorted :=
  (pairwise_ascending texts).eq_of_mem_iff hless fun s =>
    (mem_ascending s texts).trans ⟨@hsub s, @hsup s⟩

end Blocklist.Text
