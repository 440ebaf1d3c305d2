import Blocklist.Proofs.Text.Blank
import Blocklist.Proofs.Text.Decoder
import Blocklist.Proofs.Text.Lines
-- The text of the first bytes of a sequence. It is how the text of all bytes begins, and where a
-- character is cut U+FFFD stands in its place.
namespace Blocklist.Text

-- The first text is what the second comes to when it is cut off
inductive Cut : List Char → List Char → Prop where
  | within (text rest : List Char) : Cut text (text ++ rest)
  -- a character of several bytes, which may have been none, is cut
  | broken (text rest : List Char) (c : Char) (hc : 0x80 ≤ c.toNat) :
      Cut (text ++ ['\uFFFD']) (text ++ c :: rest)

variable (first rest : List UInt8)

theorem cut_decodeLossy : Cut (decodeLossy first) (decodeLossy (first ++ rest)) := by
  have hsound := Decoder.sound_foldl_step Decoder.sound_start first
  rw [decodeLossy, decodeLossy, decodeBytes, decodeBytes, List.foldl_append]
  generalize first.foldl Decoder.step Decoder.start = d at hsound ⊢
  cases hd : d.pending with
  | none =>
      obtain ⟨more, hmore⟩ := d.chars_foldl_step rest
      rw [← hmore, List.reverse_append, Decoder.finish, hd]
      exact Cut.within _ _
  | some p =>
      obtain ⟨c, hc, more, hmore⟩ := Decoder.chars_foldl_step_some hd (hsound p hd) rest
      have hfirst : d.finish.chars = '\uFFFD' :: d.chars := by
        rw [Decoder.finish, hd]
        rfl
      rw [← hmore, hfirst, List.reverse_append, List.reverse_cons, List.reverse_cons,
        List.append_assoc]
      exact Cut.broken _ _ c hc

-- At a line feed no character is cut
theorem decodeLossy_append_lineFeed :
    decodeLossy first ++ ['\n'] <+: decodeLossy (first ++ 0x0A :: rest) := by
  have hsound := Decoder.sound_foldl_step Decoder.sound_start first
  rw [decodeLossy, decodeLossy, decodeBytes, decodeBytes, List.foldl_append, List.foldl_cons,
    Decoder.step_ascii hsound (by decide)]
  rw [← List.reverse_cons, List.reverse_prefix]
  exact Decoder.chars_foldl_step (Decoder.push _ '\n') rest

-- Lines

variable {text full line line' : List Char}

-- What stands behind the last line end
def lastLine (text : List Char) : List Char := text.rtakeWhile (· != '\n')

theorem not_mem_lastLine : '\n' ∉ lastLine text := by
  intro h
  simpa using List.mem_rtakeWhile_imp h

theorem eq_lastLine (text : List Char) :
    text = lastLine text ∨ ∃ before, text = before ++ '\n' :: lastLine text := by
  have hsplit : text.rdropWhile (· != '\n') ++ lastLine text = text :=
    List.rdropWhile_append_rtakeWhile
  rcases List.eq_nil_or_concat (text.rdropWhile (· != '\n')) with hnil | ⟨before, c, hbefore⟩
  · rw [hnil, List.nil_append] at hsplit
    exact .inl hsplit.symm
  · have hc : c = '\n' := by
      have hlast := List.rdropWhile_last_not (· != '\n') text (by simp [hbefore])
      simpa [hbefore] using hlast
    rw [hbefore, hc, List.concat_eq_append, List.append_assoc] at hsplit
    exact .inr ⟨before, hsplit.symm⟩

-- Only the last line is cut
theorem Cut.append_cons {before : List Char} (h : Cut (before ++ '\n' :: line) full) :
    ∃ more, full = before ++ '\n' :: more ∧ Cut line more := by
  generalize htext : before ++ '\n' :: line = text at h
  cases h with
  | within text rest =>
      subst htext
      exact ⟨line ++ rest, by simp, .within line rest⟩
  | broken text rest c hc =>
      rcases List.eq_nil_or_concat line with rfl | ⟨line, last, rfl⟩
      · have hlast := congrArg List.getLast? htext
        simp at hlast
      · rw [List.concat_eq_append, ← List.cons_append, ← List.append_assoc] at htext
        obtain ⟨rfl, hlast⟩ := List.append_inj' htext rfl
        rw [List.concat_eq_append, hlast]
        exact ⟨line ++ c :: rest, by simp, .broken line rest c hc⟩

-- A line that is cut is one of a line
theorem Cut.first_line (h : Cut line full) (hline : '\n' ∉ line) :
    ∃ line', Cut line line' ∧ '\n' ∉ line' ∧
      (full = line' ∨ ∃ more, full = line' ++ '\n' :: more) := by
  cases h with
  | within line rest =>
      obtain ⟨rest', hrest', hfull⟩ := Text.first_line rest
      refine ⟨line ++ rest', .within line rest', by simp [hline, hrest'], ?_⟩
      rcases hfull with rfl | ⟨more, rfl⟩
      · exact .inl rfl
      · exact .inr ⟨more, by simp⟩
  | broken line rest c hc =>
      obtain ⟨rest', hrest', hfull⟩ := Text.first_line rest
      have hne : '\n' ≠ c := by
        rintro rfl
        exact absurd hc (by decide)
      refine ⟨line ++ c :: rest', .broken line rest' c hc, ?_, ?_⟩
      · simp only [List.mem_append, not_or] at hline
        simp [hline.1, hne, hrest']
      · rcases hfull with rfl | ⟨more, rfl⟩
        · exact .inl rfl
        · exact .inr ⟨more, by simp⟩

-- Trimming keeps the cut, and may take away only what stands behind it
theorem Cut.trim (h : Cut line line') (hc : ∃ c ∈ trim line, c ≠ '\uFFFD') :
    ∃ full, Cut (trim line) full ∧ trim line' = trimEnd full := by
  obtain ⟨c, hmem, hne⟩ := hc
  cases h with
  | within line rest =>
      have hstart : trimStart line ≠ [] := by
        intro hnil
        rw [Text.trim, hnil] at hmem
        cases hmem
      obtain ⟨blanks, -, hblanks⟩ := trimEnd_split (trimStart line)
      refine ⟨trimEnd (trimStart line) ++ (blanks ++ rest), .within _ _, ?_⟩
      rw [Text.trim, trimStart_append hstart, ← List.append_assoc, ← hblanks]
  | broken line rest c' hc' =>
      have hend : ∀ text, trimEnd (text ++ ['\uFFFD']) = text ++ ['\uFFFD'] := fun text =>
        List.rdropWhile_concat_neg isBlank text '\uFFFD' (by decide)
      have hstart : trimStart line ≠ [] := by
        intro hnil
        have hblank : ∀ c ∈ line, isBlank c = true := List.dropWhile_eq_nil_iff.mp hnil
        rw [Text.trim, trimStart, List.dropWhile_append_of_pos hblank] at hmem
        exact hne (List.mem_singleton.mp hmem)
      refine ⟨trimStart line ++ c' :: rest, ?_, ?_⟩
      · rw [Text.trim, trimStart_append hstart, hend]
        exact .broken _ rest c' hc'
      · rw [Text.trim, trimStart_append hstart]

end Blocklist.Text
