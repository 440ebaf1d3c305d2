import Blocklist.Proofs.Domain.Extract
import Blocklist.Proofs.Domain.Matcher
import Blocklist.Proofs.Text.LetterCase
-- Nothing is made up: what is extracted is a host name in small letters, and some line that
-- counts has it written in it.
namespace Blocklist.Domain

open Blocklist.Text

variable {line candidate host : List Char}

namespace Matcher

-- The matcher finds hosts only, and only where they are written
def FindsHosts (find : Matcher) : Prop :=
  ∀ line host, find line = some host → IsHost host ∧ host <:+: line

theorem hosts_findsHosts : FindsHosts hosts := by
  intro line host h
  obtain ⟨address, blanks, -, -, -, hhost, rfl⟩ := hosts_eq_some.mp h
  rw [← List.append_assoc]
  exact ⟨hhost, (List.suffix_append _ host).isInfix⟩

theorem anchor_findsHosts : FindsHosts anchor := by
  intro line host h
  obtain ⟨before, ⟨hhost, after, rfl⟩, -⟩ := anchor_eq_some.mp h
  exact ⟨hhost, before ++ ['|', '|'], '^' :: after, by simp⟩

theorem cosmetic_findsHosts : FindsHosts cosmetic := by
  intro line host h
  obtain ⟨c, rest, hrun, -⟩ := cosmetic_eq_some.mp h
  exact ⟨hrun.host, [], '#' :: '#' :: '#' :: c :: rest, by simpa using hrun.split.symm⟩

theorem throughLabel_begins (run : List Char) (i : Nat) : throughLabel run i <+: run := by
  have hletters : (run.drop (i + 1)).takeWhile Char.isAlpha <+: run.drop (i + 1) :=
    List.takeWhile_prefix _
  have h := (List.prefix_append_right_inj (run.take (i + 1))).mpr hletters
  rwa [List.take_append_drop] at h

theorem generic_findsHosts : FindsHosts generic := by
  intro line host h
  obtain ⟨before, run, after, i, hfirst, hlast, rfl⟩ := generic_eq_some.mp h
  have hbegins := throughLabel_begins run i
  have hne : throughLabel run i ≠ [] := by
    intro hnil
    have hletters := hlast.1.2.2
    rw [(List.append_eq_nil_iff.mp hnil).2] at hletters
    simp at hletters
  refine ⟨⟨hne, fun c hc => hfirst.isRun.host.2 c (hbegins.subset hc)⟩, ?_⟩
  exact hbegins.isInfix.trans ⟨before, after, by simpa using hfirst.isRun.split.symm⟩

theorem findsHosts_of_mem_standard {find : Matcher} (h : find ∈ standard) : FindsHosts find := by
  simp only [standard, List.mem_cons, List.not_mem_nil, or_false] at h
  rcases h with rfl | rfl | rfl | rfl
  · exact hosts_findsHosts
  · exact anchor_findsHosts
  · exact cosmetic_findsHosts
  · exact generic_findsHosts

theorem IsHost.lowerCase (h : IsHost host) : lowerCase host = host.map Char.toLower :=
  lowerCase_ascii host fun c hc => by
    have := visible_of_isHostChar (h.2 c hc)
    omega

end Matcher

theorem normalize?_eq_some : normalize? candidate = some host ↔
    lowerCase candidate = host ∧ ¬ "localhost".toList <+: host ∧ '_' ∉ host := by
  simp only [normalize?, Option.ite_none_left_eq_some, Bool.or_eq_true, not_or,
    List.isPrefixOf_iff_prefix, List.contains_iff_mem, Option.some.injEq]
  constructor
  · rintro ⟨h, rfl⟩
    exact ⟨rfl, h⟩
  · rintro ⟨rfl, h⟩
    exact ⟨h, rfl⟩

-- The normal form of a host is the host in small letters
theorem map_toLower_of_normalize? (h : Matcher.IsHost candidate)
    (hnormal : normalize? candidate = some host) : candidate.map Char.toLower = host :=
  h.lowerCase ▸ (normalize?_eq_some.mp hnormal).1

theorem isSkipped_eq_false : isSkipped line = false ↔
    line ≠ [] ∧ ¬ ['#'] <+: line ∧ ¬ ['!'] <+: line ∧ ¬ ['@', '@'] <+: line := by
  simp only [isSkipped, skippedStarts, List.any_cons, List.any_nil, Bool.or_false,
    ← Bool.not_eq_true, Bool.or_eq_true, not_or, List.isEmpty_iff, List.isPrefixOf_iff_prefix]

theorem isSkipped_of_not_mem (hne : line ≠ []) (hhash : '#' ∉ line) (hmark : '!' ∉ line)
    (hat : '@' ∉ line) : isSkipped line = false := by
  have hno : ∀ c rest, c ∉ line → ¬ c :: rest <+: line := fun _ _ hc hstart =>
    hc (hstart.subset List.mem_cons_self)
  exact isSkipped_eq_false.mpr ⟨hne, hno '#' [] hhash, hno '!' [] hmark, hno '@' ['@'] hat⟩

-- Host characters in small
theorem small_of_isHostChar {c : Char} (hc : Matcher.isHostChar c = true) :
    c.toLower.isLower = true ∨ c.toLower.isDigit = true ∨ c.toLower = '.' ∨ c.toLower = '-' := by
  simp only [Matcher.isHostChar, Char.isAlphanum, Bool.or_eq_true, beq_iff_eq] at hc
  rcases hc with ((halpha | hdigit) | rfl) | rfl
  · exact .inl ((Char.isLower_toLower_eq_isAlpha c).trans halpha)
  · exact .inr (.inl ((isDigit_toLower c).trans hdigit))
  · exact .inr (.inr (.inl rfl))
  · exact .inr (.inr (.inr rfl))

-- Whatever the matchers are, no name of the local host and none with an underscore comes out
theorem Yields.isPublic {matchers : List Matcher} {text : List Char}
    (h : Yields matchers text host) : ¬ "localhost".toList <+: host ∧ '_' ∉ host := by
  obtain ⟨line, -, hhost⟩ := h
  obtain ⟨-, find, -, candidate, -, hnormal⟩ := mem_domainsOfLine.mp hhost
  exact (normalize?_eq_some.mp hnormal).2

-- A host in the line in whatever case, which comes out in small
theorem Yields.isWritten {text : List Char} (h : Yields Matcher.standard text host) :
    ∃ line ∈ text.splitOn '\n', isSkipped (trim line) = false ∧
      ∃ written, Matcher.IsHost written ∧ written <:+: trim line ∧
        written.map Char.toLower = host := by
  obtain ⟨line, hline, hhost⟩ := h
  obtain ⟨hcounts, find, hfind, written, hfound, hnormal⟩ := mem_domainsOfLine.mp hhost
  obtain ⟨hwritten, hinfix⟩ := Matcher.findsHosts_of_mem_standard hfind _ _ hfound
  exact ⟨line, hline, hcounts, written, hwritten, hinfix,
    map_toLower_of_normalize? hwritten hnormal⟩

-- A domain that is extracted is a name of small letters, digits, dots and hyphens, and stands
-- in a line that is no comment and no exception. With other matchers it may be anything but a
-- name of the local host or with an underscore.
theorem extracts_what_is_written (text d : String) :
    (d ∈ extract text →
      d ≠ "" ∧
      (∀ c ∈ d.toList, c.isLower = true ∨ c.isDigit = true ∨ c = '.' ∨ c = '-') ∧
      ¬ "localhost".toList <+: d.toList ∧
      ∃ line ∈ text.toList.splitOn '\n',
        (trim line ≠ [] ∧ ¬ ['#'] <+: trim line ∧ ¬ ['!'] <+: trim line ∧
          ¬ ['@', '@'] <+: trim line) ∧
        ∃ written, written <:+: trim line ∧ written.map Char.toLower = d.toList) ∧
    (∀ matchers, d ∈ extractWith matchers text →
      '_' ∉ d.toList ∧ ¬ "localhost".toList <+: d.toList) := by
  refine ⟨fun h => ?_, fun matchers h => ?_⟩
  · have hyields := mem_extractWith.mp h
    obtain ⟨line, hline, hcounts, written, hwritten, hinfix, hd⟩ := hyields.isWritten
    refine ⟨?_, fun c hc => ?_, hyields.isPublic.1, line, hline, isSkipped_eq_false.mp hcounts,
      written, hinfix, hd⟩
    · rintro rfl
      exact hwritten.1 (List.map_eq_nil_iff.mp hd)
    · rw [← hd] at hc
      obtain ⟨big, hbig, rfl⟩ := List.mem_map.mp hc
      exact small_of_isHostChar (hwritten.2 big hbig)
  · exact (mem_extractWith.mp h).isPublic.symm

-- A list with a comment, an indented line and a host in capitals
def mixedList : String := "! x.org\n\t||Ads.Example.COM^$script \r\n"

theorem mem_extract_mixedList : "ads.example.com" ∈ extract mixedList := by
  refine mem_extractWith.mpr ⟨"\t||Ads.Example.COM^$script \r".toList, by decide, ?_⟩
  rw [mem_domainsOfLine]
  exact ⟨by decide, Matcher.anchor, by simp [Matcher.standard], "Ads.Example.COM".toList,
    by decide, by decide⟩

theorem extracts_what_is_written_mixed :
    "ads.example.com" ∈ extract mixedList ∧
    (∃ line ∈ mixedList.toList.splitOn '\n', ∃ written, written <:+: trim line ∧
      written.map Char.toLower = "ads.example.com".toList) ∧
    '_' ∉ "ads.example.com".toList := by
  have hsound := extracts_what_is_written mixedList "ads.example.com"
  obtain ⟨-, -, -, line, hline, -, hwritten⟩ := hsound.1 mem_extract_mixedList
  exact ⟨mem_extract_mixedList, ⟨line, hline, hwritten⟩,
    (hsound.2 Matcher.standard mem_extract_mixedList).1⟩

end Blocklist.Domain
