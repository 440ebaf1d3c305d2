import Blocklist.Proofs.Domain.Sound
import Blocklist.Proofs.Text.Cut
-- Lines that are cut off. What a matcher finds in one it finds in the whole line as well, except
-- for a name that stands right at the cut.
namespace Blocklist.Domain

open Blocklist.Text

variable {line line' full rest name host : List Char} {c : Char}

namespace Matcher

-- The name is how the host characters at the end of the line begin. Or it stands whole before
-- `###`, with nothing but blanks between that and a character that is cut.
def AtCut (line name : List Char) : Prop :=
  (∃ before run, IsRun line before run [] ∧ name <+: run) ∨
  ∃ blanks, IsHost name ∧ (∀ c ∈ blanks, isBlank c = true) ∧
    line = name ++ ('#' :: '#' :: '#' :: (blanks ++ ['\uFFFD']))

theorem isHostChar_of_beyond (hc : 0x80 ≤ c.toNat) : isHostChar c = false := by
  rw [Bool.eq_false_iff]
  intro hhost
  have hvisible := visible_of_isHostChar hhost
  omega

-- Lines of hosts files end with their host

theorem atCut_of_hosts (h : hosts line = some name) : AtCut line name := by
  obtain ⟨address, blanks, -, hne, hblanks, hname, rfl⟩ := hosts_eq_some.mp h
  refine .inl ⟨address ++ blanks, name, ⟨by simp, hname, fun c hc => ?_, nofun⟩, List.prefix_rfl⟩
  rw [List.getLast?_append_of_ne_nil _ hne] at hc
  exact isHostChar_of_isBlank (hblanks c (List.mem_of_getLast? hc))

-- Anchors have their end in the line

theorem caret_mem_of_anchor (h : anchor line = some name) : '^' ∈ line := by
  obtain ⟨before, ⟨-, after, rfl⟩, -⟩ := anchor_eq_some.mp h
  simp

theorem anchorAt_append (h : '^' ∈ rest → '^' ∈ line) :
    AnchorAt (line ++ rest) [] name ↔ AnchorAt line [] name := by
  constructor
  · rintro ⟨hname, after, hsplit⟩
    have hcaret : '^' ∉ '|' :: '|' :: name := by
      intro hmem
      have hmem' : '^' ∈ name := by simpa using hmem
      exact absurd (hname.2 '^' hmem') (by decide)
    have hline : '^' ∈ line := by
      have hmem : '^' ∈ line ++ rest := by simp [hsplit]
      exact (List.mem_append.mp hmem).elim id h
    rw [List.nil_append, ← List.cons_append, ← List.cons_append] at hsplit
    rcases List.append_eq_append_iff.mp hsplit with ⟨more, hmore, -⟩ | ⟨more, rfl, hmore⟩
    · exact absurd (hmore ▸ List.mem_append_left more hline) hcaret
    · cases more with
      | nil => exact absurd (by simpa using hline) hcaret
      | cons b more =>
          obtain ⟨rfl, -⟩ := List.cons.inj hmore
          exact ⟨hname, more, rfl⟩
  · rintro ⟨hname, after, rfl⟩
    exact ⟨hname, after ++ rest, by simp⟩

theorem anchorHere_append (h : '^' ∈ rest → '^' ∈ line) :
    anchorHere (line ++ rest) = anchorHere line := by
  refine Option.ext fun d => ?_
  rw [anchorHere_eq_some, anchorHere_eq_some, anchorAt_append h]

-- What follows makes no difference, unless it has the end of an anchor for a line without one
theorem anchor_append (h : '^' ∈ rest → anchor line ≠ none) :
    anchor (line ++ rest) = anchor line := by
  induction line with
  | nil =>
      have hrest : '^' ∉ rest := fun hmem => h hmem rfl
      refine Option.eq_none_iff_forall_ne_some.mpr fun d hd => ?_
      exact hrest (caret_mem_of_anchor hd)
  | cons c text ih =>
      rw [List.cons_append, anchor, anchor, ← List.cons_append]
      cases hhere : anchorHere (c :: text) with
      | some d =>
          have hcaret : '^' ∈ c :: text := by
            obtain ⟨-, after, hline⟩ := anchorHere_eq_some.mp hhere
            simp [hline]
          rw [anchorHere_append fun _ => hcaret, hhere, Option.some_or, Option.some_or]
      | none =>
          rw [anchor, hhere, Option.none_or] at h
          have hcaret : '^' ∈ rest → '^' ∈ c :: text := by
            intro hmem
            obtain ⟨d, hd⟩ := Option.ne_none_iff_exists'.mp (h hmem)
            exact List.mem_cons_of_mem c (caret_mem_of_anchor hd)
          rw [anchorHere_append hcaret, hhere, ih h]

theorem anchor_of_cut (h : Cut line full) (hname : anchor line = some name) :
    anchor full = some name := by
  cases h with
  | within line rest => rw [anchor_append (by simp [hname]), hname]
  | broken line rest c hc =>
      rw [anchor_append (by simp)] at hname
      rw [anchor_append (by simp [hname]), hname]

theorem anchor_trimEnd (full : List Char) : anchor (trimEnd full) = anchor full := by
  obtain ⟨blanks, hblanks, hfull⟩ := trimEnd_split full
  have hcaret : '^' ∉ blanks := fun hmem => absurd (hblanks '^' hmem) (by decide)
  conv_rhs => rw [hfull, anchor_append fun hmem => absurd hmem hcaret]

-- Cosmetic filters have one more character in the line

theorem cosmetic_iff : cosmetic line = some name ↔ IsHost name ∧
    ∃ tail, line = name ++ ('#' :: '#' :: '#' :: tail) ∧ ∃ c ∈ tail.head?, c ≠ '#' := by
  rw [cosmetic_eq_some]
  constructor
  · rintro ⟨c, rest, hrun, hc⟩
    exact ⟨hrun.host, c :: rest, hrun.split, c, rfl, hc⟩
  · rintro ⟨hname, tail, rfl, c, hhead, hc⟩
    obtain ⟨rest, rfl⟩ := List.head?_eq_some_iff.mp hhead
    exact ⟨c, rest, isRun_append hname (startsOff_cons (by decide)), hc⟩

-- The line with its last character apart
theorem cosmetic_concat (h : cosmetic line = some name) : ∃ front last,
    line = (name ++ ('#' :: '#' :: '#' :: front)) ++ [last] ∧ IsHost name ∧
      ∃ c ∈ (front ++ [last]).head?, c ≠ '#' := by
  obtain ⟨hname, tail, rfl, c, hhead, hc⟩ := cosmetic_iff.mp h
  rcases List.eq_nil_or_concat tail with rfl | ⟨front, last, rfl⟩
  · cases hhead
  · rw [List.concat_eq_append] at hhead ⊢
    exact ⟨front, last, by simp, hname, c, hhead, hc⟩

theorem cosmetic_of_cut (h : Cut line full) (hname : cosmetic line = some name) :
    cosmetic full = some name := by
  obtain ⟨front, last, hline, hhost, c, hhead, hc⟩ := cosmetic_concat hname
  refine cosmetic_iff.mpr ⟨hhost, ?_⟩
  cases h with
  | within line rest =>
      refine ⟨front ++ [last] ++ rest, by simp [hline], c, ?_, hc⟩
      rw [List.head?_append, Option.mem_def.mp hhead]
      rfl
  | broken text rest b hb =>
      obtain ⟨rfl, -⟩ := List.append_inj' hline rfl
      refine ⟨front ++ b :: rest, by simp, ?_⟩
      cases front with
      | nil =>
          refine ⟨b, rfl, ?_⟩
          rintro rfl
          exact absurd hb (by decide)
      | cons first front => exact ⟨c, hhead, hc⟩

-- At the end of a line blanks may be all that a filter has behind `###`
theorem cosmetic_trimEnd (h : cosmetic full = some name) :
    cosmetic (trimEnd full) = some name ∨
      ∃ blanks, (∀ c ∈ blanks, isBlank c = true) ∧
        full = name ++ ('#' :: '#' :: '#' :: blanks) := by
  obtain ⟨hhost, tail, rfl, c, hhead, hc⟩ := cosmetic_iff.mp h
  by_cases htail : trimEnd tail = []
  · exact .inr ⟨tail, List.rdropWhile_eq_nil_iff.mp htail, rfl⟩
  · have htrim := trimEnd_append htail (name ++ ['#', '#', '#'])
    obtain ⟨blanks, -, hsplit⟩ := trimEnd_split tail
    obtain ⟨first, more, hfirst⟩ := List.exists_cons_of_ne_nil htail
    rw [hsplit, hfirst] at hhead
    rw [hfirst] at htrim
    exact .inl (cosmetic_iff.mpr ⟨hhost, first :: more, by simpa using htrim, c, hhead, hc⟩)

-- Only a character that is cut may become a blank
theorem atCut_of_cosmetic (h : Cut line full) (hend : ∀ c ∈ line.getLast?, isBlank c = false)
    (hname : cosmetic line = some name) :
    cosmetic (trimEnd full) = some name ∨ AtCut line name := by
  rcases cosmetic_trimEnd (cosmetic_of_cut h hname) with hfound | ⟨blanks, hblanks, hfull⟩
  · exact .inl hfound
  · obtain ⟨front, last, hline, hhost, -⟩ := cosmetic_concat hname
    cases h with
    | within line rest =>
        rw [hline, List.append_assoc, List.append_assoc] at hfull
        obtain rfl : front ++ ([last] ++ rest) = blanks := by simpa using hfull
        have hlast : isBlank last = false := by
          apply hend
          rw [hline, List.getLast?_concat]
          rfl
        simp [hblanks last (by simp)] at hlast
    | broken text rest b hb =>
        obtain ⟨rfl, -⟩ := List.append_inj' hline rfl
        rw [List.append_assoc] at hfull
        obtain rfl : front ++ b :: rest = blanks := by simpa using hfull
        refine .inr (.inr ⟨front, hhost, fun c hc => hblanks c (by simp [hc]), ?_⟩)
        rw [List.append_assoc]
        rfl

-- Anything that looks like a domain

theorem generic_append_or (h : generic line = some name) (rest : List Char) :
    generic (line ++ rest) = some name ∨ ∃ before run, IsRun line before run [] ∧ name <+: run := by
  induction line using runs_induction with
  | nil => cases h
  | skip c text hc ih =>
      rw [generic_cons hc] at h
      rw [List.cons_append, generic_cons hc]
      refine (ih h).imp_right ?_
      rintro ⟨before, run, hrun, hbegins⟩
      exact ⟨c :: before, run, hrun.cons hc, hbegins⟩
  | run first text hfirst htext ih =>
      rw [generic_append hfirst.2 htext] at h
      by_cases hend : text = []
      · subst hend
        rw [generic_nil, Option.or_none] at h
        obtain ⟨i, -, rfl⟩ := domainOfRun_eq_some.mp h
        exact .inr ⟨[], first, isRun_append hfirst htext, throughLabel_begins first i⟩
      · have hoff : StartsOff (text ++ rest) := by
          obtain ⟨c, text', rfl⟩ := List.exists_cons_of_ne_nil hend
          exact startsOff_cons (htext c rfl)
        rw [List.append_assoc, generic_append hfirst.2 hoff]
        cases hfound : domainOfRun first with
        | some found =>
            rw [hfound, Option.some_or] at h
            exact .inl (by rw [Option.some_or, h])
        | none =>
            rw [hfound, Option.none_or] at h
            rw [Option.none_or]
            refine (ih h).imp_right ?_
            rintro ⟨before, run, hrun, hbegins⟩
            exact ⟨first ++ before, run, hrun.append htext, hbegins⟩

theorem generic_of_cut (h : Cut line full) (hname : generic line = some name) :
    generic full = some name ∨ AtCut line name := by
  cases h with
  | within line rest => exact (generic_append_or hname rest).imp_right .inl
  | broken line rest c hc =>
      rw [generic_append_of_startsOff line (startsOff_cons (by decide))] at hname
      rw [generic_append_of_startsOff line (startsOff_cons (isHostChar_of_beyond hc))]
      have hline : generic line = some name := by
        rwa [generic_cons (by decide), generic_nil, Option.or_none] at hname
      exact .inl (by rw [hline, Option.some_or])

theorem generic_trimEnd (full : List Char) : generic (trimEnd full) = generic full := by
  obtain ⟨blanks, hblanks, hfull⟩ := trimEnd_split full
  have hoff : ∀ c ∈ blanks, isHostChar c = false := fun c hc => isHostChar_of_isBlank (hblanks c hc)
  have hstarts : StartsOff blanks := fun c hc => hoff c (List.mem_of_mem_head? hc)
  have hnone : generic blanks = none := by
    rw [← List.append_nil blanks, generic_skip hoff, generic_nil]
  conv_rhs => rw [hfull, generic_append_of_startsOff _ hstarts, hnone, Option.or_none]

end Matcher

-- Whole lines

-- What begins the whole line begins the line as far as it goes
theorem begins_of_cut {start : List Char} (h : Cut line full)
    (hhost : ∃ c ∈ line, Matcher.isHostChar c = true)
    (hstart : ∀ c ∈ start, Matcher.isHostChar c = false) (hfull : start <+: full) :
    start <+: line := by
  obtain ⟨c, hmem, hc⟩ := hhost
  have hnot : c ∉ start := fun h => by simp [hstart c h] at hc
  cases h with
  | within line rest =>
      rcases List.prefix_or_prefix_of_prefix hfull (List.prefix_append line rest) with h | h
      · exact h
      · exact absurd (h.subset hmem) hnot
  | broken line rest b hb =>
      rcases List.prefix_or_prefix_of_prefix hfull (List.prefix_append line _) with h | h
      · exact h.trans (List.prefix_append line _)
      · rcases List.mem_append.mp hmem with hmem | hmem
        · exact absurd (h.subset hmem) hnot
        · rw [List.mem_singleton.mp hmem] at hc
          exact absurd hc (by decide)

theorem isSkipped_of_cut {part : List Char} (h : Cut line full)
    (hhost : ∃ c ∈ line, Matcher.isHostChar c = true) (hcounts : isSkipped line = false)
    (hne : part ≠ []) (hbegins : part <+: full) : isSkipped part = false := by
  obtain ⟨-, hhash, hmark, hat⟩ := isSkipped_eq_false.mp hcounts
  have hnot : ∀ start, (∀ c ∈ start, Matcher.isHostChar c = false) → ¬ start <+: line →
      ¬ start <+: part :=
    fun start hstart hline hpart => hline (begins_of_cut h hhost hstart (hpart.trans hbegins))
  refine isSkipped_eq_false.mpr ⟨hne, hnot _ ?_ hhash, hnot _ ?_ hmark, hnot _ ?_ hat⟩
  · exact List.forall_mem_singleton.mpr rfl
  · exact List.forall_mem_singleton.mpr rfl
  · exact List.forall_mem_cons.mpr ⟨rfl, List.forall_mem_singleton.mpr rfl⟩

-- A line that is cut has the domains of the whole line, and one whose name stands at the cut
theorem domainsOfLine_of_cut (h : Cut line line')
    (hhost : host ∈ domainsOfLine Matcher.standard line) :
    host ∈ domainsOfLine Matcher.standard line' ∨
      ∃ name, name.map Char.toLower = host ∧ Matcher.AtCut (trim line) name := by
  obtain ⟨hcounts, find, hfind, name, hname, hnormal⟩ := mem_domainsOfLine.mp hhost
  obtain ⟨hisHost, hinfix⟩ := Matcher.findsHosts_of_mem_standard hfind _ _ hname
  obtain ⟨c, hc⟩ := List.exists_mem_of_ne_nil name hisHost.1
  have hchar : Matcher.isHostChar c = true := hisHost.2 c hc
  have hmem : c ∈ trim line := hinfix.subset hc
  have hwhole : c ≠ '\uFFFD' := by
    rintro rfl
    exact absurd hchar (by decide)
  obtain ⟨full, hcut, htrim⟩ := h.trim ⟨c, hmem, hwhole⟩
  by_cases hat : Matcher.AtCut (trim line) name
  · exact .inr ⟨name, map_toLower_of_normalize? hisHost hnormal, hat⟩
  · have hfound : find (trimEnd full) = some name := by
      simp only [Matcher.standard, List.mem_cons, List.not_mem_nil, or_false] at hfind
      rcases hfind with rfl | rfl | rfl | rfl
      · exact absurd (Matcher.atCut_of_hosts hname) hat
      · rw [Matcher.anchor_trimEnd, Matcher.anchor_of_cut hcut hname]
      · have hend : ∀ c ∈ (trim line).getLast?, isBlank c = false :=
          fun _ => isBlank_of_last_of_trim
        exact (Matcher.atCut_of_cosmetic hcut hend hname).resolve_right hat
      · rw [Matcher.generic_trimEnd]
        exact (Matcher.generic_of_cut hcut hname).resolve_right hat
    have hne : trimEnd full ≠ [] := by
      intro hnil
      have hinfix := (Matcher.findsHosts_of_mem_standard hfind _ _ hfound).2
      rw [hnil] at hinfix
      exact hisHost.1 (List.infix_nil.mp hinfix)
    refine .inl (mem_domainsOfLine.mpr ⟨?_, find, hfind, name, ?_, hnormal⟩)
    · rw [htrim]
      exact isSkipped_of_cut hcut ⟨c, hmem, hchar⟩ hcounts hne (List.rdropWhile_prefix _ _)
    · rw [htrim, hfound]

-- Behind `###` a blank has three bytes of which fewer may come
example : domainsOfLine Matcher.standard "ads###\u2003".toList = [] ∧
    domainsOfLine Matcher.standard "ads###\uFFFD".toList = ["ads".toList] := by decide

-- Texts

theorem yields_of_cut {text full : List Char} (h : Cut text full)
    (hhost : Yields Matcher.standard text host) :
    Yields Matcher.standard full host ∨
      ∃ name, name.map Char.toLower = host ∧ Matcher.AtCut (trim (lastLine text)) name := by
  have hlast : ∀ {more}, Cut (lastLine text) more → Yields Matcher.standard (lastLine text) host →
      Yields Matcher.standard more host ∨
        ∃ name, name.map Char.toLower = host ∧ Matcher.AtCut (trim (lastLine text)) name := by
    intro more hcut hyields
    obtain ⟨line', hline, hno, hmore⟩ := hcut.first_line not_mem_lastLine
    rw [yields_line not_mem_lastLine] at hyields
    refine (domainsOfLine_of_cut hline hyields).imp_left fun hmem => ?_
    have hfirst : Yields Matcher.standard line' host := (yields_line hno).mpr hmem
    rcases hmore with rfl | ⟨rest, rfl⟩
    · exact hfirst
    · exact yields_append_line.mpr (.inl hfirst)
  rcases eq_lastLine text with htext | ⟨before, htext⟩
  · rw [htext] at h hhost
    exact hlast h hhost
  · rw [htext] at h hhost
    obtain ⟨more, rfl, hcut⟩ := h.append_cons
    rcases yields_append_line.mp hhost with hbefore | hline
    · exact .inl (yields_append_line.mpr (.inl hbefore))
    · exact (hlast hcut hline).imp_left fun hmore => yields_append_line.mpr (.inr hmore)

end Blocklist.Domain
