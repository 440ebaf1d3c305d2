import Blocklist.Proofs.Domain.HostsLine
-- Names with an underscore. No line blocks such a name, whether it is of a hosts file or an
-- anchor, but the generic matcher searches the parts of the name between underscores.
namespace Blocklist.Domain

open Blocklist.Text

variable {line text name part host : List Char} {c : Char}

namespace Matcher

-- The one pair of bars in the line is followed by no host
theorem anchor_around (hbar : '|' ∉ name) (hcaret : '^' ∉ name) (hname : ¬ IsHost name) :
    anchor ('|' :: '|' :: (name ++ ['^'])) = none := by
  refine Option.eq_none_iff_forall_ne_some.mpr fun found hfound => ?_
  obtain ⟨before, ⟨hhost, after, hline⟩, -⟩ := anchor_eq_some.mp hfound
  have hnobar : '|' ∉ name ++ ['^'] := by simp [hbar]
  cases before with
  | nil =>
      simp only [List.nil_append, List.cons.injEq, true_and] at hline
      have hsame := (List.append_cons_inj_of_notMem hcaret List.not_mem_nil).mp hline
      exact hname (hsame.1 ▸ hhost)
  | cons b before =>
      have htail : [] ++ '|' :: (name ++ ['^']) = before ++ '|' :: '|' :: (found ++ '^' :: after) :=
        (List.cons.inj hline).2
      have hsame := (List.append_cons_inj_of_notMem List.not_mem_nil hnobar).mp htail
      exact hnobar (hsame.2.2 ▸ List.mem_cons_self)

theorem splitOnP_congr {p q : Char → Bool} (h : ∀ c ∈ text, p c = q c) :
    text.splitOnP p = text.splitOnP q := by
  induction text with
  | nil => rfl
  | cons c text ih =>
      obtain ⟨hc, hrest⟩ := List.forall_mem_cons.mp h
      rw [List.splitOnP_cons_eq_if_modifyHead, List.splitOnP_cons_eq_if_modifyHead, hc, ih hrest]

-- A host, but for underscores
def IsName (name : List Char) : Prop := ∀ c ∈ name, isHostChar c = true ∨ c = '_'

theorem isName_iff : IsName name ↔ name.all (fun c => isHostChar c || c == '_') = true := by
  simp [IsName]

theorem IsName.not_mem (h : IsName name) (hhost : isHostChar c = false) (hc : c ≠ '_') :
    c ∉ name := by
  intro hmem
  rcases h c hmem with hhost' | hunderscore
  · simp [hhost'] at hhost
  · exact hc hunderscore

theorem IsName.generic_eq (h : IsName name) :
    generic name = (name.splitOn '_').findSome? domainOfRun := by
  rw [generic, List.splitOn_eq_splitOnP, splitOnP_congr fun c hc => ?_]
  rcases h c hc with hhost | rfl
  · have hc : c ≠ '_' := by
      rintro rfl
      cases hhost
    simp [hhost, hc]
  · rfl

-- Of the parts between underscores the first with a label has the domain
theorem IsName.generic_eq_some (h : IsName name) : generic name = some part ↔
    ∃ before piece after i, name.splitOn '_' = before ++ piece :: after ∧
      (∀ other ∈ before, labels other = ∅) ∧ IsGreatest (labels piece) i ∧
      throughLabel piece i = part := by
  rw [h.generic_eq, List.findSome?_eq_some_iff]
  simp only [domainOfRun_eq_some, domainOfRun_eq_none]
  constructor
  · rintro ⟨before, piece, after, hsplit, ⟨i, hlast, hpart⟩, hnone⟩
    exact ⟨before, piece, after, i, hsplit, hnone, hlast, hpart⟩
  · rintro ⟨before, piece, after, i, hsplit, hnone, hlast, hpart⟩
    exact ⟨before, piece, after, hsplit, ⟨i, hlast, hpart⟩, hnone⟩

end Matcher

theorem Matcher.IsName.isBlank (h : Matcher.IsName name) : ∀ c ∈ name, isBlank c = false := by
  intro c hc
  rcases h c hc with hhost | rfl
  · exact Matcher.isBlank_of_isHostChar hhost
  · rfl

-- Neither a hosts file nor an anchor names a host here, and so only the generic matcher finds
-- anything

theorem domainsOfLine_address {address : List Char} (haddress : address ∈ Matcher.sinkAddresses)
    (hname : Matcher.IsName name) (hunderscore : '_' ∈ name) :
    host ∈ domainsOfLine Matcher.standard (address ++ ' ' :: name) ↔
      ∃ found, Matcher.generic name = some found ∧ normalize? found = some host := by
  have haddressHost := (Matcher.isHost_of_sinkAddress haddress).1
  have hnot : ∀ c, Matcher.isHostChar c = false → c ≠ ' ' → c ≠ '_' →
      c ∉ address ++ ' ' :: name := by
    intro c hhost hblank hc
    simp [haddressHost.not_mem hhost, hblank, hname.not_mem hhost hc]
  have htrim : trim (address ++ ' ' :: name) = address ++ ' ' :: name := by
    refine trim_of_begins haddressHost fun c hc => hname.isBlank c ?_
    rw [← List.singleton_append, ← List.append_assoc,
      List.getLast?_append_of_ne_nil _ (List.ne_nil_of_mem hunderscore)] at hc
    exact List.mem_of_mem_getLast? hc
  have hcounts : isSkipped (address ++ ' ' :: name) = false :=
    isSkipped_of_not_mem (by simp) (hnot _ rfl (by decide) (by decide))
      (hnot _ rfl (by decide) (by decide)) (hnot _ rfl (by decide) (by decide))
  have hgeneric : Matcher.generic (address ++ ' ' :: name) = Matcher.generic name := by
    rw [Matcher.generic_behind_address haddress (Matcher.startsOff_cons rfl),
      Matcher.generic_cons rfl]
  have hhosts : Matcher.hosts (address ++ ' ' :: name) = none :=
    Matcher.hosts_of_mem (c := '_') (by simp [hunderscore]) rfl rfl
  rw [mem_domainsOfLine_standard htrim hcounts, hhosts, hgeneric,
    Matcher.anchor_of_not_mem (hnot _ rfl (by decide) (by decide)),
    Matcher.cosmetic_of_not_mem (hnot _ rfl (by decide) (by decide))]
  simp

theorem domainsOfLine_around (hname : Matcher.IsName name) (hunderscore : '_' ∈ name) :
    host ∈ domainsOfLine Matcher.standard ('|' :: '|' :: (name ++ ['^'])) ↔
      ∃ found, Matcher.generic name = some found ∧ normalize? found = some host := by
  have hnot : ∀ c, Matcher.isHostChar c = false → c ≠ '|' → c ≠ '^' → c ≠ '_' →
      c ∉ '|' :: '|' :: (name ++ ['^']) := by
    intro c hhost hbar hcaret hc
    simp [hbar, hcaret, hname.not_mem hhost hc]
  have htrim : trim ('|' :: '|' :: (name ++ ['^'])) = '|' :: '|' :: (name ++ ['^']) := by
    refine trim_eq_self fun c hc => ?_
    simp only [List.mem_cons, List.mem_append, List.not_mem_nil, or_false] at hc
    rcases hc with rfl | rfl | hc | rfl
    · rfl
    · rfl
    · exact hname.isBlank c hc
    · rfl
  have hcounts : isSkipped ('|' :: '|' :: (name ++ ['^'])) = false :=
    isSkipped_of_not_mem (by simp) (hnot _ rfl (by decide) (by decide) (by decide))
      (hnot _ rfl (by decide) (by decide) (by decide))
      (hnot _ rfl (by decide) (by decide) (by decide))
  have hgeneric : Matcher.generic ('|' :: '|' :: (name ++ ['^'])) = Matcher.generic name := by
    rw [Matcher.generic_cons rfl, Matcher.generic_cons rfl,
      Matcher.generic_append_of_startsOff name Matcher.startsOff_caret, Matcher.generic_cons rfl,
      Matcher.generic_nil, Option.or_none]
  have hhosts : Matcher.hosts ('|' :: '|' :: (name ++ ['^'])) = none :=
    Matcher.hosts_of_mem (c := '|') (by simp) rfl rfl
  have hanchor : Matcher.anchor ('|' :: '|' :: (name ++ ['^'])) = none :=
    Matcher.anchor_around (hname.not_mem rfl (by decide)) (hname.not_mem rfl (by decide))
      fun h => h.not_mem rfl hunderscore
  rw [mem_domainsOfLine_standard htrim hcounts, hhosts, hanchor, hgeneric,
    Matcher.cosmetic_of_not_mem (hnot _ rfl (by decide) (by decide) (by decide))]
  simp

-- The lines in which a name is blocked, of a hosts file and as an anchor
def blockingLines (name : String) : List String :=
  ["0.0.0.0 " ++ name, "127.0.0.1 " ++ name, "||" ++ name ++ "^"]

theorem mem_extract_blockingLines {name line d : String} (hname : Matcher.IsName name.toList)
    (hunderscore : '_' ∈ name.toList) (hline : line ∈ blockingLines name) :
    d ∈ extract line ↔
      ∃ found, Matcher.generic name.toList = some found ∧ normalize? found = some d.toList := by
  have hend : '\n' ∉ name.toList := hname.not_mem rfl (by decide)
  simp only [blockingLines, List.mem_cons, List.not_mem_nil, or_false] at hline
  rw [extract, mem_extractWith]
  rcases hline with rfl | rfl | rfl
  · have hlist : ("0.0.0.0 " ++ name).toList = "0.0.0.0".toList ++ ' ' :: name.toList := by simp
    rw [hlist, yields_line (by simp [hend]), domainsOfLine_address (by decide) hname hunderscore]
  · have hlist : ("127.0.0.1 " ++ name).toList = "127.0.0.1".toList ++ ' ' :: name.toList := by
      simp
    rw [hlist, yields_line (by simp [hend]), domainsOfLine_address (by decide) hname hunderscore]
  · have hlist : ("||" ++ name ++ "^").toList = '|' :: '|' :: (name.toList ++ ['^']) := by simp
    rw [hlist, yields_line (by simp [hend]), domainsOfLine_around hname hunderscore]

-- A name with an underscore is blocked by no line, but the domain in one of its parts is: in
-- the first that looks like one.
theorem part_of_a_name_is_found (name : String) (hname : Matcher.IsName name.toList)
    (hunderscore : '_' ∈ name.toList) :
    ∀ line ∈ blockingLines name, ∀ d, d ∈ extract line ↔
      ∃ before piece after i, name.toList.splitOn '_' = before ++ piece :: after ∧
        (∀ other ∈ before, Matcher.labels other = ∅) ∧ IsGreatest (Matcher.labels piece) i ∧
        ¬ IsLocal piece ∧ (Matcher.throughLabel piece i).map Char.toLower = d.toList := by
  intro line hline d
  rw [mem_extract_blockingLines hname hunderscore hline]
  constructor
  · rintro ⟨found, hfound, hnormal⟩
    obtain ⟨hpublic, hsmall⟩ := (normalize?_of_generic hfound).mp hnormal
    obtain ⟨before, piece, after, i, hsplit, hnone, hlast, rfl⟩ := hname.generic_eq_some.mp hfound
    exact ⟨before, piece, after, i, hsplit, hnone, hlast,
      fun hlocal => hpublic ((isLocal_throughLabel hlast).mpr hlocal), hsmall⟩
  · rintro ⟨before, piece, after, i, hsplit, hnone, hlast, hpublic, hsmall⟩
    have hfound := hname.generic_eq_some.mpr ⟨before, piece, after, i, hsplit, hnone, hlast, rfl⟩
    refine ⟨_, hfound, (normalize?_of_generic hfound).mpr ⟨fun hlocal => ?_, hsmall⟩⟩
    exact hpublic ((isLocal_throughLabel hlast).mp hlocal)

-- A domain between two parts that have none
theorem part_of_a_name_is_found_between :
    Matcher.IsName "bad_Ads.example.com_x".toList ∧ '_' ∈ "bad_Ads.example.com_x".toList ∧
    "||bad_Ads.example.com_x^" ∈ blockingLines "bad_Ads.example.com_x" ∧
    "ads.example.com" ∈ extract "||bad_Ads.example.com_x^" := by
  have hname : Matcher.IsName "bad_Ads.example.com_x".toList := Matcher.isName_iff.mpr (by decide)
  have hline : "||bad_Ads.example.com_x^" ∈ blockingLines "bad_Ads.example.com_x" := by decide
  obtain ⟨i, hlast, hpart⟩ := Matcher.domainOfRun_eq_some.mp
    (show Matcher.domainOfRun "Ads.example.com".toList = some "Ads.example.com".toList by decide)
  have hpublic : ¬ IsLocal "Ads.example.com".toList := by
    unfold IsLocal
    decide
  have hnone : ∀ other ∈ ["bad".toList], Matcher.labels other = ∅ :=
    List.forall_mem_singleton.mpr (Matcher.domainOfRun_eq_none.mp (by decide))
  refine ⟨hname, by decide, hline, ?_⟩
  exact (part_of_a_name_is_found _ hname (by decide) _ hline _).mpr
    ⟨["bad".toList], _, ["x".toList], i, by decide, hnone, hlast, hpublic, by rw [hpart]; decide⟩

theorem not_every_name_with_underscore_is_dropped :
    ¬ ∀ name : String, Matcher.IsName name.toList → '_' ∈ name.toList →
      ∀ line ∈ blockingLines name, extract line = [] := by
  intro hclaim
  have hname : Matcher.IsName "bad_host.example.com".toList := Matcher.isName_iff.mpr (by decide)
  have hfound : "host.example.com" ∈ extract "0.0.0.0 bad_host.example.com" := by
    rw [extract, mem_extractWith, yields_line (by decide)]
    decide
  rw [hclaim "bad_host.example.com" hname (by decide) _ (by decide)] at hfound
  exact List.not_mem_nil hfound

end Blocklist.Domain
