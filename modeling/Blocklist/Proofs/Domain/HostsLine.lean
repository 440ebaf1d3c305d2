import Blocklist.Proofs.Domain.FixedPoint
-- Lines of hosts files, each of which names one host. The generic matcher searches the name as
-- well, and what looks like a domain at its start is found besides the name.
namespace Blocklist.Domain

open Blocklist.Text

variable {line text name part host : List Char} {c : Char}

namespace Matcher

-- The addresses of hosts files are hosts, but do not look like domains
theorem isHost_of_sinkAddress {address : List Char} (h : address ∈ sinkAddresses) :
    IsHost address ∧ domainOfRun address = none := by
  simp only [sinkAddresses, List.mem_cons, List.not_mem_nil, or_false] at h
  rcases h with rfl | rfl
  · exact ⟨⟨by decide, List.all_eq_true.mp (by decide)⟩, by decide⟩
  · exact ⟨⟨by decide, List.all_eq_true.mp (by decide)⟩, by decide⟩

theorem generic_behind_address {address : List Char} (h : address ∈ sinkAddresses)
    (htext : StartsOff text) : generic (address ++ text) = generic text := by
  obtain ⟨haddress, hnone⟩ := isHost_of_sinkAddress h
  rw [generic_append haddress.2 htext, hnone, Option.none_or]

-- A domain in a run begins it and has a dot
theorem domainOfRun_begins (h : domainOfRun name = some part) : part <+: name ∧ '.' ∈ part := by
  obtain ⟨i, hlast, rfl⟩ := domainOfRun_eq_some.mp h
  refine ⟨throughLabel_begins name i, List.mem_append_left _ ?_⟩
  exact List.mem_of_getElem? ((List.getElem?_take_of_lt i.lt_succ_self).trans hlast.1.2.1)

-- A name that ends in a label of letters is found whole

theorem throughLastLabel_append {found : List Char} (h : throughLastLabel text = some found)
    (front : List Char) : throughLastLabel (front ++ text) = some (front ++ found) := by
  induction front with
  | nil => exact h
  | cons c front ih => rw [List.cons_append, throughLastLabel, ih, List.cons_append]

theorem throughLastLabel_of_label {label : List Char} (htwo : 2 ≤ label.length)
    (hletters : ∀ c ∈ label, c.isAlpha = true) :
    throughLastLabel ('.' :: label) = some ('.' :: label) := by
  have hwhole : label.takeWhile Char.isAlpha = label := List.takeWhile_eq_self_iff.mpr hletters
  simp [throughLastLabel, throughLastLabel_of_letters hletters, hwhole, htwo]

theorem domainOfRun_of_label {front label : List Char} (hfront : front ≠ [])
    (htwo : 2 ≤ label.length) (hletters : ∀ c ∈ label, c.isAlpha = true) :
    domainOfRun (front ++ '.' :: label) = some (front ++ '.' :: label) := by
  obtain ⟨c, front, rfl⟩ := List.exists_cons_of_ne_nil hfront
  have hfound := throughLastLabel_append (throughLastLabel_of_label htwo hletters) front
  rw [List.cons_append, domainOfRun, hfound, Option.map_some]

end Matcher

-- Names of the local host, in whatever case
def IsLocal (name : List Char) : Prop := "localhost".toList <+: name.map Char.toLower

theorem normalize?_of_isHost (h : Matcher.IsHost name) :
    normalize? name = some host ↔ ¬ IsLocal name ∧ name.map Char.toLower = host := by
  have hunderscore : '_' ∉ name.map Char.toLower := h.map_toLower.not_mem rfl
  rw [normalize?_eq_some, h.lowerCase, IsLocal]
  constructor
  · rintro ⟨rfl, hlocal, -⟩
    exact ⟨hlocal, rfl⟩
  · rintro ⟨hlocal, rfl⟩
    exact ⟨rfl, hlocal, hunderscore⟩

theorem normalize?_of_generic (h : Matcher.generic line = some name) :
    normalize? name = some host ↔ ¬ IsLocal name ∧ name.map Char.toLower = host :=
  normalize?_of_isHost (Matcher.generic_findsHosts line name h).1

-- The local host has no dot in its name, so it is told by what stands before the first
theorem isLocal_iff_of_begins (hbegins : part <+: name) (hdot : '.' ∈ part) :
    IsLocal part ↔ IsLocal name := by
  have hsmall : part.map Char.toLower <+: name.map Char.toLower := hbegins.map _
  constructor
  · intro h
    exact h.trans hsmall
  · intro h
    rcases List.prefix_or_prefix_of_prefix h hsmall with hlocal | hshort
    · exact hlocal
    · have hmem : '.' ∈ part.map Char.toLower := List.mem_map.mpr ⟨'.', hdot, rfl⟩
      exact absurd (hshort.subset hmem) (by decide)

theorem isLocal_throughLabel {i : Nat} (h : IsGreatest (Matcher.labels name) i) :
    IsLocal (Matcher.throughLabel name i) ↔ IsLocal name := by
  obtain ⟨hbegins, hdot⟩ := Matcher.domainOfRun_begins (Matcher.domainOfRun_eq_some.mpr ⟨i, h, rfl⟩)
  exact isLocal_iff_of_begins hbegins hdot

theorem isLocal_generic (hname : Matcher.IsHost name) (h : Matcher.generic name = some part) :
    IsLocal part ↔ IsLocal name := by
  rw [Matcher.generic_of_isHost hname] at h
  obtain ⟨hbegins, hdot⟩ := Matcher.domainOfRun_begins h
  exact isLocal_iff_of_begins hbegins hdot

theorem mem_domainsOfLine_standard (htrim : trim line = line) (hcounts : isSkipped line = false) :
    host ∈ domainsOfLine Matcher.standard line ↔
      (∃ name, Matcher.hosts line = some name ∧ normalize? name = some host) ∨
      (∃ name, Matcher.anchor line = some name ∧ normalize? name = some host) ∨
      (∃ name, Matcher.cosmetic line = some name ∧ normalize? name = some host) ∨
      ∃ name, Matcher.generic line = some name ∧ normalize? name = some host := by
  simp [mem_domainsOfLine, htrim, hcounts, Matcher.standard]

-- A line that begins with a host and ends with no blank is left as it is by trimming
theorem trim_of_begins {first rest : List Char} (hfirst : Matcher.IsHost first)
    (hlast : ∀ c ∈ (first ++ rest).getLast?, isBlank c = false) :
    trim (first ++ rest) = first ++ rest := by
  refine trim_eq_self_of_ends (fun c hc => ?_) hlast
  rw [List.head?_append_of_ne_nil _ hfirst.1] at hc
  exact Matcher.isBlank_of_isHostChar (hfirst.2 c (List.mem_of_mem_head? hc))

-- Lines of hosts files

-- There is nothing but blanks and host characters in them
theorem not_mem_of_hosts (h : Matcher.hosts line = some name) (hblank : isBlank c = false)
    (hhost : Matcher.isHostChar c = false) : c ∉ line := by
  obtain ⟨address, blanks, haddress, -, hblanks, hname, rfl⟩ := Matcher.hosts_eq_some.mp h
  intro hc
  rw [List.mem_append, List.mem_append] at hc
  rcases hc with hc | hc | hc
  · exact (Matcher.isHost_of_sinkAddress haddress).1.not_mem hhost hc
  · simp [hblanks c hc] at hblank
  · exact hname.not_mem hhost hc

theorem Matcher.hosts_of_mem (hc : c ∈ line) (hblank : isBlank c = false)
    (hhost : Matcher.isHostChar c = false) : Matcher.hosts line = none := by
  refine Option.eq_none_iff_forall_ne_some.mpr fun found hfound => ?_
  exact not_mem_of_hosts hfound hblank hhost hc

theorem trim_of_hosts (h : Matcher.hosts line = some name) : trim line = line := by
  obtain ⟨address, blanks, haddress, -, -, hname, rfl⟩ := Matcher.hosts_eq_some.mp h
  refine trim_of_begins (Matcher.isHost_of_sinkAddress haddress).1 fun c hc => ?_
  rw [← List.append_assoc, List.getLast?_append_of_ne_nil _ hname.1] at hc
  exact Matcher.isBlank_of_isHostChar (hname.2 c (List.mem_of_mem_getLast? hc))

theorem isSkipped_of_hosts (h : Matcher.hosts line = some name) : isSkipped line = false := by
  refine isSkipped_of_not_mem ?_ (not_mem_of_hosts h rfl rfl) (not_mem_of_hosts h rfl rfl)
    (not_mem_of_hosts h rfl rfl)
  rintro rfl
  cases h

-- The address is passed over, and the name is searched as if it stood alone
theorem generic_of_hosts (h : Matcher.hosts line = some name) :
    Matcher.generic line = Matcher.generic name := by
  obtain ⟨address, blanks, haddress, hne, hblanks, -, rfl⟩ := Matcher.hosts_eq_some.mp h
  have hoff : ∀ c ∈ blanks, Matcher.isHostChar c = false :=
    fun c hc => Matcher.isHostChar_of_isBlank (hblanks c hc)
  have hstart : Matcher.StartsOff (blanks ++ name) := by
    intro c hc
    rw [List.head?_append_of_ne_nil _ hne] at hc
    exact hoff c (List.mem_of_mem_head? hc)
  rw [Matcher.generic_behind_address haddress hstart, Matcher.generic_skip hoff]

theorem domainsOfLine_hosts (h : Matcher.hosts line = some name) :
    host ∈ domainsOfLine Matcher.standard line ↔ ¬ IsLocal name ∧
      (name.map Char.toLower = host ∨
        ∃ part, Matcher.generic name = some part ∧ part.map Char.toLower = host) := by
  have hname : Matcher.IsHost name := (Matcher.hosts_findsHosts line name h).1
  rw [mem_domainsOfLine_standard (trim_of_hosts h) (isSkipped_of_hosts h), h,
    Matcher.anchor_of_not_mem (not_mem_of_hosts h rfl rfl),
    Matcher.cosmetic_of_not_mem (not_mem_of_hosts h rfl rfl), generic_of_hosts h]
  simp only [Option.some.injEq, reduceCtorEq, false_and, exists_false, false_or, exists_eq_left',
    normalize?_of_isHost hname, and_or_left]
  refine or_congr_right ?_
  constructor
  · rintro ⟨part, hfound, hnormal⟩
    obtain ⟨hpublic, hsmall⟩ := (normalize?_of_generic hfound).mp hnormal
    exact ⟨fun hlocal => hpublic ((isLocal_generic hname hfound).mpr hlocal), part, hfound, hsmall⟩
  · rintro ⟨hpublic, part, hfound, hsmall⟩
    refine ⟨part, hfound, (normalize?_of_generic hfound).mpr ⟨fun hlocal => ?_, hsmall⟩⟩
    exact hpublic ((isLocal_generic hname hfound).mp hlocal)

-- A line of a hosts file has the host that it names, and besides it what the generic matcher
-- finds in this name. That is nothing else at least for names that end in a label of letters.
theorem hosts_line_has_its_host (line : String) (name : List Char) (hline : '\n' ∉ line.toList)
    (h : Matcher.hosts line.toList = some name) :
    (∀ d, d ∈ extract line ↔ ¬ IsLocal name ∧
      (name.map Char.toLower = d.toList ∨
        ∃ part, Matcher.generic name = some part ∧ part.map Char.toLower = d.toList)) ∧
    (∀ part, Matcher.generic name = some part → part <+: name) ∧
    ((∀ d, d ∈ extract line ↔ ¬ IsLocal name ∧ name.map Char.toLower = d.toList) ↔
      (IsLocal name ∨ ∀ part, Matcher.generic name = some part → part = name)) ∧
    (∀ front label, name = front ++ '.' :: label → front ≠ [] → 2 ≤ label.length →
      (∀ c ∈ label, c.isAlpha = true) → Matcher.generic name = some name) := by
  have hname : Matcher.IsHost name := (Matcher.hosts_findsHosts line.toList name h).1
  have hextract : ∀ d, d ∈ extract line ↔ ¬ IsLocal name ∧
      (name.map Char.toLower = d.toList ∨
        ∃ part, Matcher.generic name = some part ∧ part.map Char.toLower = d.toList) := by
    intro d
    rw [extract, mem_extractWith, yields_line hline, domainsOfLine_hosts h]
  have hbegins : ∀ part, Matcher.generic name = some part → part <+: name := by
    intro part hfound
    rw [Matcher.generic_of_isHost hname] at hfound
    exact (Matcher.domainOfRun_begins hfound).1
  refine ⟨hextract, hbegins, ⟨fun hclaim => ?_, fun hwhole d => ?_⟩, ?_⟩
  · by_cases hlocal : IsLocal name
    · exact .inl hlocal
    · refine .inr fun part hfound => ?_
      have hmem : String.ofList (part.map Char.toLower) ∈ extract line :=
        (hextract _).mpr ⟨hlocal, .inr ⟨part, hfound, String.toList_ofList.symm⟩⟩
      have hsame := congrArg List.length ((hclaim _).mp hmem).2
      rw [String.toList_ofList, List.length_map, List.length_map] at hsame
      exact (hbegins part hfound).eq_of_length hsame.symm
  · rw [hextract]
    refine and_congr_right fun hpublic => or_iff_left_of_imp ?_
    rintro ⟨part, hfound, hd⟩
    rwa [hwhole.resolve_left hpublic part hfound] at hd
  · rintro front label rfl hfront htwo hletters
    rw [Matcher.generic_of_isHost hname, Matcher.domainOfRun_of_label hfront htwo hletters]

-- A host in capitals with a dot at its end
theorem hosts_line_has_its_host_dotted :
    '\n' ∉ "127.0.0.1\tAds.Example.COM.".toList ∧
    Matcher.hosts "127.0.0.1\tAds.Example.COM.".toList = some "Ads.Example.COM.".toList ∧
    "ads.example.com." ∈ extract "127.0.0.1\tAds.Example.COM." ∧
    "ads.example.com" ∈ extract "127.0.0.1\tAds.Example.COM." := by
  have hline : '\n' ∉ "127.0.0.1\tAds.Example.COM.".toList := by decide
  have hhosts : Matcher.hosts "127.0.0.1\tAds.Example.COM.".toList =
      some "Ads.Example.COM.".toList := by decide
  have hpublic : ¬ IsLocal "Ads.Example.COM.".toList := by
    unfold IsLocal
    decide
  have hfound : Matcher.generic "Ads.Example.COM.".toList = some "Ads.Example.COM".toList := by
    decide
  obtain ⟨hextract, -⟩ := hosts_line_has_its_host _ _ hline hhosts
  refine ⟨hline, hhosts, (hextract _).mpr ⟨hpublic, .inl (by decide)⟩, (hextract _).mpr ?_⟩
  exact ⟨hpublic, .inr ⟨_, hfound, by decide⟩⟩

-- The matchers do not wait for one another. A host may be written with a dot at its end, and the
-- domain before this dot is found as well.
theorem not_every_hosts_line_has_only_its_host :
    ¬ ∀ (line : String) (name : List Char), '\n' ∉ line.toList →
      Matcher.hosts line.toList = some name →
      ∀ d, d ∈ extract line ↔ ¬ IsLocal name ∧ name.map Char.toLower = d.toList := by
  intro hclaim
  have hfound : "ads.example.com" ∈ extract "0.0.0.0 ads.example.com." := by
    rw [extract, mem_extractWith, yields_line (by decide)]
    decide
  have hsame := ((hclaim "0.0.0.0 ads.example.com." "ads.example.com.".toList (by decide)
    (by decide) _).mp hfound).2
  exact absurd hsame (by decide)

end Blocklist.Domain
