import Blocklist.Proofs.Domain.LetterCase
-- Domains of the generic matcher, one on a line, are a filter list themselves: what is
-- extracted from it are these domains.
namespace Blocklist.Domain

open Blocklist.Text

variable {line text host written : List Char}

namespace Matcher

-- What has been found is found again, whole, where it stands alone

theorem throughLastLabel_of_letters (h : ∀ c ∈ text, c.isAlpha = true) :
    throughLastLabel text = none := by
  induction text with
  | nil => rfl
  | cons c text ih =>
      obtain ⟨hc, hrest⟩ := List.forall_mem_cons.mp h
      have hdot : (c == '.') = false := by
        rw [beq_eq_false_iff_ne]
        rintro rfl
        simp at hc
      simp [throughLastLabel, ih hrest, hdot]

theorem throughLastLabel_of_found {found : List Char} (h : throughLastLabel text = some found) :
    throughLastLabel found = some found := by
  induction text generalizing found with
  | nil => cases h
  | cons c text ih =>
      rw [throughLastLabel] at h
      cases hrest : throughLastLabel text with
      | some later =>
          rw [hrest] at h
          obtain rfl := Option.some.inj h
          rw [throughLastLabel, ih hrest]
      | none =>
          -- the last label begins here, and in its letters there is no dot
          simp only [hrest, Option.ite_none_right_eq_some, Option.some.injEq] at h
          obtain ⟨-, hlong, rfl⟩ := h
          have hletters : ∀ c ∈ text.takeWhile Char.isAlpha, c.isAlpha = true :=
            fun c => List.mem_takeWhile_imp
          have hlabel : (text.takeWhile Char.isAlpha).takeWhile Char.isAlpha =
              text.takeWhile Char.isAlpha := List.takeWhile_idem
          simp [throughLastLabel, throughLastLabel_of_letters hletters, hlabel, hlong]

theorem domainOfRun_of_found {run : List Char} (h : domainOfRun run = some host) :
    domainOfRun host = some host := by
  cases run with
  | nil => cases h
  | cons c run =>
      obtain ⟨found, hfound, rfl⟩ := Option.map_eq_some_iff.mp h
      rw [domainOfRun, throughLastLabel_of_found hfound, Option.map_some]

theorem generic_of_found (h : generic line = some host) : generic host = some host := by
  obtain ⟨run, -, hrun⟩ := List.exists_of_findSome?_eq_some h
  rw [generic_of_isHost (generic_findsHosts line host h).1, domainOfRun_of_found hrun]

-- The other matchers look for signs and blanks

theorem IsHost.not_mem (h : IsHost host) {c : Char} (hc : isHostChar c = false) : c ∉ host :=
  fun hmem => by simp [h.2 c hmem] at hc

theorem hosts_of_isHost (h : IsHost host) : hosts host = none := by
  refine Option.eq_none_iff_forall_ne_some.mpr fun found hfound => ?_
  obtain ⟨address, blanks, -, hblanks, hall, -, rfl⟩ := hosts_eq_some.mp hfound
  obtain ⟨c, rest, rfl⟩ := List.exists_cons_of_ne_nil hblanks
  have hc := isBlank_of_isHostChar (h.2 c (by simp))
  simp [hall c List.mem_cons_self] at hc

end Matcher

theorem trim_of_isHost (h : Matcher.IsHost host) : trim host = host :=
  trim_eq_self fun c hc => Matcher.isBlank_of_isHostChar (h.2 c hc)

-- A line that is a domain of the generic matcher has this domain and no other
theorem domainsOfLine_of_found (hfound : Matcher.generic line = some written)
    (hnormal : normalize? written = some host) :
    domainsOfLine Matcher.standard host = [host] := by
  have hwritten := (Matcher.generic_findsHosts line written hfound).1
  obtain rfl := map_toLower_of_normalize? hwritten hnormal
  have hhost := hwritten.map_toLower
  have hagain : Matcher.generic (written.map Char.toLower) = some (written.map Char.toLower) := by
    rw [Matcher.generic_ignoresCase, Matcher.generic_of_found hfound, Option.map_some]
  have hkept : normalize? (written.map Char.toLower) = some (written.map Char.toLower) :=
    (normalize?_map_toLower hwritten).trans hnormal
  have hcounts : isSkipped (written.map Char.toLower) = false :=
    isSkipped_of_not_mem hhost.1 (hhost.not_mem rfl) (hhost.not_mem rfl) (hhost.not_mem rfl)
  rw [domainsOfLine, trim_of_isHost hhost, hcounts]
  simp [Matcher.standard, Matcher.hosts_of_isHost hhost,
    Matcher.anchor_of_not_mem (hhost.not_mem rfl), Matcher.cosmetic_of_not_mem (hhost.not_mem rfl),
    hagain, hkept]

theorem yields_of_found {d : List Char} (h : Yields [Matcher.generic] text d) :
    Yields Matcher.standard d host ↔ host = d := by
  obtain ⟨line, -, hd⟩ := h
  obtain ⟨-, find, hfind, written, hfound, hnormal⟩ := mem_domainsOfLine.mp hd
  obtain rfl := List.mem_singleton.mp hfind
  have hwritten := (Matcher.generic_findsHosts _ _ hfound).1
  have hline : '\n' ∉ d := by
    rw [← map_toLower_of_normalize? hwritten hnormal]
    exact hwritten.map_toLower.not_mem rfl
  rw [yields_line hline, domainsOfLine_of_found hfound hnormal, List.mem_singleton]

-- In whatever order the domains are written down
theorem generic_domains_come_back {text : String} {lines : List String}
    (h : lines.Perm (extractWith [Matcher.generic] text)) :
    extract ("\n".intercalate lines) = extractWith [Matcher.generic] text := by
  have hlines : ∀ line, line ∈ lines ↔ Yields [Matcher.generic] text.toList line.toList :=
    fun line => h.mem_iff.trans mem_extractWith
  refine extractWith_congr fun host => ?_
  rw [yields_intercalate]
  constructor
  · rintro ⟨line, hline, hhost⟩
    have hfound := (hlines line).mp hline
    rwa [(yields_of_found hfound).mp hhost]
  · intro hhost
    have hline : Yields [Matcher.generic] text.toList (String.ofList host).toList := by
      rwa [String.toList_ofList]
    refine ⟨String.ofList host, (hlines _).mpr hline, ?_⟩
    rw [yields_of_found hline, String.toList_ofList]

-- Two domains in a text of no notation, the first in capitals
def mention : String := "see https://CDN.Example.net/x\nand b.org"

theorem extractWith_mention :
    extractWith [Matcher.generic] mention = ["b.org", "cdn.example.net"] := by
  have hfound : ((mention.toList.splitOn '\n').flatMap (domainsOfLine [Matcher.generic])).map
      String.ofList = ["cdn.example.net", "b.org"] := by decide
  have hascending : ["b.org", "cdn.example.net"].Pairwise (· < ·) := by decide
  rw [extractWith, hfound]
  exact ascending_eq hascending (by decide) (by decide)

theorem generic_domains_come_back_mention :
    ["cdn.example.net", "b.org"].Perm (extractWith [Matcher.generic] mention) ∧
    extract "cdn.example.net\nb.org" = ["b.org", "cdn.example.net"] := by
  have hperm : ["cdn.example.net", "b.org"].Perm (extractWith [Matcher.generic] mention) := by
    rw [extractWith_mention]
    exact .swap _ _ _
  have hback := generic_domains_come_back hperm
  rw [extractWith_mention] at hback
  exact ⟨hperm, hback⟩

end Blocklist.Domain
