import Blocklist.Domain.Collector
import Blocklist.Proofs.Domain.Sound
-- The case of ASCII letters makes no difference: each matcher finds the same place in a line
-- that is written in small letters, and what it finds there has the same normal form.
namespace Blocklist

open Text

namespace Domain

variable {line text host : List Char}

namespace Matcher

theorem isHostChar_toLower (c : Char) : isHostChar c.toLower = isHostChar c := by
  simp only [isHostChar, Char.isAlphanum, Char.isAlpha_toLower_eq_isAlpha, isDigit_toLower,
    toLower_beq (show '.'.isAlpha = false from rfl),
    toLower_beq (show '-'.isAlpha = false from rfl)]

theorem isHostChar_comp_toLower : isHostChar ∘ Char.toLower = isHostChar :=
  funext isHostChar_toLower

-- In small letters the matcher finds the same, in small letters
def IgnoresCase (find : Matcher) : Prop :=
  ∀ line, find (line.map Char.toLower) = (find line).map (·.map Char.toLower)

theorem hostSpan_map_toLower (text : List Char) : hostSpan (text.map Char.toLower) =
    ((hostSpan text).1.map Char.toLower, (hostSpan text).2.map Char.toLower) := by
  simp only [hostSpan, List.takeWhile_map, List.dropWhile_map, isHostChar_comp_toLower]

theorem hostAfterAddress_map_toLower (rest : List Char) :
    hostAfterAddress (rest.map Char.toLower) =
      (hostAfterAddress rest).map (·.map Char.toLower) := by
  simp only [hostAfterAddress, List.dropWhile_map, isBlank_comp_toLower, List.length_map,
    List.isEmpty_map, List.all_map, isHostChar_comp_toLower, apply_ite (Option.map _),
    Option.map_some, Option.map_none]

theorem hosts_ignoresCase : IgnoresCase hosts := by
  intro line
  have hnowhere := isPrefixOf?_map_toLower "0.0.0.0".toList (by simp) line
  have hloopback := isPrefixOf?_map_toLower "127.0.0.1".toList (by simp) line
  simp only [hosts, sinkAddresses, List.findSome?_cons, List.findSome?_nil, hnowhere, hloopback]
  cases "0.0.0.0".toList.isPrefixOf? line with
  | some rest => exact hostAfterAddress_map_toLower rest
  | none =>
      cases "127.0.0.1".toList.isPrefixOf? line with
      | some rest => exact hostAfterAddress_map_toLower rest
      | none => rfl

theorem anchorHere_map_toLower (text : List Char) :
    anchorHere (text.map Char.toLower) = (anchorHere text).map (·.map Char.toLower) := by
  simp only [anchorHere, isPrefixOf?_map_toLower ['|', '|'] (by simp)]
  cases ['|', '|'].isPrefixOf? text with
  | none => rfl
  | some rest =>
      have hcaret := head?_map_toLower_beq (show '^'.isAlpha = false from rfl) (hostSpan rest).2
      simp only [Option.map_some, Option.bind_eq_bind, Option.bind_some, hostSpan_map_toLower,
        List.isEmpty_map, hcaret, apply_ite (Option.map _), Option.map_none]

theorem anchor_ignoresCase : IgnoresCase anchor := by
  intro line
  induction line with
  | nil => rfl
  | cons c text ih =>
      have hhere := anchorHere_map_toLower (c :: text)
      rw [List.map_cons] at hhere ⊢
      rw [anchor, anchor, hhere, ih]
      cases anchorHere (c :: text) <;> rfl

theorem cosmetic_ignoresCase : IgnoresCase cosmetic := by
  intro line
  simp only [cosmetic, hostSpan_map_toLower,
    isPrefixOf?_map_toLower ['#', '#', '#'] (by simp)]
  cases ['#', '#', '#'].isPrefixOf? (hostSpan line).2 with
  | none => rfl
  | some rest =>
      cases rest with
      | nil => rfl
      | cons c rest =>
          have hhash : (c.toLower != '#') = (c != '#') := congrArg (!·) (toLower_beq (by rfl) c)
          simp only [Option.map_some, Option.bind_eq_bind, Option.bind_some, List.map_cons,
            List.head?_cons, List.isEmpty_map, hhash, apply_ite (Option.map _), Option.map_none]

theorem throughLastLabel_map_toLower (text : List Char) :
    throughLastLabel (text.map Char.toLower) =
      (throughLastLabel text).map (·.map Char.toLower) := by
  induction text with
  | nil => rfl
  | cons c text ih =>
      rw [List.map_cons, throughLastLabel, throughLastLabel, ih, toLower_beq (by rfl),
        List.takeWhile_map, isAlpha_comp_toLower]
      cases throughLastLabel text with
      | some found => rfl
      | none =>
          simp only [Option.map_none, List.length_map]
          split
          · split
            · rfl
            · rfl
          · rfl

theorem domainOfRun_map_toLower (run : List Char) :
    domainOfRun (run.map Char.toLower) = (domainOfRun run).map (·.map Char.toLower) := by
  cases run with
  | nil => rfl
  | cons c run =>
      rw [List.map_cons, domainOfRun, domainOfRun, throughLastLabel_map_toLower]
      cases throughLastLabel run <;> rfl

theorem generic_ignoresCase : IgnoresCase generic := by
  intro line
  rw [generic, generic, splitOnP_map_toLower fun c => by rw [isHostChar_toLower],
    List.findSome?_map, List.map_findSome?]
  exact congrArg (List.findSome? · _) (funext domainOfRun_map_toLower)

theorem ignoresCase_of_mem_standard {find : Matcher} (h : find ∈ standard) : IgnoresCase find := by
  simp only [standard, List.mem_cons, List.not_mem_nil, or_false] at h
  rcases h with rfl | rfl | rfl | rfl
  · exact hosts_ignoresCase
  · exact anchor_ignoresCase
  · exact cosmetic_ignoresCase
  · exact generic_ignoresCase

theorem IsHost.map_toLower (h : IsHost host) : IsHost (host.map Char.toLower) := by
  refine ⟨fun hnil => h.1 (List.map_eq_nil_iff.mp hnil), fun c hc => ?_⟩
  obtain ⟨big, hbig, rfl⟩ := List.mem_map.mp hc
  exact (isHostChar_toLower big).trans (h.2 big hbig)

end Matcher

theorem isSkipped_map_toLower (line : List Char) :
    isSkipped (line.map Char.toLower) = isSkipped line := by
  simp only [isSkipped, skippedStarts, List.isEmpty_map, List.any_cons, List.any_nil,
    isPrefixOf_map_toLower ['#'] (by simp),
    isPrefixOf_map_toLower ['!'] (by simp),
    isPrefixOf_map_toLower ['@', '@'] (by simp)]

theorem normalize?_map_toLower (h : Matcher.IsHost host) :
    normalize? (host.map Char.toLower) = normalize? host := by
  have hsmall : lowerCase (host.map Char.toLower) = lowerCase host := by
    rw [h.map_toLower.lowerCase, h.lowerCase, List.map_map]
    exact List.map_congr_left fun c _ => Char.toLower_toLower_eq_toLower c
  rw [normalize?, normalize?, hsmall]

theorem domainsOfLine_map_toLower (line : List Char) :
    domainsOfLine Matcher.standard (line.map Char.toLower) =
      domainsOfLine Matcher.standard line := by
  rw [domainsOfLine, domainsOfLine, trim_map_toLower, isSkipped_map_toLower]
  split
  · rfl
  · refine List.filterMap_congr fun find hfind => ?_
    rw [Matcher.ignoresCase_of_mem_standard hfind]
    cases hfound : find (trim line) with
    | none => rfl
    | some host =>
        exact normalize?_map_toLower (Matcher.findsHosts_of_mem_standard hfind _ _ hfound).1

theorem yields_map_toLower : Yields Matcher.standard (text.map Char.toLower) host ↔
    Yields Matcher.standard text host := by
  simp only [Yields, splitOn_map_toLower (show '\n'.isAlpha = false from rfl), List.mem_map,
    exists_exists_and_eq_and, domainsOfLine_map_toLower]

theorem extract_empty : extract "" = [] :=
  List.eq_nil_iff_forall_not_mem.mpr fun _ h => not_yields_nil (mem_extractWith.mp h)

end Domain

open Domain

theorem Collector.domainsOf_ok (url text : String) : domainsOf ⟨url, .ok text⟩ = extract text := by
  by_cases hempty : text = ""
  · rw [hempty, extract_empty]
    rfl
  · simp [domainsOf, Outcome.text?, hempty]

-- Texts that differ in the case of ASCII letters only have the same domains, and leave a
-- collector in the same state
theorem Domain.letter_case_makes_no_difference {text text' : String}
    (h : text.toList.map Char.toLower = text'.toList.map Char.toLower) :
    extract text = extract text' ∧
    ∀ (c : Collector) (url url' : String), c.add ⟨url, .ok text⟩ = c.add ⟨url', .ok text'⟩ := by
  have hextract : extract text = extract text' := extractWith_congr fun host => by
    rw [← yields_map_toLower, h, yields_map_toLower]
  refine ⟨hextract, fun c url url' => ?_⟩
  rw [Collector.add, Collector.add, Collector.domainsOf_ok, Collector.domainsOf_ok, hextract]

theorem Domain.letter_case_makes_no_difference_local :
    "127.0.0.1 LocalHost\n||ADS.Example.com^".toList.map Char.toLower =
      "127.0.0.1 localhost\n||ads.eXample.COM^".toList.map Char.toLower ∧
    extract "127.0.0.1 LocalHost\n||ADS.Example.com^" =
      extract "127.0.0.1 localhost\n||ads.eXample.COM^" ∧
    (Collector.empty 5).add ⟨"/a", .ok "127.0.0.1 LocalHost\n||ADS.Example.com^"⟩ =
      (Collector.empty 5).add ⟨"/b", .ok "127.0.0.1 localhost\n||ads.eXample.COM^"⟩ := by
  have hsame : "127.0.0.1 LocalHost\n||ADS.Example.com^".toList.map Char.toLower =
      "127.0.0.1 localhost\n||ads.eXample.COM^".toList.map Char.toLower := by decide
  obtain ⟨hextract, hadd⟩ := letter_case_makes_no_difference hsame
  exact ⟨hsame, hextract, hadd _ _ _⟩

end Blocklist
