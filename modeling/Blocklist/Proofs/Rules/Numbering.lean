import Blocklist.Proofs.Domain.Stream
import Blocklist.Proofs.Rules.Build
import Mathlib.Algebra.Ring.Nat
-- Which identifiers the rules have: they are counted up without a gap, and the counter
-- stays within 32 bits. So rules are told apart by them, and also by their domains if
-- these were collected.
namespace Blocklist.Rule

open Text Collector

variable {domains : List String} {rules : List Rule} {i : Nat} {r : Rule}

-- Rules for these domains in order, numbered from the first identifier on. When all have
-- theirs, the counter still holds a number of 32 bits.
structure Numbers (domains : List String) (rules : List Rule) : Prop where
  filters : rules.map (fun r => r.condition.urlFilter) = domains
  ids : rules.map (fun r => r.id.toNat) = List.range' firstId domains.length
  room : firstId + domains.length < bound32

theorem numbers_of_build? (h : build? domains = some rules) : Numbers domains rules := by
  rw [build?_eq] at h
  split at h
  case isFalse => cases h
  case isTrue hroom =>
    cases h
    refine ⟨?_, ?_, by omega⟩
    · apply List.ext_getElem <;> simp [block]
    · refine List.ext_getElem (by simp) fun i hi _ => ?_
      -- no identifier is cut to 32 bits, for it is not beyond the counter
      have hless : firstId + i < UInt32.size := by
        have hsize : UInt32.size = bound32 := rfl
        simp only [List.length_map, List.length_mapIdx] at hi
        omega
      simpa [block] using UInt32.toNat_ofNat_of_lt' hless

theorem Numbers.length (h : Numbers domains rules) : rules.length = domains.length := by
  rw [← h.filters, List.length_map]

theorem Numbers.id_toNat (h : Numbers domains rules) (hr : rules[i]? = some r) :
    r.id.toNat = firstId + i := by
  have hi : i < domains.length := h.length ▸ (List.getElem?_eq_some_iff.mp hr).1
  have hsame := congrArg (·[i]?) h.ids
  simpa [hr, hi] using hsame

theorem Numbers.urlFilter (h : Numbers domains rules) (hr : rules[i]? = some r) :
    domains[i]? = some r.condition.urlFilter := by
  rw [← h.filters, List.getElem?_map, hr, Option.map_some]

-- No number is twice in a range
theorem Numbers.pairwise_id (h : Numbers domains rules) :
    rules.Pairwise fun r s => r.id ≠ s.id := by
  have hnodup : (rules.map fun r => r.id.toNat).Nodup := h.ids ▸ List.nodup_range'
  exact (List.pairwise_map.mp hnodup).imp fun hne hsame => hne (congrArg UInt32.toNat hsame)

theorem Numbers.pairwise_urlFilter (h : Numbers domains rules) (hnodup : domains.Nodup) :
    rules.Pairwise fun r s => r.condition.urlFilter ≠ s.condition.urlFilter :=
  List.pairwise_map.mp (h.filters ▸ hnodup)

-- The rules for what was collected differ in identifier and in domain. For any domains
-- there is one rule each if there are rules at all, and there are until the identifiers
-- run out.
theorem collected_domains_are_numbered (limit : Nat) (outcomes : List Outcome) :
    (∀ rules, build? (collect limit outcomes).1 = some rules →
      rules.map (fun r => r.id.toNat) = List.range' 2000 (collect limit outcomes).1.length ∧
      rules.map (fun r => r.condition.urlFilter) = (collect limit outcomes).1 ∧
      rules.Pairwise (fun r s => r.id ≠ s.id) ∧
      rules.Pairwise fun r s => r.condition.urlFilter ≠ s.condition.urlFilter) ∧
    (∀ domains rules, build? domains = some rules →
      2000 + domains.length < 2 ^ 32 ∧ rules.length = domains.length ∧
      ∀ i r, rules[i]? = some r →
        r.id.toNat = 2000 + i ∧ domains[i]? = some r.condition.urlFilter) ∧
    ∀ domains : List String, domains.length ≤ 2 ^ 32 - 2002 →
      ∃ rules, build? domains = some rules := by
  refine ⟨fun rules hrules => ?_, fun domains rules hrules => ?_, fun domains hlength => ?_⟩
  · have hnumbers := numbers_of_build? hrules
    exact ⟨hnumbers.ids, hnumbers.filters, hnumbers.pairwise_id,
      hnumbers.pairwise_urlFilter (nodup_collect limit outcomes)⟩
  · have hnumbers := numbers_of_build? hrules
    exact ⟨hnumbers.room, hnumbers.length, fun i r hr =>
      ⟨hnumbers.id_toNat hr, hnumbers.urlFilter hr⟩⟩
  · have hroom : firstId + domains.length + 1 < bound32 := by
      simp only [firstId, bound32]
      omega
    exact exists_build? hroom

-- Two lists that share a domain, with one between them that could not be had
def sharing : List Outcome :=
  [⟨"u", .ok "||b.example^\n||a.example^"⟩, ⟨"v", .error .timeout⟩,
    ⟨"w", .ok "0.0.0.0 a.example\n||c.example^"⟩]

theorem collect_sharing :
    (collect 3 sharing).1 = ["a.example", "b.example", "c.example"] := by
  have htexts : texts sharing =
      ["||b.example^\n||a.example^", "0.0.0.0 a.example\n||c.example^"] := by decide
  have hfirst : Domain.extract "||b.example^\n||a.example^" = ["a.example", "b.example"] :=
    Domain.extract_firstList
  have hlast : Domain.extract "0.0.0.0 a.example\n||c.example^" = ["a.example", "c.example"] :=
    Domain.extract_secondList
  have hoffered : offered sharing = ["a.example", "b.example", "a.example", "c.example"] := by
    simp [offered, htexts, hfirst, hlast]
  rw [collect_eq_take, hoffered]
  decide

theorem collected_domains_are_numbered_sharing : ∃ rules,
    (collect 3 sharing).1.length ≤ 2 ^ 32 - 2002 ∧
    build? (collect 3 sharing).1 = some rules ∧
    rules.map (fun r => r.id.toNat) = [2000, 2001, 2002] ∧
    rules.map (fun r => r.condition.urlFilter) = ["a.example", "b.example", "c.example"] ∧
    rules.Pairwise (fun r s => r.id ≠ s.id) ∧
    rules.Pairwise (fun r s => r.condition.urlFilter ≠ s.condition.urlFilter) ∧
    rules.length = 3 ∧ ∀ r, rules[2]? = some r →
      r.id.toNat = 2002 ∧ some "c.example" = some r.condition.urlFilter := by
  obtain ⟨hcollected, hnumbered, hbuilt⟩ := collected_domains_are_numbered 3 sharing
  have hlength : (collect 3 sharing).1.length ≤ 2 ^ 32 - 2002 := by
    rw [collect_sharing]
    decide
  obtain ⟨rules, hrules⟩ := hbuilt _ hlength
  obtain ⟨hids, hfilters, hapart, hdistinct⟩ := hcollected rules hrules
  obtain ⟨-, hcount, hplaces⟩ := hnumbered _ rules hrules
  rw [collect_sharing] at hids hfilters hcount hplaces
  exact ⟨rules, hlength, hrules, hids, hfilters, hapart, hdistinct, hcount, hplaces 2⟩

end Blocklist.Rule
