import Blocklist.Proofs.Domain.Collector
import Blocklist.Proofs.Pool.Progress
import Mathlib.Data.Finset.Card
import Mathlib.Logic.Relation
-- A batch with the collector as its consumer. Whatever the order of events, the domains
-- that are collected in the end are those of the same set of texts, as many as the limit
-- allows.
namespace Blocklist.Pool

open Batch Notes Collector

namespace Fetcher

-- What the fetches of some URLs come to, without those that crash
def outcomes (fetch : Fetcher) (urls : List String) : List Outcome :=
  urls.zipIdx.filterMap fun p => fetch.outcome? p.2 p.1

-- The texts of the lists: not of those whose fetch fails or crashes, nor the empty ones
def texts (fetch : Fetcher) (urls : List String) : List String :=
  Collector.texts (fetch.outcomes urls)

-- All domains that the lists block
def blocked (fetch : Fetcher) (urls : List String) : Finset String :=
  ((fetch.texts urls).flatMap Domain.extract).toFinset

end Fetcher

structure Gathering where
  batch : Batch
  collector : Collector

namespace Gathering

def start (ceiling : Nat) (urls : List String) (limit : Nat) : Gathering :=
  ⟨Batch.start ceiling urls, Collector.empty limit⟩

-- No outcome is taken any more: the limit is reached, or there are no more outcomes
def isOver (g : Gathering) : Bool := g.collector.isFull || g.batch.isEnded

-- The batch does something, or the collector takes an outcome
inductive Step (fetch : Fetcher) (g : Gathering) : Gathering → Prop
  | work (e : Event) (c : Batch) (hpull : e ≠ .pull) (goes : Goes fetch e g.batch c) :
      Step fetch g ⟨c, g.collector⟩
  | take (o : Outcome) (channel : List Outcome) (c : Batch) (hroom : g.collector.isFull = false)
      (hchannel : g.batch.channel = o :: channel) (goes : Goes fetch .pull g.batch c) :
      Step fetch g ⟨c, g.collector.add o⟩

abbrev Steps (fetch : Fetcher) : Gathering → Gathering → Prop :=
  Relation.ReflTransGen (Step fetch)

-- The lists can come to these domains: some order of events ends with them, in which the
-- deadline does not cut off a list
def Comes (fetch : Fetcher) (requested : Nat) (urls : List String) (limit : Nat)
    (domains : List String) : Prop :=
  ∃ g, Steps fetch (start (effectiveCeiling requested) urls limit) g ∧ g.isOver = true ∧
    (g.batch.cancelled = true → g.batch.queue = []) ∧ g.collector.toList = domains

variable {fetch : Fetcher} {ceiling requested limit : Nat} {urls : List String}
  {domains : List String} {notes : List Note} {g h : Gathering} {b c : Batch}

theorem Step.keeps (s : Step fetch g h) (w : g.batch.WellFormed) :
    h.batch.WellFormed ∧ h.batch.ceiling = g.batch.ceiling ∧ h.batch.dropped = g.batch.dropped := by
  cases s with
  | work e c hpull goes => exact goes.keeps w
  | take o channel c hroom hchannel goes => exact goes.keeps w

theorem Steps.keeps (s : Steps fetch g h) (w : g.batch.WellFormed) :
    h.batch.WellFormed ∧ h.batch.ceiling = g.batch.ceiling ∧ h.batch.dropped = g.batch.dropped := by
  induction s with
  | refl => exact ⟨w, rfl, rfl⟩
  | tail _ step ih =>
      obtain ⟨wm, hceiling, hdrop⟩ := ih
      obtain ⟨wh, hceiling', hdrop'⟩ := step.keeps wm
      exact ⟨wh, hceiling'.trans hceiling, hdrop'.trans hdrop⟩

theorem Step.left_lt (s : Step fetch g h) (w : g.batch.WellFormed) :
    h.batch.left < g.batch.left := by
  cases s with
  | work e c hpull goes => exact goes.left_lt w
  | take o channel c hroom hchannel goes => exact goes.left_lt w

-- The collector holds the domains of the outcomes that were delivered
theorem holds_delivered (s : Steps fetch (start ceiling urls limit) g) :
    ∃ notes, Trace fetch (Batch.start ceiling urls) notes g.batch ∧ g.batch.dropped = false ∧
      g.collector.limit = limit ∧ g.collector.Holds ((delivered notes).flatMap domainsOf) := by
  induction s with
  | refl => exact ⟨[], .start, rfl, rfl, holds_empty limit⟩
  | tail _ step ih =>
      obtain ⟨notes, t, hdrop, hlimit, hholds⟩ := ih
      cases step with
      | work e c hpull goes =>
          refine ⟨_, t.step e goes.follows goes.happens, ?_, hlimit, ?_⟩
          · exact (goes.move.dropped_eq goes.stays).trans hdrop
          · rw [delivered_append, goes.move.delivered_eq_nil hpull, List.append_nil]
            exact hholds
      | take o channel c hroom hchannel goes =>
          refine ⟨_, t.step .pull goes.follows goes.happens, ?_, ?_, ?_⟩
          · exact (goes.move.dropped_eq goes.stays).trans hdrop
          · exact (add_limit _ o).trans hlimit
          · simpa [note?, hchannel, delivered] using hholds.add o

theorem mem_blocked {d : String} :
    d ∈ fetch.blocked urls ↔ d ∈ (fetch.outcomes urls).flatMap domainsOf := by
  rw [Fetcher.blocked, List.mem_toFinset, Fetcher.texts, flatMap_domainsOf]

-- The collector only ever sees outcomes of the lists
theorem delivered_subset (t : Trace fetch (Batch.start ceiling urls) notes b)
    (hdrop : b.dropped = false) : delivered notes ⊆ fetch.outcomes urls := by
  have h := accounts_trace t
  intro o ho
  obtain ⟨f, hbegun, hoc⟩ := h.exists_begun hdrop ho
  have hplace : (f.url, f.position) ∈ (urls.take b.submitted).zipIdx :=
    h.begun ▸ List.mem_map_of_mem hbegun
  refine List.mem_filterMap.mpr ⟨(f.url, f.position), ?_, hoc⟩
  rw [← List.take_append_drop b.submitted urls, List.zipIdx_append]
  exact List.mem_append_left _ hplace

theorem subset_blocked (t : Trace fetch (Batch.start ceiling urls) notes b)
    (hdrop : b.dropped = false) :
    ∀ d ∈ (delivered notes).flatMap domainsOf, d ∈ fetch.blocked urls := by
  intro d hd
  obtain ⟨o, ho, hdo⟩ := List.mem_flatMap.mp hd
  exact mem_blocked.mpr (List.mem_flatMap.mpr ⟨o, delivered_subset t hdrop ho, hdo⟩)

-- No more is collected than the lists block
theorem length_le_card {c : Collector} (t : Trace fetch (Batch.start ceiling urls) notes b)
    (hdrop : b.dropped = false) (hholds : c.Holds ((delivered notes).flatMap domainsOf)) :
    c.toList.length ≤ (fetch.blocked urls).card := by
  rw [← List.toFinset_card_of_nodup hholds.nodup]
  refine Finset.card_le_card fun d hd => ?_
  exact subset_blocked t hdrop d (hholds.mem (List.mem_toFinset.mp hd))

theorem length_eraseDups (ds : List String) : ds.eraseDups.length = ds.toFinset.card := by
  rw [← List.toFinset_card_of_nodup (nodup_eraseDups ds)]
  congr 1
  ext d
  simp

-- Whatever the schedule, the domains are as many different ones as the limit allows
theorem Comes.blocked (hcomes : Comes fetch requested urls limit domains) :
    domains.Nodup ∧ domains.length = min limit (fetch.blocked urls).card ∧
      ∀ d ∈ domains, d ∈ fetch.blocked urls := by
  obtain ⟨g, s, hover, hqueue, rfl⟩ := hcomes
  obtain ⟨notes, t, hdrop, hlimit, hholds⟩ := holds_delivered s
  have hsubset := subset_blocked t hdrop
  have hle : ((delivered notes).flatMap domainsOf).toFinset.card ≤ (fetch.blocked urls).card :=
    Finset.card_le_card fun d hd => hsubset d (List.mem_toFinset.mp hd)
  refine ⟨hholds.nodup, ?_, fun d hd => hsubset d (hholds.mem hd)⟩
  rw [hholds.length, hlimit, length_eraseDups]
  simp only [isOver, Bool.or_eq_true] at hover
  rcases hover with hfull | hend
  · have hlong := hholds.isFull_iff.mp hfull
    rw [hlimit, length_eraseDups] at hlong
    omega
  · congr 2
    ext d
    rw [mem_blocked, List.mem_toFinset]
    have hall : (delivered notes).Perm (fetch.outcomes urls) :=
      delivered_perm (accounts_trace t) ((wellFormed_start _ urls).trace t) hdrop hend hqueue
    exact (hall.flatMap_right domainsOf).mem_iff

-- If the limit does not matter, the domains are all that the lists block
theorem Comes.mem_iff (hcomes : Comes fetch requested urls limit domains)
    (hlimit : (fetch.blocked urls).card ≤ limit) (d : String) :
    d ∈ domains ↔ d ∈ fetch.blocked urls := by
  obtain ⟨hnodup, hlength, hsubset⟩ := hcomes.blocked
  have hsub : domains.toFinset ⊆ fetch.blocked urls := fun d hd =>
    hsubset d (List.mem_toFinset.mp hd)
  have hcard : (fetch.blocked urls).card ≤ domains.toFinset.card := by
    rw [List.toFinset_card_of_nodup hnodup, hlength]
    omega
  rw [← List.mem_toFinset, Finset.eq_of_subset_of_card_le hsub hcard]

end Gathering

end Blocklist.Pool
