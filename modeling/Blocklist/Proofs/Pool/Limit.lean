import Blocklist.Program.Generation
import Blocklist.Proofs.Pool.Deadline
import Blocklist.Proofs.Pool.Generator
import Blocklist.Proofs.Pool.Sequential
import Blocklist.Proofs.Rules.Build
-- Two runs over the same lists, of which one may collect less. They go in step until the
-- one with the lower limit returns, and the other can only go on from there: so what the
-- first returns is the beginning of what the other does, and comes no later.
namespace Blocklist

open Pool Pool.Batch

namespace Pool.Run

variable {deadline : Nat} {r s u : Run}

theorem Tick.toList_prefix (tick : Tick deadline r s) :
    r.collector.toList <+: s.collector.toList := by
  cases tick with
  | take o channel hroom hchannel => exact r.collector.toList_prefix_add o
  | _ => exact List.prefix_refl _

theorem Ticks.toList_prefix (ticks : Ticks deadline r s) :
    r.collector.toList <+: s.collector.toList := by
  induction ticks with
  | refl => exact List.prefix_refl _
  | tail _ tick ih => exact ih.trans tick.toList_prefix

-- Two runs in step: the first differs from the second in that it may collect less
structure InStep (r s : Run) : Prop where
  timeline : r.timeline = s.timeline
  holds : ∃ ds, r.collector.Holds ds ∧ s.collector.Holds ds
  limit : r.collector.limit ≤ s.collector.limit

-- The first run has collected what the second has, up to its limit, and in no more time
structure Leads (r s : Run) : Prop where
  toList : r.collector.toList = s.collector.toList.take r.collector.limit
  now : r.timeline.now ≤ s.timeline.now

theorem InStep.leads (h : InStep r s) : Leads r s := by
  obtain ⟨ds, hr, hs⟩ := h.holds
  refine ⟨?_, by rw [h.timeline]⟩
  rw [hr.toList, hs.toList, List.take_take, Nat.min_eq_left h.limit]

theorem InStep.isFull_eq_false (h : InStep r s) (hroom : r.collector.isFull = false) :
    s.collector.isFull = false := by
  obtain ⟨ds, hr, hs⟩ := h.holds
  have hnot := hs.isFull_iff.not.mpr (Nat.not_le.mpr ((hr.length_lt hroom).trans_le h.limit))
  simpa using hnot

-- Once the first run is full, the second may go on without it
theorem InStep.leads_of_isFull (h : InStep r s) (hfull : r.collector.isFull = true)
    (ticks : Ticks deadline s u) (hsound : s.Sound deadline) : Leads r u := by
  have hlength := (Collector.isFull_iff _).mp hfull
  have hbegin : r.collector.toList <+: u.collector.toList := by
    rw [h.leads.toList]
    exact (List.take_prefix _ _).trans ticks.toList_prefix
  have hwhole : r.collector.toList.length = r.collector.limit := by
    refine Nat.le_antisymm ?_ hlength
    rw [h.leads.toList]
    exact List.length_take_le _ _
  refine ⟨?_, h.leads.now.trans (ticks.now_le hsound)⟩
  rw [← hwhole]
  exact List.prefix_iff_eq_take.mp hbegin

theorem InStep.take (h : InStep r s) (o : Outcome) :
    InStep ⟨r.timeline.happen .pull, r.collector.add o⟩
      ⟨s.timeline.happen .pull, s.collector.add o⟩ := by
  obtain ⟨ds, hr, hs⟩ := h.holds
  refine ⟨by rw [h.timeline], ⟨_, hr.add o, hs.add o⟩, ?_⟩
  simpa only [Collector.add_limit] using h.limit

-- They take the same outcomes, until the first is full and the second has yet to take more
theorem InStep.drain (deadline : Nat) (h : InStep r s) : ∃ u, InStep r.drain u ∧
    Ticks deadline s u ∧ u.drain = s.drain ∧
    (r.drain.collector.isFull = false → u = s.drain) := by
  generalize houtcomes : s.timeline.batch.channel = outcomes
  induction outcomes generalizing r s with
  | nil =>
      rw [drain_of_nil (by rw [h.timeline, houtcomes])]
      exact ⟨s, h, .refl, rfl, fun _ => (drain_of_nil houtcomes).symm⟩
  | cons o channel ih =>
      cases hfull : r.collector.isFull with
      | true =>
          rw [drain_of_isFull hfull]
          exact ⟨s, h, .refl, rfl, fun hroom => by simp [hfull] at hroom⟩
      | false =>
          have hroom := h.isFull_eq_false hfull
          have hbatch := (Timeline.happen_of_step? (step?_pull houtcomes)).1
          rw [drain_of_cons hfull (by rw [h.timeline, houtcomes]), drain_of_cons hroom houtcomes]
          obtain ⟨u, hstep, ticks, hdrain, hu⟩ := ih (h.take o) (by simp [hbatch])
          exact ⟨u, hstep, ticks.head (.take o channel hroom houtcomes), hdrain, hu⟩

theorem finishWith_congr_drain (h : r.drain = s.drain) (fuel : Nat) :
    finishWith deadline (fuel + 1) r = finishWith deadline (fuel + 1) s := by
  simp only [finishWith, h]

-- By induction on the turns: as long as both have room they make the same turn
theorem InStep.finishWith (h : InStep r s) (fuel : Nat) (hsound : s.Sound deadline) :
    Leads (finishWith deadline fuel r) (finishWith deadline fuel s) := by
  induction fuel generalizing r s with
  | zero => exact h.leads
  | succ fuel ih =>
      obtain ⟨u, hstep, ticks, hdrain, hu⟩ := h.drain deadline
      have hgoes := ticks.sound hsound
      cases hfull : r.drain.collector.isFull with
      | true =>
          have hreturns : Run.finishWith deadline (fuel + 1) r = r.drain := by
            simp [Run.finishWith, hfull]
          rw [hreturns, finishWith_congr_drain hdrain.symm]
          exact hstep.leads_of_isFull hfull (finishWith_ticks _ hgoes) hgoes
      | false =>
          obtain rfl := hu hfull
          have hroom := hstep.isFull_eq_false hfull
          have hsame : ∀ t, InStep ⟨t, r.drain.collector⟩ ⟨t, s.drain.collector⟩ := fun t =>
            ⟨rfl, hstep.holds, hstep.limit⟩
          obtain ⟨settles, hquiet, _⟩ := drain_settle hsound hroom rfl
          have hsettled := settles.sound hsound
          simp only [Run.finishWith, hfull, hroom, hstep.timeline, Bool.false_eq_true, if_false]
          split
          case isTrue => exact ih (hsame _) hsettled
          case isFalse hnone =>
            split
            case isTrue => exact (hsame _).leads
            case isFalse hopen =>
              obtain ⟨t, ht, hmoves, _⟩ :=
                advance?_ticks hsettled hroom hquiet (by simpa using hnone) (by simpa using hopen)
              simp only [ht]
              exact ih (hsame t) (hmoves.sound hsettled)

end Pool.Run

namespace Pool.Generator

open Run

theorem run_leads (script : Script) {ceiling : Nat} (deadline : Nat) (urls : List String)
    {m n : Nat} (hceiling : 0 < ceiling) (hm : 0 < m) (hmn : m ≤ n) :
    Leads (run ⟨ceiling, deadline⟩ script urls m) (run ⟨ceiling, deadline⟩ script urls n) := by
  have hsound := sound_initial script deadline urls n hceiling
  have hroom := isFull_empty (hm.trans_le hmn)
  have hstart : Timeline.start script ceiling urls (deadline == 0) =
      (initial script ceiling deadline urls n).timeline.settle := by
    simp [Timeline.start, initial]
  have hstep : InStep ⟨Timeline.start script ceiling urls (deadline == 0), Collector.empty m⟩
      ⟨Timeline.start script ceiling urls (deadline == 0), Collector.empty n⟩ :=
    ⟨rfl, ⟨[], Collector.holds_empty m, Collector.holds_empty n⟩, hmn⟩
  refine hstep.finishWith _ ?_
  rw [hstart]
  exact (settle_ticks hsound.wellFormed hroom).sound hsound

theorem run_limit (script : Script) {ceiling : Nat} (deadline : Nat) (urls : List String)
    {limit : Nat} (hceiling : 0 < ceiling) (hlimit : 0 < limit) :
    (run ⟨ceiling, deadline⟩ script urls limit).collector.limit = limit :=
  (run_ticks script deadline urls hceiling hlimit).1.limit_eq

theorem collectDomains_leads (g : Generator) (script : Script) (urls : List String) {m n : Nat}
    (hceiling : 0 < g.ceiling) (hmn : m ≤ n) :
    (g.collectDomains script urls m).domains =
        (g.collectDomains script urls n).domains.take m ∧
      (g.collectDomains script urls m).finishedAt ≤
        (g.collectDomains script urls n).finishedAt := by
  by_cases hm : m = 0
  · subst hm
    rw [collectDomains_zero]
    exact ⟨rfl, Nat.zero_le _⟩
  · have hpositive := Nat.pos_of_ne_zero hm
    obtain ⟨ceiling, deadline⟩ := g
    have hleads := run_leads script deadline urls hceiling hpositive hmn
    rw [collectDomains_of_pos _ _ _ hpositive, collectDomains_of_pos _ _ _ (hpositive.trans_le hmn)]
    refine ⟨?_, hleads.now⟩
    rw [hleads.toList, run_limit script deadline urls hceiling hpositive]

theorem length_collectDomains_le (g : Generator) (script : Script) (urls : List String)
    (limit : Nat) (hceiling : 0 < g.ceiling) :
    (g.collectDomains script urls limit).domains.length ≤ limit := by
  rw [(collectDomains_leads g script urls hceiling (Nat.le_refl limit)).1]
  exact List.length_take_le _ _

end Pool.Generator

namespace Program

theorem generate?_take {p : Plan} {world : World} {m n : Nat} (hmn : m ≤ n)
    {g : Generation} (hg : generate? p world n = some g) :
    ∃ f, generate? p world m = some f ∧ f.rules = g.rules.take m := by
  simp only [generate?] at hg ⊢
  split at hg
  case isFalse => cases hg
  case isTrue hpossible =>
    obtain ⟨rules, hrules, rfl⟩ := Option.map_eq_some_iff.mp hg
    have hceiling : 0 < p.settings.generator.ceiling :=
      effectiveCeiling_pos p.settings.maxConcurrency
    have hbuilt := Rule.build?_take hrules m
    have hless : (p.collected world m).domains = (p.collected world n).domains.take m :=
      (Generator.collectDomains_leads _ _ _ hceiling hmn).1
    rw [← hless] at hbuilt
    exact ⟨_, by rw [if_pos hpossible, hbuilt, Option.map_some], rfl⟩

end Program

namespace Pool.Generator

theorem lower_limit_returns_the_beginning (script : Script) (requested deadline : Nat)
    (urls : List String) {m n : Nat} (hmn : m ≤ n) {c d : Collected}
    (hc : c = collectDomains ⟨effectiveCeiling requested, deadline⟩ script urls m)
    (hd : d = collectDomains ⟨effectiveCeiling requested, deadline⟩ script urls n) :
    c.domains = d.domains.take m ∧ c.finishedAt ≤ d.finishedAt ∧
    (∀ rules, Rule.build? d.domains = some rules →
      Rule.build? c.domains = some (rules.take m)) ∧
    ∀ p world g, Program.generate? p world n = some g →
      ∃ f, Program.generate? p world m = some f ∧ f.rules = g.rules.take m := by
  obtain ⟨hdomains, hfinished⟩ :=
    collectDomains_leads ⟨effectiveCeiling requested, deadline⟩ script urls
      (effectiveCeiling_pos requested) hmn
  rw [← hc, ← hd] at hdomains hfinished
  refine ⟨hdomains, hfinished, fun rules hrules => ?_, fun p world g hg =>
    Program.generate?_take hmn hg⟩
  rw [hdomains]
  exact Rule.build?_take hrules m

-- Two lists, each of which takes ten milliseconds
def twoLists : Script := fun url =>
  (10, .given (.ok (if url = "u" then Domain.firstList else Domain.secondList)))

theorem domains_twoLists (limit : Nat) :
    (collectDomains ⟨effectiveCeiling 1, 25⟩ twoLists ["u", "v"] limit).domains =
      ["a.example", "b.example", "c.example"].take limit := by
  have hsum := finishedAt_le_sum twoLists 1 25 ["u", "v"] limit
  have hearly : (["u", "v"].map fun url => (twoLists url).1).sum < 25 := by decide
  have hcomes := collectDomains_comes twoLists 1 25 limit ["u", "v"] rfl (.inl (by omega))
  have htexts : Collector.texts (twoLists.fetcher.outcomes ["u", "v"]) =
      [Domain.firstList, Domain.secondList] := by decide
  rw [hcomes.sequential, Collector.flatMap_domainsOf, htexts, List.flatMap_cons,
    List.flatMap_singleton, Domain.extract_firstList, Domain.extract_secondList]
  rfl

-- The limit cuts the first list
theorem lower_limit_returns_the_beginning_cut : ∃ c d rules,
    c = collectDomains ⟨effectiveCeiling 1, 25⟩ twoLists ["u", "v"] 1 ∧
      d = collectDomains ⟨effectiveCeiling 1, 25⟩ twoLists ["u", "v"] 3 ∧
      c.domains = ["a.example"] ∧ d.domains = ["a.example", "b.example", "c.example"] ∧
      c.domains = d.domains.take 1 ∧ c.finishedAt ≤ d.finishedAt ∧
      Rule.build? d.domains = some rules ∧ rules.length = 3 ∧
      Rule.build? c.domains = some (rules.take 1) := by
  have hless : 1 ≤ 3 := by decide
  obtain ⟨hdomains, hfinished, hrules, _⟩ :=
    lower_limit_returns_the_beginning twoLists 1 25 ["u", "v"] hless rfl rfl
  obtain ⟨rules, hbuilt, hlength⟩ : ∃ rules,
      Rule.build? ["a.example", "b.example", "c.example"] = some rules ∧ rules.length = 3 :=
    ⟨_, rfl, rfl⟩
  have hthree := domains_twoLists 3
  exact ⟨_, _, rules, rfl, rfl, domains_twoLists 1, hthree, hdomains, hfinished,
    (congrArg Rule.build? hthree).trans hbuilt, hlength,
    hrules rules ((congrArg Rule.build? hthree).trans hbuilt)⟩

end Pool.Generator

end Blocklist
