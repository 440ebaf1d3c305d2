import Blocklist.Proofs.Pool.Slots
import Mathlib.Data.List.Forall2
-- Two runs over the same lists, of which one has more slots. Fetch by fetch it is at least
-- as early: when a fetch begins in the run with fewer slots, the fetches before it keep no
-- more slots busy in the other. So it begins every fetch that the other begins.
namespace Blocklist.Pool

open Batch Notes Collector

-- A fetch of the same URL that begins no later
structure Sooner (g f : Flight) : Prop where
  url : g.url = f.url
  position : g.position = f.position
  began : g.began ≤ f.began

theorem Sooner.outcome? {g f : Flight} (h : Sooner g f) (fetch : Fetcher) :
    g.outcome? fetch = f.outcome? fetch := by
  rw [Flight.outcome?, Flight.outcome?, h.url, h.position]

theorem exists_of_mem_forall₂ {α β : Type} {R : α → β → Prop} {as : List α} {bs : List β}
    (h : List.Forall₂ R as bs) {a : α} (ha : a ∈ as) : ∃ b ∈ bs, R a b := by
  induction h with
  | nil => cases ha
  | cons hfirst _ ih =>
      rcases List.mem_cons.mp ha with rfl | ha
      · exact ⟨_, List.mem_cons_self, hfirst⟩
      · obtain ⟨b, hb, hr⟩ := ih ha
        exact ⟨b, List.mem_cons_of_mem _ hb, hr⟩

-- What begins sooner is finished sooner
theorem busy_le_of_sooner (script : Script) {earlier flights : List Flight}
    (h : List.Forall₂ Sooner earlier flights) (time : Nat) :
    script.busy earlier time ≤ script.busy flights time := by
  induction h with
  | nil => exact Nat.le_refl _
  | @cons g f earlier flights hfirst _ ih =>
      have hdue : g.began + (script g.url).1 ≤ f.began + (script f.url).1 := by
        rw [hfirst.url]
        exact Nat.add_le_add_right hfirst.began _
      simp only [Script.busy, List.countP_cons, decide_eq_true_eq] at ih ⊢
      split <;> split <;> omega

-- Fetches that fill the slots until some time leave none free before it, and neither do the
-- same fetches when they begin later
theorem until_le_of_fills {script : Script} {slots until_ time : Nat}
    {earlier flights : List Flight} (hfills : script.Fills slots earlier until_)
    (h : List.Forall₂ Sooner earlier flights) (hbegan : ∀ f ∈ flights, f.began ≤ time)
    (hfree : script.busy flights time < slots) : until_ ≤ time := by
  by_contra hlater
  have hearlier : ∀ g ∈ earlier, g.began ≤ time := by
    intro g hg
    obtain ⟨f, hf, hsooner⟩ := exists_of_mem_forall₂ h hg
    exact hsooner.began.trans (hbegan f hf)
  have hfull := hfills time hearlier (Nat.lt_of_not_le hlater)
  have hbusy := busy_le_of_sooner script h time
  omega

namespace Run

variable {deadline : Nat} {urls : List String} {t u : Timeline} {fetch fetch' : Fetcher}
  {before after : List Flight}

-- By induction on the fetches of the run with fewer slots. Where one begins, the other run
-- has a slot for it unless it has begun it before.
theorem exists_sooner (hscript : u.script = t.script) (hceiling : t.batch.ceiling ≤ u.batch.ceiling)
    (ht : Eager deadline t) (hu : Eager deadline u) (htimely : Timely deadline t)
    (haccounts : Accounts fetch urls t.history t.batch)
    (haccounts' : Accounts fetch' urls u.history u.batch)
    (hover : u.batch.queue = [] ∨ deadline ≤ u.now)
    (hsplit : begun t.history = before ++ after) :
    ∃ earlier later, begun u.history = earlier ++ later ∧ List.Forall₂ Sooner earlier before := by
  induction before using List.reverseRecOn generalizing after with
  | nil => exact ⟨[], _, rfl, .nil⟩
  | append_singleton before f ih =>
      rw [List.append_assoc, List.singleton_append] at hsplit
      obtain ⟨earlier, later, hearlier, hsooner⟩ := ih hsplit
      obtain ⟨hordered, hslot, _⟩ := ht.each before f after hsplit
      obtain ⟨hposition, hurl⟩ := haccounts.place hsplit
      have hlength := hsooner.length_eq
      have hfree : u.script.busy before f.began < u.batch.ceiling := by
        rw [hscript]
        exact hslot.trans_le hceiling
      cases later with
      | nil =>
          rw [List.append_nil] at hearlier
          have hqueue : u.batch.queue ≠ [] := by
            apply haccounts'.queue_ne_nil
            rw [hearlier, hlength]
            exact (List.getElem?_eq_some_iff.mp hurl).1
          have hlate := hover.resolve_left hqueue
          have hend := until_le_of_fills (hearlier ▸ hu.last hqueue) hsooner hordered hfree
          have hbegan : f.began < deadline := htimely.began_lt (by simp [hsplit])
          omega
      | cons g later =>
          obtain ⟨_, _, hfills⟩ := hu.each earlier g later hearlier
          obtain ⟨hposition', hurl'⟩ := haccounts'.place hearlier
          have hsame : g.url = f.url := by
            rw [hlength, hurl] at hurl'
            exact (Option.some.inj hurl').symm
          have hbegan := until_le_of_fills hfills hsooner hordered hfree
          have hfirst : Sooner g f := ⟨hsame, by omega, hbegan⟩
          refine ⟨earlier ++ [g], later, by simp [hearlier], ?_⟩
          exact List.rel_append hsooner (.cons hfirst .nil)

section

variable {script : Script} {ceiling higher limit limit' : Nat} {r s : Run}

-- A run on its way, and one with at least as many slots that has come to its end
theorem Ticks.sooner (ticks : Ticks deadline (initial script ceiling deadline urls limit) r)
    (ticks' : Ticks deadline (initial script higher deadline urls limit') s)
    (hceiling : 0 < ceiling) (hhigher : ceiling ≤ higher) (hlimit : 0 < limit)
    (hlimit' : 0 < limit') (hend : s.timeline.batch.isEnded = true) :
    ∀ f ∈ begun r.timeline.history, ∃ g ∈ begun s.timeline.history, Sooner g f := by
  have hpositive := hceiling.trans_le hhigher
  obtain ⟨_, hrecord, htimely, _⟩ := ticks.prompt hceiling hlimit
  obtain ⟨hsound', hrecord', _, _⟩ := ticks'.prompt hpositive hlimit'
  have hscript : s.timeline.script = r.timeline.script := by
    rw [ticks.script_of_initial, ticks'.script_of_initial]
  have hslots : r.timeline.batch.ceiling ≤ s.timeline.batch.ceiling := by
    rw [hrecord.trace.ceiling_eq, hrecord'.trace.ceiling_eq]
    exact hhigher
  have hover : s.timeline.batch.queue = [] ∨ deadline ≤ s.timeline.now := by
    have w := hsound'.wellFormed
    rcases w.stopped (w.nothing_left hsound'.stays hend).1 with hcancel | hgone | hempty
    · exact .inr (hsound'.clock.mp hcancel)
    · rw [hsound'.stays] at hgone
      cases hgone
    · exact .inl hempty
  obtain ⟨earlier, later, hsplit, hsooner⟩ := exists_sooner hscript hslots
    (ticks.eager hceiling hlimit) (ticks'.eager hpositive hlimit') htimely
    (accounts_trace hrecord.trace) (accounts_trace hrecord'.trace) hover (List.append_nil _).symm
  intro f hf
  have hflip : List.Forall₂ (flip Sooner) (begun r.timeline.history) earlier := hsooner.flip
  obtain ⟨g, hg, hpair⟩ := exists_of_mem_forall₂ hflip hf
  exact ⟨g, hsplit ▸ List.mem_append_left later hg, hpair⟩

-- What is collected comes from a fetch that began
theorem Recorded.exists_begun (h : r.Recorded ceiling urls limit)
    (hstay : r.timeline.batch.dropped = false) {domain : String}
    (hdomain : domain ∈ r.collector.toList) :
    ∃ f ∈ begun r.timeline.history, ∃ o,
      f.outcome? r.timeline.script.fetcher = some o ∧ domain ∈ domainsOf o := by
  obtain ⟨o, ho, hin⟩ := List.mem_flatMap.mp (h.holds.mem hdomain)
  obtain ⟨f, hf, hoc⟩ := (accounts_trace h.trace).exists_begun hstay ho
  exact ⟨f, hf, o, hoc, hin⟩

-- At the end the domains of each fetch that began have been collected if there was room
theorem Recorded.mem_toList (h : r.Recorded ceiling urls limit) (hsound : r.Sound deadline)
    (hend : r.timeline.batch.isEnded = true) (hroom : r.collector.isFull = false) {f : Flight}
    {o : Outcome} {domain : String} (hf : f ∈ begun r.timeline.history)
    (hoc : f.outcome? r.timeline.script.fetcher = some o) (hin : domain ∈ domainsOf o) :
    domain ∈ r.collector.toList := by
  have hall := delivered_perm_begun (accounts_trace h.trace) hsound.wellFormed hsound.stays hend
  have hdelivered : o ∈ delivered r.timeline.history :=
    hall.mem_iff.mpr (List.mem_filterMap.mpr ⟨f, hf, hoc⟩)
  have hless := h.holds.isFull_iff.not.mp (by simp [hroom])
  rw [h.holds.toList, List.take_of_length_le (Nat.le_of_not_le hless), List.mem_eraseDups]
  exact List.mem_flatMap.mpr ⟨o, hdelivered, hin⟩

end

end Run

namespace Generator

open Run

-- A limit above the number of all domains is not reached
theorem length_collectDomains_lt (script : Script) {ceiling : Nat} (deadline : Nat)
    (urls : List String) {limit : Nat} (hceiling : 0 < ceiling)
    (hlimit : (script.fetcher.blocked urls).card < limit) :
    (collectDomains ⟨ceiling, deadline⟩ script urls limit).domains.length < limit := by
  have hpositive := Nat.zero_lt_of_lt hlimit
  obtain ⟨ticks, _⟩ := run_ticks script deadline urls hceiling hpositive
  obtain ⟨notes, t, hstay, _, hholds⟩ := Gathering.holds_delivered ticks.of_initial
  rw [collectDomains_of_pos _ _ _ hpositive]
  exact (Gathering.length_le_card t hstay hholds).trans_lt hlimit

-- Every fetch that begins with a low ceiling begins with a higher one, and no later. So no
-- domain is lost, unless the limit leaves no room for it.
theorem higher_ceiling_loses_nothing (script : Script) (deadline : Nat) (urls : List String)
    {ceiling higher limit limit' : Nat} (hceiling : 1 ≤ ceiling) (hhigher : ceiling ≤ higher)
    {t u : Timeline} {c d : Collected}
    (ht : t = (run ⟨ceiling, deadline⟩ script urls limit).timeline)
    (hu : u = (run ⟨higher, deadline⟩ script urls limit').timeline)
    (hc : c = collectDomains ⟨ceiling, deadline⟩ script urls limit)
    (hd : d = collectDomains ⟨higher, deadline⟩ script urls limit')
    (hroom : d.domains.length < limit') :
    (0 < limit → ∀ time f, (time, .began f) ∈ t.notes →
      ∃ time' g, (time', .began g) ∈ u.notes ∧ g.url = f.url ∧ g.position = f.position ∧
        time' ≤ time) ∧
    (∀ domain ∈ c.domains, domain ∈ d.domains) ∧
    ∀ n, (script.fetcher.blocked urls).card < n →
      (collectDomains ⟨higher, deadline⟩ script urls n).domains.length < n := by
  have hlimit' := Nat.zero_lt_of_lt hroom
  obtain ⟨ticks', hover'⟩ := run_ticks script deadline urls (hceiling.trans hhigher) hlimit'
  rw [collectDomains_of_pos _ _ _ hlimit'] at hd
  generalize run ⟨higher, deadline⟩ script urls limit' = s at hu hd ticks' hover'
  subst hu hd
  obtain ⟨hsound', hrecord', htimely', _⟩ := ticks'.prompt (hceiling.trans hhigher) hlimit'
  have hless : s.collector.isFull ≠ true := by
    rw [Ne, isFull_iff, hrecord'.limit]
    exact Nat.not_le.mpr hroom
  have hend : s.timeline.batch.isEnded = true := by
    simpa [Gathering.isOver, gathering, hless] using hover'
  have hroomy : ∀ n, (script.fetcher.blocked urls).card < n →
      (collectDomains ⟨higher, deadline⟩ script urls n).domains.length < n := by
    intro n hn
    exact length_collectDomains_lt script deadline urls (hceiling.trans hhigher) hn
  by_cases hlimit : limit = 0
  · subst hlimit hc
    rw [collectDomains_zero]
    refine ⟨fun hpositive => absurd hpositive (Nat.lt_irrefl 0), ?_, hroomy⟩
    rintro _ ⟨⟩
  · have hpositive := Nat.pos_of_ne_zero hlimit
    obtain ⟨ticks, _⟩ := run_ticks script deadline urls hceiling hpositive
    rw [collectDomains_of_pos _ _ _ hpositive] at hc
    generalize run ⟨ceiling, deadline⟩ script urls limit = r at ht hc ticks
    subst ht hc
    obtain ⟨hsound, hrecord, htimely, _⟩ := ticks.prompt hceiling hpositive
    have hsooner := ticks.sooner ticks' hceiling hhigher hpositive hlimit' hend
    refine ⟨?_, ?_, hroomy⟩
    · intro _ time f hf
      obtain ⟨rfl, _⟩ := htimely.began time f hf
      obtain ⟨g, hg, hpair⟩ := hsooner f (Timeline.mem_begun.mpr ⟨_, hf⟩)
      obtain ⟨time', hnote⟩ := Timeline.mem_begun.mp hg
      obtain ⟨rfl, _⟩ := htimely'.began time' g hnote
      exact ⟨_, g, hnote, hpair.url, hpair.position, hpair.began⟩
    · intro domain hdomain
      obtain ⟨f, hf, o, hoc, hin⟩ := hrecord.exists_begun hsound.stays hdomain
      obtain ⟨g, hg, hpair⟩ := hsooner f hf
      have hscript : s.timeline.script = r.timeline.script := by
        rw [ticks.script_of_initial, ticks'.script_of_initial]
      refine hrecord'.mem_toList hsound' hend (by simpa using hless) hg ?_ hin
      rw [hpair.outcome?, hscript, hoc]

-- A list that crashes late, among others that fail soon
def lateCrash : Script := fun url =>
  if url = "u" then (10, .crashed "no stack left") else (3, .given (.error .timeout))

-- With one slot the second list has to wait for the first
theorem higher_ceiling_loses_nothing_late : ∃ t u,
    t = (run ⟨1, 12⟩ lateCrash ["u", "v", "w"] 3).timeline ∧
      u = (run ⟨2, 12⟩ lateCrash ["u", "v", "w"] 3).timeline ∧
      (10, .began ⟨1, "v", 10⟩) ∈ t.notes ∧
      (∃ time' g, (time', .began g) ∈ u.notes ∧ g.url = "v" ∧ g.position = 1 ∧ time' ≤ 10) ∧
      ∀ domain ∈ (collectDomains ⟨1, 12⟩ lateCrash ["u", "v", "w"] 3).domains,
        domain ∈ (collectDomains ⟨2, 12⟩ lateCrash ["u", "v", "w"] 3).domains := by
  have hroom : (collectDomains ⟨2, 12⟩ lateCrash ["u", "v", "w"] 3).domains.length < 3 := by
    decide
  obtain ⟨hbegan, hdomains, _⟩ := @higher_ceiling_loses_nothing lateCrash 12 ["u", "v", "w"]
    1 2 3 3 (Nat.le_refl 1) (Nat.le_succ 1) _ _ _ _ rfl rfl rfl rfl hroom
  have hnote : (10, .began ⟨1, "v", 10⟩) ∈
      (run ⟨1, 12⟩ lateCrash ["u", "v", "w"] 3).timeline.notes := List.mem_of_getElem? (i := 3) rfl
  exact ⟨_, _, rfl, rfl, hnote, hbegan (by decide) 10 _ hnote, hdomains⟩

end Generator

end Blocklist.Pool
