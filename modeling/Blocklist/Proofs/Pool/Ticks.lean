import Blocklist.Pool.Generator
import Blocklist.Proofs.Pool.Gathering
import Blocklist.Proofs.Pool.Settled
-- A run against a clock, tick by tick. Each tick is one event of the batch, one outcome
-- that is taken, or a move of the clock to the next moment at which something happens. A
-- run comes to its end by ticks, and the budget of turns suffices for that.
namespace Blocklist.Pool

open Batch Gathering

-- Nothing happens before the fetch `f` finishes, unless the deadline passes
structure Timeline.Awaits (t : Timeline) (f : Flight) : Prop where
  quiet : t.ready? = none
  running : f ∈ t.batch.running
  first : ∀ g ∈ t.batch.running, t.due f ≤ t.due g
  later : t.now < t.due f
  waiting : t.batch.waiting = []
  channel : t.batch.channel = []

namespace Timeline

variable {t : Timeline} {f : Flight}

theorem due_foldl_earlier_le (t : Timeline) (rest : List Flight) (f : Flight) :
    ∀ g ∈ f :: rest, t.due (rest.foldl t.earlier f) ≤ t.due g := by
  induction rest generalizing f with
  | nil => exact fun g hg => by rw [List.mem_singleton.mp hg]; exact Nat.le_refl _
  | cons h rest ih =>
      have hearlier : t.due (t.earlier f h) ≤ t.due f ∧ t.due (t.earlier f h) ≤ t.due h := by
        unfold earlier
        split <;> omega
      intro g hg
      rw [List.foldl_cons]
      have hbest := ih (t.earlier f h) _ List.mem_cons_self
      rcases List.mem_cons.mp hg with rfl | hg
      · exact hbest.trans hearlier.1
      · rcases List.mem_cons.mp hg with rfl | hg
        · exact hbest.trans hearlier.2
        · exact ih (t.earlier f h) g (List.mem_cons_of_mem _ hg)

-- No running fetch finishes before the one that finishes first
theorem due_first?_le (h : t.first? = some f) : ∀ g ∈ t.batch.running, t.due f ≤ t.due g := by
  unfold first? at h
  split at h
  · cases h
  · rename_i g rest hrunning
    cases h
    exact hrunning ▸ due_foldl_earlier_le t rest g

-- When all is quiet and nothing can be taken, the run waits for a fetch
theorem awaits_of_quiet (w : t.batch.WellFormed) (hceiling : 0 < t.batch.ceiling)
    (hdrop : t.batch.dropped = false) (hquiet : t.ready? = none) (hchannel : t.batch.channel = [])
    (hend : t.batch.isEnded = false) : ∃ f, t.first? = some f ∧ t.Awaits f := by
  obtain ⟨f, hfirst, hlater⟩ := waits_of_quiet w hceiling hdrop hquiet hchannel hend
  refine ⟨f, hfirst, hquiet, mem_running_of_first? hfirst, due_first?_le hfirst, hlater, ?_,
    hchannel⟩
  by_contra hwaiting
  have hsome : (t.batch.step? .handOver).isSome = true :=
    isSome_handOver.mpr ⟨hwaiting, hdrop, by rw [hchannel]; exact hceiling⟩
  rw [(ready?_eq_none hquiet).2.1] at hsome
  cases hsome

end Timeline

namespace Run

variable {deadline : Nat} {r s u : Run} {collector : Collector} {t : Timeline}

-- A run without its clock
def gathering (r : Run) : Gathering := ⟨r.timeline.batch, r.collector⟩

-- A run at its beginning. A deadline of zero has passed by then.
def initial (script : Script) (ceiling deadline : Nat) (urls : List String) (limit : Nat) : Run :=
  let t : Timeline := ⟨script, 0, Batch.start ceiling urls, []⟩
  ⟨if deadline = 0 then t.happen .cancel else t, Collector.empty limit⟩

-- What can happen next, as long as there is room for domains
inductive Tick (deadline : Nat) (r : Run) : Run → Prop
  | own (e : Event) (c : Batch) (hroom : r.collector.isFull = false)
      (hready : r.timeline.ready? = some e) (hown : e.isOwn = true)
      (goes : Goes r.timeline.script.fetcher e r.timeline.batch c) :
      Tick deadline r ⟨r.timeline.happen e, r.collector⟩
  | take (o : Outcome) (channel : List Outcome) (hroom : r.collector.isFull = false)
      (hchannel : r.timeline.batch.channel = o :: channel) :
      Tick deadline r ⟨r.timeline.happen .pull, r.collector.add o⟩
  -- the deadline passes
  | cut (f : Flight) (hroom : r.collector.isFull = false) (awaits : r.timeline.Awaits f)
      (hopen : r.timeline.batch.cancelled = false) (hlate : deadline ≤ r.timeline.due f) :
      Tick deadline r ⟨({ r.timeline with now := deadline } : Timeline).happen .cancel, r.collector⟩
  -- the next fetch is due
  | wait (f : Flight) (hroom : r.collector.isFull = false) (awaits : r.timeline.Awaits f)
      (hearly : r.timeline.batch.cancelled = true ∨ r.timeline.due f < deadline) :
      Tick deadline r ⟨{ r.timeline with now := r.timeline.due f }, r.collector⟩

abbrev Ticks (deadline : Nat) : Run → Run → Prop := Relation.ReflTransGen (Tick deadline)

theorem goes_pull {fetch : Fetcher} {b : Batch} {o : Outcome} {channel : List Outcome}
    (hchannel : b.channel = o :: channel) :
    Goes fetch .pull b { b with channel := channel } :=
  ⟨nofun, nofun, trivial, step?_pull hchannel⟩

theorem goes_cancel {fetch : Fetcher} {b : Batch} (hopen : b.cancelled = false) :
    Goes fetch .cancel b { b with cancelled := true } :=
  ⟨nofun, fun _ => hopen, trivial, rfl⟩

-- What a run keeps: the batch can go on, and is cancelled when the deadline has come
structure Sound (deadline : Nat) (r : Run) : Prop where
  wellFormed : r.timeline.batch.WellFormed
  ceiling : 0 < r.timeline.batch.ceiling
  stays : r.timeline.batch.dropped = false
  clock : r.timeline.batch.cancelled = true ↔ deadline ≤ r.timeline.now

-- A run that is not cancelled is before its deadline
theorem Sound.now_lt (h : r.Sound deadline) (hopen : r.timeline.batch.cancelled = false) :
    r.timeline.now < deadline := by
  have hclock := h.clock
  rw [hopen] at hclock
  simpa using hclock

theorem sound_initial (script : Script) {ceiling : Nat} (deadline : Nat) (urls : List String)
    (limit : Nat) (hceiling : 0 < ceiling) :
    (initial script ceiling deadline urls limit).Sound deadline := by
  have w := wellFormed_start ceiling urls
  unfold initial
  split
  case isTrue hzero =>
    have goes : Goes script.fetcher .cancel (Batch.start ceiling urls) _ := goes_cancel rfl
    exact ⟨w.move goes.move, hceiling, rfl, by simp [Timeline.happen, step?, hzero]⟩
  case isFalse hpositive =>
    exact ⟨w, hceiling, rfl, by simp only [Batch.start]; simp; omega⟩

theorem Tick.script_eq (tick : Tick deadline r s) : s.timeline.script = r.timeline.script := by
  cases tick with
  | own e c hroom hready hown goes => exact (Timeline.happen_of_step? goes.happens).2.1
  | take o channel hroom hchannel => exact (Timeline.happen_of_step? (step?_pull hchannel)).2.1
  | cut f hroom awaits hopen hlate => rfl
  | wait f hroom awaits hearly => rfl

theorem Tick.limit_eq (tick : Tick deadline r s) : s.collector.limit = r.collector.limit := by
  cases tick with
  | take o channel hroom hchannel => exact Collector.add_limit _ o
  | _ => rfl

theorem Ticks.limit_eq (ticks : Ticks deadline r s) : s.collector.limit = r.collector.limit := by
  induction ticks with
  | refl => rfl
  | tail _ tick ih => exact tick.limit_eq.trans ih

-- An event of the batch that does not cancel it keeps that
theorem Sound.goes {fetch : Fetcher} {e : Event} {c : Batch} (h : r.Sound deadline)
    (goes : Goes fetch e r.timeline.batch c) (hcancel : e ≠ .cancel)
    (hbatch : s.timeline.batch = c) (hnow : s.timeline.now = r.timeline.now) :
    s.Sound deadline := by
  obtain ⟨w, hceiling, hstay⟩ := goes.keeps h.wellFormed
  subst hbatch
  exact ⟨w, hceiling ▸ h.ceiling, hstay.trans h.stays,
    by rw [goes.move.cancelled_eq hcancel, hnow, h.clock]⟩

theorem Tick.sound (tick : Tick deadline r s) (h : r.Sound deadline) : s.Sound deadline := by
  cases tick with
  | own e c hroom hready hown goes =>
      obtain ⟨hbatch, _, hnow⟩ := Timeline.happen_of_step? goes.happens
      exact h.goes goes (by rintro rfl; cases hown) hbatch hnow
  | take o channel hroom hchannel =>
      obtain ⟨hbatch, _, hnow⟩ := Timeline.happen_of_step? (step?_pull hchannel)
      have goes : Goes r.timeline.script.fetcher .pull r.timeline.batch _ := goes_pull hchannel
      exact h.goes goes nofun hbatch hnow
  | cut f hroom awaits hopen hlate =>
      have goes : Goes r.timeline.script.fetcher .cancel r.timeline.batch _ := goes_cancel hopen
      exact ⟨h.wellFormed.move goes.move, h.ceiling, h.stays, by simp [Timeline.happen, step?]⟩
  | wait f hroom awaits hearly =>
      refine ⟨h.wellFormed, h.ceiling, h.stays, ?_⟩
      have hlater := awaits.later
      have hclock := h.clock
      rcases hearly with hcancel | hearly
      · have := hclock.mp hcancel
        exact ⟨fun _ => by simp only; omega, fun _ => hcancel⟩
      · exact ⟨fun hcancel => by have := hclock.mp hcancel; simp only; omega,
          fun hlate => by simp only at hlate; omega⟩

theorem Ticks.sound (ticks : Ticks deadline r s) (h : r.Sound deadline) : s.Sound deadline := by
  induction ticks with
  | refl => exact h
  | tail _ tick ih => exact tick.sound ih

-- Without the clock a tick is a step that the lists can take in some order, or none
theorem Tick.steps (tick : Tick deadline r s) :
    Steps r.timeline.script.fetcher r.gathering s.gathering := by
  cases tick with
  | own e c hroom hready hown goes =>
      have step : Step r.timeline.script.fetcher r.gathering ⟨c, r.collector⟩ :=
        .work e c (by rintro rfl; cases hown) goes
      rw [← (Timeline.happen_of_step? goes.happens).1] at step
      exact .single step
  | take o channel hroom hchannel =>
      have goes : Goes r.timeline.script.fetcher .pull r.timeline.batch _ := goes_pull hchannel
      have step := Step.take (g := r.gathering) o channel _ hroom hchannel goes
      rw [← (Timeline.happen_of_step? goes.happens).1] at step
      exact .single step
  | cut f hroom awaits hopen hlate => exact .single (.work .cancel _ nofun (goes_cancel hopen))
  | wait f hroom awaits hearly => exact .refl

theorem Ticks.script_eq (ticks : Ticks deadline r s) : s.timeline.script = r.timeline.script := by
  induction ticks with
  | refl => rfl
  | tail _ tick ih => exact tick.script_eq.trans ih

theorem Ticks.steps (ticks : Ticks deadline r s) :
    Steps r.timeline.script.fetcher r.gathering s.gathering := by
  induction ticks with
  | refl => exact .refl
  | tail before tick ih => exact ih.trans (Ticks.script_eq before ▸ tick.steps)

-- The clock only goes forward
theorem Tick.now_le (tick : Tick deadline r s) (h : r.Sound deadline) :
    r.timeline.now ≤ s.timeline.now := by
  cases tick with
  | own e c hroom hready hown goes =>
      exact Nat.le_of_eq (Timeline.happen_of_step? goes.happens).2.2.symm
  | take o channel hroom hchannel =>
      exact Nat.le_of_eq (Timeline.happen_of_step? (step?_pull hchannel)).2.2.symm
  | cut f hroom awaits hopen hlate => exact Nat.le_of_lt (h.now_lt hopen)
  | wait f hroom awaits hearly => exact Nat.le_of_lt awaits.later

theorem Ticks.now_le (ticks : Ticks deadline r s) (h : r.Sound deadline) :
    r.timeline.now ≤ s.timeline.now := by
  induction ticks with
  | refl => exact Nat.le_refl _
  | tail before tick ih => exact ih.trans (tick.now_le (Ticks.sound before h))

-- Settling goes by ticks of the batch
theorem settle_ticks (w : t.batch.WellFormed) (hroom : collector.isFull = false) :
    Ticks deadline ⟨t, collector⟩ ⟨t.settle, collector⟩ := by
  unfold Timeline.settle
  generalize t.batch.work = fuel
  induction fuel generalizing t with
  | zero => exact .refl
  | succ fuel ih =>
      cases hready : t.ready? with
      | none => simpa [Timeline.settleWith, hready] using .refl
      | some e =>
          obtain ⟨hown, c, goes⟩ := Timeline.own_of_ready? w hready
          have hbatch := (Timeline.happen_of_step? goes.happens).1
          have hrest := ih (t := t.happen e) (hbatch ▸ w.move goes.move)
          simp only [Timeline.settleWith, hready]
          exact hrest.head (.own e c hroom hready hown goes)

-- To drain the channel is to take one outcome after the other

theorem drain_of_isFull (hfull : r.collector.isFull = true) : r.drain = r := by
  cases hchannel : r.timeline.batch.channel <;>
    simp [drain, hchannel, Collector.addWhileRoom, hfull]

theorem drain_of_nil (hchannel : r.timeline.batch.channel = []) : r.drain = r := by
  simp [drain, hchannel, Collector.addWhileRoom]

theorem drain_of_cons {o : Outcome} {channel : List Outcome}
    (hroom : r.collector.isFull = false) (hchannel : r.timeline.batch.channel = o :: channel) :
    r.drain = drain ⟨r.timeline.happen .pull, r.collector.add o⟩ := by
  have hbatch := (Timeline.happen_of_step? (step?_pull hchannel)).1
  simp [drain, hchannel, Collector.addWhileRoom, hroom, hbatch, List.foldl_const]

-- What draining leads to. Unless the collector is full then, nothing is left to be taken.
structure Drains (deadline : Nat) (r s : Run) : Prop where
  ticks : Ticks deadline r s
  emptied : s.collector.isFull = false →
    s.timeline.batch = { r.timeline.batch with channel := [] }

theorem drain_drains (r : Run) : r.Drains deadline r.drain := by
  generalize houtcomes : r.timeline.batch.channel = outcomes
  induction outcomes generalizing r with
  | nil =>
      rw [drain_of_nil houtcomes]
      exact ⟨.refl, fun _ => by rw [← houtcomes]⟩
  | cons o channel ih =>
      cases hfull : r.collector.isFull with
      | true =>
          rw [drain_of_isFull hfull]
          exact ⟨.refl, fun hroom => by simp [hfull] at hroom⟩
      | false =>
          have hbatch := (Timeline.happen_of_step? (step?_pull houtcomes)).1
          have hrest := ih ⟨r.timeline.happen .pull, r.collector.add o⟩ (by simp [hbatch])
          rw [drain_of_cons hfull houtcomes]
          refine ⟨hrest.ticks.head (.take o channel hfull houtcomes), fun hroom => ?_⟩
          rw [hrest.emptied hroom, hbatch]

-- When all is quiet, nothing can be taken and the stream has not ended, the clock moves on:
-- to the deadline, or to where the next fetch finishes
theorem advance?_ticks (h : Sound deadline ⟨t, collector⟩) (hroom : collector.isFull = false)
    (hquiet : t.ready? = none) (hchannel : t.batch.channel = []) (hend : t.batch.isEnded = false) :
    ∃ u, advance? deadline t = some u ∧ Ticks deadline ⟨t, collector⟩ ⟨u, collector⟩ ∧
      u.ready? = none ∧ u.batch.pending < t.batch.pending := by
  obtain ⟨f, hfirst, awaits⟩ :=
    Timeline.awaits_of_quiet h.wellFormed h.ceiling h.stays hquiet hchannel hend
  have hnext : t.nextDue? = some (t.due f) := by
    rw [Timeline.nextDue?, hfirst]
    rfl
  simp only [advance?, hnext, Option.bind_eq_bind, Option.bind_some]
  split
  case isTrue hpasses =>
    simp only [Bool.and_eq_true, Bool.not_eq_true', decide_eq_true_eq] at hpasses
    obtain ⟨hopen, hlate⟩ := hpasses
    have tick : Tick deadline ⟨t, collector⟩ _ := .cut f hroom awaits hopen hlate
    have w := (tick.sound h).wellFormed
    have hsettled := Timeline.settle_settles w
    have hless : (({ t with now := deadline } : Timeline).happen .cancel).batch.pending <
        t.batch.pending := by
      simp [Timeline.happen, step?, pending, hopen]
    exact ⟨_, rfl, (settle_ticks w hroom).head tick, hsettled.quiet,
      Nat.lt_of_le_of_lt (hsettled.pending_le w) hless⟩
  case isFalse hwaits =>
    have hearly : t.batch.cancelled = true ∨ t.due f < deadline := by
      simpa [or_iff_not_imp_left] using hwaits
    have tick : Tick deadline ⟨t, collector⟩ _ := .wait f hroom awaits hearly
    have w : ({ t with now := t.due f } : Timeline).batch.WellFormed := h.wellFormed
    have hland : ({ t with now := t.due f } : Timeline).landing? =
        some (.finish f.position (t.script f.url).2) :=
      Timeline.landing?_eq_some.mpr ⟨f, hfirst, Nat.le_refl _, rfl⟩
    exact ⟨_, rfl, (settle_ticks w hroom).head tick, (Timeline.settle_settles w).quiet,
      Timeline.settle_pending_lt w hland⟩

-- The first part of a turn takes all there is to take, and settles
theorem drain_settle (h : r.Sound deadline) (hroom : r.drain.collector.isFull = false)
    (hs : s = ⟨r.drain.timeline.settle, r.drain.collector⟩) :
    Ticks deadline r s ∧ s.timeline.ready? = none ∧
      s.timeline.batch.pending + r.timeline.batch.channel.length ≤ r.timeline.batch.pending := by
  subst hs
  have hdrains : r.Drains deadline r.drain := r.drain_drains
  have w := (hdrains.ticks.sound h).wellFormed
  have hsettled := Timeline.settle_settles w
  have hless := hsettled.pending_le w
  have htaken : r.drain.timeline.batch.pending + r.timeline.batch.channel.length =
      r.timeline.batch.pending := by
    rw [hdrains.emptied hroom]
    simp only [pending, List.length_nil]
    omega
  exact ⟨hdrains.ticks.trans (settle_ticks w hroom), hsettled.quiet, by simp only; omega⟩

-- A run goes by ticks, whatever its budget
theorem finishWith_ticks (fuel : Nat) (h : r.Sound deadline) :
    Ticks deadline r (finishWith deadline fuel r) := by
  induction fuel generalizing r with
  | zero => exact .refl
  | succ fuel ih =>
      simp only [finishWith]
      split
      case isTrue hfull => exact r.drain_drains.ticks
      case isFalse hroom =>
        have hroom : r.drain.collector.isFull = false := by simpa using hroom
        obtain ⟨ticks, hquiet, _⟩ := drain_settle h hroom rfl
        have hsound := ticks.sound h
        split
        case isTrue hmore => exact ticks.trans (ih hsound)
        case isFalse hnone =>
          split
          case isTrue hend => exact ticks
          case isFalse hgoes =>
            obtain ⟨u, hu, hmoves, _⟩ :=
              advance?_ticks hsound hroom hquiet (by simpa using hnone) (by simpa using hgoes)
            simp only [hu]
            exact (ticks.trans hmoves).trans (ih (hmoves.sound hsound))

-- A run is over when it returns: the budget of turns suffices
theorem finishWith_isOver (fuel : Nat) (h : r.Sound deadline) (hquiet : r.timeline.ready? = none)
    (hfuel : r.timeline.batch.pending < fuel) :
    (finishWith deadline fuel r).gathering.isOver = true := by
  induction fuel generalizing r with
  | zero => omega
  | succ fuel ih =>
      simp only [finishWith]
      split
      case isTrue hfull => simp [isOver, gathering, hfull]
      case isFalse hroom =>
        have hroom : r.drain.collector.isFull = false := by simpa using hroom
        obtain ⟨ticks, hcalm, hless⟩ := drain_settle h hroom rfl
        have hsound := ticks.sound h
        split
        case isTrue hmore =>
          -- something has been taken: a quiet run without outcomes stays as it is
          have hchannel : r.timeline.batch.channel ≠ [] := by
            intro hnil
            rw [drain_of_nil hnil, Timeline.settle_of_quiet hquiet] at hmore
            simp [hnil] at hmore
          have := List.length_pos_iff.mpr hchannel
          exact ih hsound hcalm (by omega)
        case isFalse hnone =>
          split
          case isTrue hend => simp [isOver, gathering, hend]
          case isFalse hgoes =>
            obtain ⟨u, hu, hmoves, hstill, hlt⟩ :=
              advance?_ticks hsound hroom hcalm (by simpa using hnone) (by simpa using hgoes)
            simp only [hu]
            exact ih (hmoves.sound hsound) hstill (by simp only at hless ⊢; omega)

theorem script_initial (script : Script) (ceiling deadline : Nat) (urls : List String)
    (limit : Nat) : (initial script ceiling deadline urls limit).timeline.script = script := by
  unfold initial
  split <;> rfl

theorem Ticks.script_of_initial {script : Script} {ceiling limit : Nat} {urls : List String}
    (ticks : Ticks deadline (initial script ceiling deadline urls limit) r) :
    r.timeline.script = script :=
  ticks.script_eq.trans (script_initial script ceiling deadline urls limit)

-- What a run comes to, the lists can come to in some order of events
theorem Ticks.of_initial {script : Script} {ceiling limit : Nat} {urls : List String}
    (ticks : Ticks deadline (initial script ceiling deadline urls limit) r) :
    Steps script.fetcher (Gathering.start ceiling urls limit) r.gathering := by
  have hsteps := ticks.steps
  rw [script_initial] at hsteps
  refine Relation.ReflTransGen.trans ?_ hsteps
  unfold initial
  split
  · exact .single (.work .cancel _ nofun (goes_cancel rfl))
  · exact .refl

end Run

namespace Generator

open Run

theorem collectDomains_zero (g : Generator) (script : Script) (urls : List String) :
    g.collectDomains script urls 0 = ⟨[], 0, 0, []⟩ := rfl

theorem isFull_empty {limit : Nat} (hlimit : 0 < limit) :
    (Collector.empty limit).isFull = false := by
  simp only [Collector.isFull, Collector.empty, Array.size_empty]
  simpa using Nat.ne_of_gt hlimit

theorem collectDomains_of_pos (g : Generator) (script : Script) (urls : List String) {limit : Nat}
    (hlimit : 0 < limit) :
    g.collectDomains script urls limit =
      ⟨(g.run script urls limit).collector.toList, (g.run script urls limit).timeline.now,
        (g.run script urls limit).timeline.batch.submitted, (g.run script urls limit).reports⟩ := by
  simp [collectDomains, run?, isFull_empty hlimit]

-- It goes by ticks from the beginning, and is over when it returns
theorem run_ticks (script : Script) {ceiling : Nat} (deadline : Nat) (urls : List String)
    {limit : Nat} (hceiling : 0 < ceiling) (hlimit : 0 < limit) :
    Ticks deadline (initial script ceiling deadline urls limit)
        (run ⟨ceiling, deadline⟩ script urls limit) ∧
      (run ⟨ceiling, deadline⟩ script urls limit).gathering.isOver = true := by
  have hsound := sound_initial script deadline urls limit hceiling
  generalize hr : Run.mk (Timeline.start script ceiling urls (deadline == 0))
    (Collector.empty limit) = r
  have hstart : r = ⟨(initial script ceiling deadline urls limit).timeline.settle,
      Collector.empty limit⟩ := by
    simp [← hr, Timeline.start, initial]
  have ticks : Ticks deadline (initial script ceiling deadline urls limit) r :=
    hstart ▸ settle_ticks hsound.wellFormed (isFull_empty hlimit)
  have hquiet : r.timeline.ready? = none :=
    hstart ▸ (Timeline.settle_settles hsound.wellFormed).quiet
  have hsettled := ticks.sound hsound
  have hflag : (!r.timeline.batch.cancelled).toNat ≤ 1 := Bool.toNat_le _
  simp only [run, hr]
  refine ⟨ticks.trans (finishWith_ticks _ hsettled), finishWith_isOver _ hsettled hquiet ?_⟩
  simp only [pending]
  omega

end Generator

end Blocklist.Pool
