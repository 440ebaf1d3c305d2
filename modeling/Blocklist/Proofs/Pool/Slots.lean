import Blocklist.Proofs.Pool.Deadline
-- The slots of a run that keeps taking outcomes. A fetch begins as soon as it can: at every
-- earlier moment the fetches before it filled all slots. So when fetches begin depends on
-- nothing but how long those before them take.
namespace Blocklist.Pool

open Batch Notes

-- How many of these fetches have not finished by then
def Script.busy (script : Script) (flights : List Flight) (time : Nat) : Nat :=
  flights.countP fun f => time < f.began + (script f.url).1

-- From when all of these fetches have begun they fill the slots until then
def Script.Fills (script : Script) (slots : Nat) (flights : List Flight) (until_ : Nat) : Prop :=
  ∀ time, (∀ f ∈ flights, f.began ≤ time) → time < until_ → slots ≤ script.busy flights time

namespace Run

variable {script : Script} {ceiling deadline limit : Nat} {urls : List String} {r s : Run}
  {t : Timeline} {e : Event} {n : Option Note} {c : Batch} {f : Flight}

-- The fetches of a timeline begin one after the other, each in a slot, and as soon as there
-- is one. As long as a URL is left there is none, or the deadline has come.
structure Eager (deadline : Nat) (t : Timeline) : Prop where
  past : ∀ f ∈ begun t.history, f.began ≤ t.now
  each : ∀ before f after, begun t.history = before ++ f :: after →
    (∀ g ∈ before, g.began ≤ f.began) ∧ t.script.busy before f.began < t.batch.ceiling ∧
      t.script.Fills t.batch.ceiling before f.began
  last : t.batch.queue ≠ [] →
    t.script.Fills t.batch.ceiling (begun t.history) (min t.now deadline)

theorem eager_initial (script : Script) (ceiling deadline : Nat) (urls : List String)
    (limit : Nat) : Eager deadline (initial script ceiling deadline urls limit).timeline := by
  have hnone : begun (initial script ceiling deadline urls limit).timeline.history = [] := by
    rw [history_initial]
    rfl
  have hnow : (initial script ceiling deadline urls limit).timeline.now = 0 := by
    unfold initial
    split <;> rfl
  refine ⟨by simp [hnone], ?_, ?_⟩
  · intro before f after hsplit
    rw [hnone] at hsplit
    simp at hsplit
  · intro _ time _ hless
    omega

-- Of the fetches so far only those that run are busy
theorem busy_begun {fetch : Fetcher} (haccounts : Accounts fetch urls t.history t.batch)
    (htimely : Timely deadline t) {time : Nat} (hnow : t.now ≤ time) :
    t.script.busy (begun t.history) time = t.script.busy t.batch.running time := by
  have hended : t.script.busy (ended t.history) time = 0 := by
    refine List.countP_eq_zero.mpr fun g hg => ?_
    have hdue : g.began + (t.script g.url).1 ≤ t.now := htimely.due_le_now hg
    simp only [decide_eq_true_eq]
    omega
  rw [Script.busy, haccounts.flights.countP_eq, List.countP_append, ← Script.busy, ← Script.busy,
    hended, Nat.add_zero]

-- While a URL is left and the run waits, every slot has a running fetch
theorem length_running_of_quiet (w : t.batch.WellFormed) (hstay : t.batch.dropped = false)
    (hopen : t.batch.cancelled = false) (hqueue : t.batch.queue ≠ []) (awaits : t.Awaits f) :
    t.batch.running.length = t.batch.ceiling := by
  have hfree := w.free_eq_zero hopen hstay hqueue (Timeline.ready?_eq_none awaits.quiet).2.2.2
  have hpermits := w.permits
  rw [hfree, awaits.waiting, List.length_nil] at hpermits
  omega

-- They stay there until the first of them finishes
theorem ceiling_le_busy {fetch : Fetcher} (haccounts : Accounts fetch urls t.history t.batch)
    (htimely : Timely deadline t) (awaits : t.Awaits f)
    (hlength : t.batch.running.length = t.batch.ceiling) {time : Nat} (hnow : t.now ≤ time)
    (htime : time < t.due f) : t.batch.ceiling ≤ t.script.busy (begun t.history) time := by
  have hall : t.script.busy t.batch.running time = t.batch.running.length := by
    refine List.countP_eq_length.mpr fun g hg => ?_
    have hdue : t.due f ≤ g.began + (t.script g.url).1 := awaits.first g hg
    simp only [decide_eq_true_eq]
    omega
  rw [busy_begun haccounts htimely hnow, hall, hlength]

-- No fetch begins except by being submitted
theorem begun_of_move {fetch : Fetcher} {b : Batch} (m : Move fetch b e n c)
    (hsubmit : ∀ now, e ≠ .submit now) : begun n.toList = [] ∧ c.queue = b.queue := by
  cases m with
  | submit now url queue hqueue hopen hcancel hdrop hfree => exact absurd rfl (hsubmit now)
  | _ => exact ⟨rfl, rfl⟩

theorem Eager.pass {fetch : Fetcher} (h : Eager deadline t) (m : Move fetch t.batch e n c)
    (hsubmit : ∀ now, e ≠ .submit now) : Eager deadline (t.record n c) := by
  obtain ⟨hnone, hqueue⟩ := begun_of_move m hsubmit
  have hbegun : begun (t.record n c).history = begun t.history := by simp [hnone]
  refine ⟨?_, ?_, ?_⟩
  · rw [hbegun]
    exact h.past
  · rw [hbegun, Timeline.record_batch, m.ceiling_eq]
    exact h.each
  · rw [hbegun, Timeline.record_batch, m.ceiling_eq, hqueue]
    exact h.last

-- A fetch that is submitted finds a slot, and until this moment there was none
theorem Eager.submit {fetch : Fetcher} (h : Eager deadline t) (w : t.batch.WellFormed)
    (haccounts : Accounts fetch urls t.history t.batch) (htimely : Timely deadline t)
    (hearly : t.batch.cancelled = false → t.now < deadline)
    (m : Move fetch t.batch (.submit t.now) n c) : Eager deadline (t.record n c) := by
  cases m with
  | submit now url queue hqueue hopen hcancel hdrop hfree =>
      have hnow := hearly hcancel
      have hslot : t.script.busy (begun t.history) t.now < t.batch.ceiling := by
        have hrunning : t.script.busy t.batch.running t.now ≤ t.batch.running.length :=
          List.countP_le_length
        have hpermits := w.permits
        rw [busy_begun haccounts htimely (Nat.le_refl _)]
        omega
      have hfills := h.last (by simp [hqueue])
      rw [Nat.min_eq_left (Nat.le_of_lt hnow)] at hfills
      refine ⟨?_, ?_, ?_⟩
      · intro f hf
        rw [Timeline.record_history, begun_append] at hf
        rcases List.mem_append.mp hf with hf | hf
        · exact h.past f hf
        · rw [show f = _ from List.mem_singleton.mp hf]
          exact Nat.le_refl _
      · intro before f after hsplit
        rw [Timeline.record_history, begun_append] at hsplit
        rcases append_cons_eq_append_singleton hsplit.symm with ⟨rfl, rfl⟩ | ⟨rest, hrest⟩
        · exact ⟨h.past, hslot, hfills⟩
        · exact h.each before f rest hrest
      · intro _ time hbegan hless
        have hlast := hbegan ⟨t.batch.submitted, url, t.now⟩ (by simp [Notes.begun])
        simp only [Timeline.record_now] at hlast hless
        omega

-- The clock may go on until a running fetch finishes, and past the deadline
theorem Eager.later (h : Eager deadline t) {u : Timeline} (hhistory : u.history = t.history)
    (hscript : u.script = t.script) (hceiling : u.batch.ceiling = t.batch.ceiling)
    (hqueue : u.batch.queue = t.batch.queue) (hnow : t.now ≤ u.now)
    (hfills : t.batch.queue ≠ [] → ∀ time, t.now ≤ time → time < min u.now deadline →
      t.batch.ceiling ≤ t.script.busy (begun t.history) time) : Eager deadline u := by
  refine ⟨?_, ?_, ?_⟩
  · intro f hf
    exact (h.past f (hhistory ▸ hf)).trans hnow
  · rw [hhistory, hscript, hceiling]
    exact h.each
  · rw [hhistory, hscript, hceiling, hqueue]
    intro hleft time hbegan hless
    by_cases hpassed : time < t.now
    · exact h.last hleft time hbegan (by omega)
    · exact hfills hleft time (Nat.le_of_not_lt hpassed) hless

theorem Tick.eager (tick : Tick deadline r s) (hsound : r.Sound deadline)
    (hrecord : r.Recorded ceiling urls limit) (htimely : Timely deadline r.timeline)
    (h : Eager deadline r.timeline) : Eager deadline s.timeline := by
  have w := hsound.wellFormed
  have haccounts := accounts_trace hrecord.trace
  cases tick with
  | own e c hroom hready hown goes =>
      rw [Timeline.happen_eq_record goes.happens]
      by_cases hsubmit : ∃ now, e = .submit now
      · obtain ⟨now, rfl⟩ := hsubmit
        obtain rfl := Timeline.now_of_ready? hready
        exact h.submit w haccounts htimely hsound.now_lt goes.move
      · exact h.pass goes.move fun now he => hsubmit ⟨now, he⟩
  | take o channel hroom hchannel =>
      rw [Timeline.happen_eq_record (step?_pull hchannel)]
      have goes : Goes r.timeline.script.fetcher .pull r.timeline.batch _ := goes_pull hchannel
      exact h.pass goes.move nofun
  | cut f hroom awaits hopen hlate =>
      have hnow := hsound.now_lt hopen
      refine h.later rfl rfl rfl rfl (Nat.le_of_lt hnow) ?_
      intro hqueue time hfrom hless
      have hlength := length_running_of_quiet w hsound.stays hopen hqueue awaits
      have hless : time < min deadline deadline := hless
      exact ceiling_le_busy haccounts htimely awaits hlength hfrom (by omega)
  | wait f hroom awaits hearly =>
      refine h.later rfl rfl rfl rfl (Nat.le_of_lt awaits.later) ?_
      intro hqueue time hfrom hless
      have hless : time < min (r.timeline.due f) deadline := hless
      cases hcancel : r.timeline.batch.cancelled with
      | true =>
          have hlate := hsound.clock.mp hcancel
          omega
      | false =>
          have hlength := length_running_of_quiet w hsound.stays hcancel hqueue awaits
          exact ceiling_le_busy haccounts htimely awaits hlength hfrom (by omega)

theorem Ticks.eager (ticks : Ticks deadline (initial script ceiling deadline urls limit) r)
    (hceiling : 0 < ceiling) (hlimit : 0 < limit) : Eager deadline r.timeline := by
  induction ticks with
  | refl => exact eager_initial script ceiling deadline urls limit
  | tail before tick ih =>
      obtain ⟨hsound, hrecord, htimely, _⟩ := Ticks.prompt before hceiling hlimit
      exact tick.eager hsound hrecord htimely ih

end Run

end Blocklist.Pool
