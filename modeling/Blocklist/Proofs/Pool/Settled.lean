import Blocklist.Pool.Timeline
import Blocklist.Proofs.Pool.Progress
import Mathlib.Logic.Relation
-- A batch against a clock does nothing that a batch cannot do by itself, and when it has
-- settled nothing is left that could happen before a fetch finishes or the consumer acts.
namespace Blocklist.Pool

-- The fetcher of a script. A URL comes to the same at each place.
def Script.fetcher (script : Script) : Fetcher := fun _ url => (script url).2

-- One of a batch's own events
def Batch.Own (fetch : Fetcher) (b c : Batch) : Prop :=
  ∃ e : Event, e.isOwn = true ∧ Batch.Goes fetch e b c

namespace Batch

variable {fetch : Fetcher} {b c : Batch} {e : Event} {n : Option Note}

-- What is left for the clock and the consumer: fetches to finish, outcomes to take and a
-- cancellation
def pending (b : Batch) : Nat :=
  2 * b.queue.length + 2 * b.running.length + b.waiting.length + b.channel.length +
    (!b.cancelled).toNat

-- Its own events do not add to that, and the end of a fetch takes away from it
theorem own_pending (w : b.WellFormed) (m : Move fetch b e n c) (hown : e.isOwn = true) :
    c.pending ≤ b.pending ∧ ∀ position answer, e = .finish position answer →
      c.pending < b.pending := by
  cases m with
  | submit now url queue hqueue hopen hcancel hdrop hfree =>
      refine ⟨?_, fun _ _ he => by cases he⟩
      simp only [pending, hqueue, List.length_cons, List.length_append, List.length_nil]
      omega
  | land f body hf hanswer =>
      have hlength := (w.remaining hf).2.2
      simp only [land] at hlength
      simp only [pending, land, List.length_append, List.length_cons, List.length_nil]
      exact ⟨by omega, fun _ _ _ => by omega⟩
  | crash f reason hf hanswer =>
      have hlength := (w.remaining hf).2.2
      simp only [land] at hlength
      simp only [pending, land]
      exact ⟨by omega, fun _ _ _ => by omega⟩
  | handOver o waiting hwaiting hdrop hroom =>
      refine ⟨?_, fun _ _ he => by cases he⟩
      simp only [pending, hwaiting, List.length_append, List.length_cons, List.length_nil]
      omega
  | discard o waiting hwaiting hdrop =>
      refine ⟨?_, fun _ _ he => by cases he⟩
      simp only [pending, hwaiting, List.length_cons]
      omega
  | stop hopen hreason => exact ⟨Nat.le_refl _, fun _ _ he => by cases he⟩
  | report crash crashes hcrashes hopen => exact ⟨Nat.le_refl _, fun _ _ he => by cases he⟩
  | pull o channel hchannel => cases hown
  | cancel => cases hown
  | drop => cases hown

-- What a batch keeps through any number of its own events
theorem own_keeps (h : Relation.ReflTransGen (Own fetch) b c) (w : b.WellFormed) :
    c.WellFormed ∧ c.cancelled = b.cancelled ∧ c.pending ≤ b.pending := by
  induction h with
  | refl => exact ⟨w, rfl, Nat.le_refl _⟩
  | tail _ step ih =>
      obtain ⟨e, hown, goes⟩ := step
      obtain ⟨wm, hcancel, hpending⟩ := ih
      have hcancel' := goes.move.cancelled_eq (by rintro rfl; cases hown)
      have hpending' := (own_pending wm goes.move hown).1
      exact ⟨(goes.keeps wm).1, hcancel'.trans hcancel, Nat.le_trans hpending' hpending⟩

end Batch

namespace Timeline

open Batch

variable {t : Timeline} {e : Event} {f : Flight}

theorem earlier_eq (t : Timeline) (f g : Flight) : t.earlier f g = f ∨ t.earlier f g = g := by
  unfold earlier
  split
  · exact .inr rfl
  · exact .inl rfl

theorem foldl_earlier_mem (t : Timeline) (rest : List Flight) (f : Flight) :
    rest.foldl t.earlier f ∈ f :: rest := by
  induction rest generalizing f with
  | nil => exact List.mem_singleton_self f
  | cons g rest ih =>
      rcases t.earlier_eq f g with h | h
      · have := ih f
        simp only [List.foldl_cons, h, List.mem_cons] at this ⊢
        tauto
      · have := ih g
        simp only [List.foldl_cons, h]
        exact List.mem_cons_of_mem f this

-- The fetch that finishes first is a running one, and there is one if any fetch runs
theorem mem_running_of_first? (h : t.first? = some f) : f ∈ t.batch.running := by
  unfold first? at h
  split at h
  · cases h
  · rename_i g rest hrunning
    cases h
    exact hrunning ▸ foldl_earlier_mem t rest g

theorem exists_first? (h : t.batch.running ≠ []) : ∃ f, t.first? = some f := by
  obtain ⟨f, rest, hrunning⟩ := List.exists_cons_of_ne_nil h
  exact ⟨rest.foldl t.earlier f, by simp [first?, hrunning]⟩

theorem happen_of_step? {c : Batch} (h : t.batch.step? e = some c) :
    (t.happen e).batch = c ∧ (t.happen e).script = t.script ∧ (t.happen e).now = t.now := by
  simp [happen, h]

theorem landing?_eq_some : t.landing? = some e ↔
    ∃ f, t.first? = some f ∧ t.due f ≤ t.now ∧ e = .finish f.position (t.script f.url).2 := by
  cases hfirst : t.first? with
  | none => simp [landing?, hfirst]
  | some f => simp [landing?, hfirst, eq_comm]

theorem landing?_eq_none : t.landing? = none ↔ ∀ f, t.first? = some f → t.now < t.due f := by
  cases hfirst : t.first? with
  | none => simp [landing?, hfirst]
  | some f => simp [landing?, hfirst]

-- The end of a fetch that is due comes from the batch itself
theorem goes_of_landing? (w : t.batch.WellFormed) (h : t.landing? = some e) :
    ∃ c, Goes t.script.fetcher e t.batch c := by
  obtain ⟨f, hfirst, _, rfl⟩ := landing?_eq_some.mp h
  obtain ⟨hfollows, hsome⟩ := can_finish t.script.fetcher w (mem_running_of_first? hfirst)
  obtain ⟨c, hc⟩ := Option.isSome_iff_exists.mp hsome
  exact ⟨c, nofun, nofun, hfollows, hc⟩

-- What is ready is the end of a fetch that is due, or an event that needs no answer
theorem ready?_cases (h : t.ready? = some e) :
    t.landing? = some e ∨ (t.landing? = none ∧ (t.batch.step? e).isSome = true ∧
      (e = .discard ∨ e = .handOver ∨ e = .stop ∨ e = .submit t.now ∨ e = .report)) := by
  simp only [ready?, Option.or_eq_some_iff, Option.map_eq_some_iff] at h
  rcases h with h | ⟨hland, h⟩
  · exact .inl h
  · refine .inr ⟨hland, ?_⟩
    rcases h with ⟨c, hc, rfl⟩ | ⟨_, ⟨c, hc, rfl⟩ | ⟨_, ⟨c, hc, rfl⟩ | ⟨_, ⟨c, hc, rfl⟩ |
      ⟨_, c, hc, rfl⟩⟩⟩⟩ <;> simp [hc]

theorem ready?_eq_none (h : t.ready? = none) :
    t.landing? = none ∧ t.batch.step? .handOver = none ∧ t.batch.step? .stop = none ∧
      t.batch.step? (.submit t.now) = none := by
  simp only [ready?, Option.or_eq_none_iff, Option.map_eq_none_iff] at h
  exact ⟨h.1, h.2.2.1, h.2.2.2.1, h.2.2.2.2.1⟩

theorem own_of_ready? (w : t.batch.WellFormed) (h : t.ready? = some e) :
    e.isOwn = true ∧ ∃ c, Goes t.script.fetcher e t.batch c := by
  rcases ready?_cases h with hland | ⟨_, hsome, hkind⟩
  · obtain ⟨f, _, _, rfl⟩ := landing?_eq_some.mp hland
    exact ⟨rfl, goes_of_landing? w hland⟩
  · obtain ⟨c, hc⟩ := Option.isSome_iff_exists.mp hsome
    rcases hkind with rfl | rfl | rfl | rfl | rfl <;>
      exact ⟨rfl, c, nofun, nofun, trivial, hc⟩

-- A timeline has settled into another: the batch went on by itself, and no time passed
structure Settles (t u : Timeline) : Prop where
  owns : Relation.ReflTransGen (Own t.script.fetcher) t.batch u.batch
  quiet : u.ready? = none
  script : u.script = t.script
  now : u.now = t.now

theorem settleWith_settles (fuel : Nat) (t : Timeline) (w : t.batch.WellFormed)
    (hfuel : t.batch.work ≤ fuel) : t.Settles (settleWith fuel t) := by
  induction fuel generalizing t with
  | zero =>
      cases hready : t.ready? with
      | none => exact ⟨.refl, hready, rfl, rfl⟩
      | some e =>
          obtain ⟨hown, c, g⟩ := own_of_ready? w hready
          have := (own_lt w g.move hown).1
          omega
  | succ fuel ih =>
      cases hready : t.ready? with
      | none => simpa [settleWith, hready] using ⟨.refl, hready, rfl, rfl⟩
      | some e =>
          obtain ⟨hown, c, g⟩ := own_of_ready? w hready
          obtain ⟨hbatch, hscript, hnow⟩ := happen_of_step? g.happens
          have hlt := (own_lt w g.move hown).1
          have hsettled := ih (t.happen e) (hbatch ▸ w.move g.move) (by rw [hbatch]; omega)
          simp only [settleWith, hready]
          refine ⟨?_, hsettled.quiet, hsettled.script.trans hscript, hsettled.now.trans hnow⟩
          refine .head ⟨e, hown, g⟩ ?_
          simpa [hbatch, hscript] using hsettled.owns

theorem settle_settles (w : t.batch.WellFormed) : t.Settles t.settle :=
  settleWith_settles t.batch.work t w (Nat.le_refl _)

theorem Settles.cancelled_eq {u : Timeline} (h : t.Settles u) (w : t.batch.WellFormed) :
    u.batch.cancelled = t.batch.cancelled := (own_keeps h.owns w).2.1

theorem Settles.pending_le {u : Timeline} (h : t.Settles u) (w : t.batch.WellFormed) :
    u.batch.pending ≤ t.batch.pending := (own_keeps h.owns w).2.2

theorem settle_of_quiet (h : t.ready? = none) : t.settle = t := by
  unfold settle
  cases t.batch.work <;> simp [settleWith, h]

-- When a fetch is due, settling makes progress
theorem settle_pending_lt (w : t.batch.WellFormed) (h : t.landing? = some e) :
    t.settle.batch.pending < t.batch.pending := by
  obtain ⟨f, _, _, rfl⟩ := landing?_eq_some.mp h
  obtain ⟨c, goes⟩ := goes_of_landing? w h
  obtain ⟨hbatch, _, _⟩ := happen_of_step? goes.happens
  have wc := w.move goes.move
  have hwork := (own_lt w goes.move rfl).1
  have hless := (own_pending w goes.move rfl).2 _ _ rfl
  rw [← hbatch] at wc hwork hless
  obtain ⟨fuel, hfuel⟩ := Nat.exists_eq_succ_of_ne_zero (Nat.ne_zero_of_lt hwork)
  have hrest := settleWith_settles fuel (t.happen _) wc (by omega)
  have hready : t.ready? = some (.finish f.position (t.script f.url).2) := by
    rw [ready?, h]
    rfl
  simp only [settle, hfuel, settleWith, hready]
  exact Nat.lt_of_le_of_lt (hrest.pending_le wc) hless

-- When all is quiet and nothing can be taken, fetches are running that are not yet due
theorem waits_of_quiet (w : t.batch.WellFormed) (hceiling : 0 < t.batch.ceiling)
    (hdrop : t.batch.dropped = false) (hquiet : t.ready? = none) (hchannel : t.batch.channel = [])
    (hend : t.batch.isEnded = false) : ∃ f, t.first? = some f ∧ t.now < t.due f := by
  obtain ⟨hland, hhand, hstop, hsubmit⟩ := ready?_eq_none hquiet
  have hrunning : t.batch.running ≠ [] := by
    obtain ⟨e, hadvance, _, hsome⟩ := can_advance t.script.fetcher w hceiling hdrop hend
    cases e with
    | submit now =>
        have hnow : (t.batch.step? (.submit t.now)).isSome = true :=
          isSome_submit.mpr (isSome_submit.mp hsome)
        simp [hsubmit] at hnow
    | stop => simp [hstop] at hsome
    | finish position answer =>
        rw [isSome_finish] at hsome
        obtain ⟨f, hf⟩ := Option.isSome_iff_exists.mp hsome
        exact List.ne_nil_of_mem (mem_running_of_flight? hf).1
    | handOver => simp [hhand] at hsome
    | pull => exact absurd hchannel (isSome_pull.mp hsome)
    | _ => cases hadvance
  obtain ⟨f, hfirst⟩ := exists_first? hrunning
  exact ⟨f, hfirst, landing?_eq_none.mp hland f hfirst⟩

end Timeline

end Blocklist.Pool
