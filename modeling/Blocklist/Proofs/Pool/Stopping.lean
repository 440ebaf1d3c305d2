import Blocklist.Proofs.Pool.Gathering
import Blocklist.Proofs.Pool.Settled
-- How a batch stops. A cancellation, a consumer who goes and a call that returns end the
-- submission of URLs for good. After a cancellation the consumer still gets all outcomes of
-- the fetches that had begun, and without a consumer all permits come back.
namespace Blocklist.Pool

open Notes
open scoped List

namespace Batch

variable {fetch : Fetcher} {urls : List String} {notes more : List Note} {first b c : Batch}
  {e : Event} {n : Option Note} {ceiling : Nat}

theorem Trace.append (t : Trace fetch first notes b) (u : Trace fetch b more c) :
    Trace fetch first (notes ++ more) c := by
  induction u with
  | start => simpa using t
  | step e before follows happens ih =>
      rw [← List.append_assoc]
      exact ih.step e follows happens

-- No fetch begins any more, whatever happens
def Frozen (fetch : Fetcher) (b : Batch) : Prop :=
  ∀ more c, Trace fetch b more c →
    begun more = [] ∧ c.queue = b.queue ∧ c.submitted = b.submitted

-- A batch that has been told to stop submits nothing, and stays so
theorem Move.stopped (m : Move fetch b e n c) (hstop : b.cancelled = true ∨ b.dropped = true) :
    begun n.toList = [] ∧ c.queue = b.queue ∧ c.submitted = b.submitted ∧
      (c.cancelled = true ∨ c.dropped = true) := by
  cases m with
  | submit now url queue hqueue hopen hcancel hdrop hfree => simp [hcancel, hdrop] at hstop
  | cancel => exact ⟨rfl, rfl, rfl, .inl rfl⟩
  | drop => exact ⟨rfl, rfl, rfl, .inr rfl⟩
  | _ => exact ⟨rfl, rfl, rfl, hstop⟩

theorem frozen_of_stopped (hstop : b.cancelled = true ∨ b.dropped = true) : Frozen fetch b := by
  intro more c t
  suffices h : (begun more = [] ∧ c.queue = b.queue ∧ c.submitted = b.submitted) ∧
      (c.cancelled = true ∨ c.dropped = true) from h.1
  induction t with
  | start => exact ⟨⟨rfl, rfl, rfl⟩, hstop⟩
  | step e before follows happens ih =>
      obtain ⟨⟨hbegun, hqueue, hsubmitted⟩, hstill⟩ := ih
      obtain ⟨hnone, hqueue', hsubmitted', hstill'⟩ :=
        (move_of_step? happens follows).stopped hstill
      refine ⟨⟨?_, hqueue'.trans hqueue, hsubmitted'.trans hsubmitted⟩, hstill'⟩
      rw [begun_append, hbegun, hnone, List.append_nil]

-- What the consumer has at the end, if no fetch has begun since some moment: the outcomes
-- of all fetches that had begun until then
theorem Frozen.delivered_perm (h : Frozen fetch b)
    (t : Trace fetch (start ceiling urls) notes b) (u : Trace fetch b more c)
    (hdrop : c.dropped = false) (hend : c.isEnded = true) :
    (delivered (notes ++ more)).Perm ((begun notes).filterMap (·.outcome? fetch)) := by
  have hall := t.append u
  have hbegun : begun (notes ++ more) = begun notes := by
    rw [begun_append, (h more c u).1, List.append_nil]
  rw [← hbegun]
  exact delivered_perm_begun (accounts_trace hall)
    ((wellFormed_start ceiling urls).trace hall) hdrop hend

-- From every batch whose consumer stays the end can be reached
theorem nonempty_schedule (fetch : Fetcher) (w : b.WellFormed) (hceiling : 0 < b.ceiling)
    (hdrop : b.dropped = false) :
    Nonempty (Schedule (fun b c => ∃ e, Goes fetch e b c) (·.isEnded) b) := by
  refine Schedule.nonempty (fun b => b.WellFormed ∧ 0 < b.ceiling ∧ b.dropped = false)
    ⟨w, hceiling, hdrop⟩ ?_
  rintro b ⟨w, hceiling, hdrop⟩ hend
  obtain ⟨e, c, _, g⟩ := can_go fetch w hceiling hdrop hend
  obtain ⟨wc, hsame, hstay⟩ := g.keeps w
  exact ⟨c, ⟨e, g⟩, wc, hsame ▸ hceiling, hstay.trans hdrop⟩

-- And every consumer who keeps pulling reaches it
theorem schedule_ends (w : b.WellFormed) (hdrop : b.dropped = false)
    (s : Schedule (fun b c => ∃ e, Goes fetch e b c) (·.isEnded) b) :
    ∃ k ≤ b.left, (s.state k).isEnded = true ∧ (s.state k).dropped = false ∧
      ∃ more, Trace fetch b more (s.state k) := by
  obtain ⟨k, hk, hend, _, hstay, hmore⟩ := s.ends
    (fun c => c.WellFormed ∧ c.dropped = false ∧ ∃ more, Trace fetch b more c) left
    ⟨w, hdrop, [], .start⟩ fun c d ⟨wc, hstay, more, t⟩ _ ⟨e, g⟩ =>
      ⟨⟨(g.keeps wc).1, (g.keeps wc).2.2.trans hstay, _, t.step e g.follows g.happens⟩,
        g.left_lt wc⟩
  exact ⟨k, hk, hend, hstay, hmore⟩

-- Without a consumer no outcome gets into the channel
theorem Move.dropped_stays (m : Move fetch b e n c) (hdrop : b.dropped = true) :
    c.dropped = true := by
  cases m with
  | drop => rfl
  | _ => exact hdrop

theorem nothing_delivered (w : b.WellFormed) (hdrop : b.dropped = true)
    (t : Trace fetch b more c) : delivered more = [] ∧ c.channel = [] ∧ c.dropped = true := by
  induction t with
  | start => exact ⟨rfl, w.emptied hdrop, hdrop⟩
  | step e before follows happens ih =>
      obtain ⟨hnone, hchannel, hgone⟩ := ih
      have m := move_of_step? happens follows
      have hgone' := m.dropped_stays hgone
      refine ⟨?_, (w.trace (before.step e follows happens)).emptied hgone', hgone'⟩
      have hpull : e ≠ .pull := by
        rintro rfl
        exact isSome_pull.mp (Option.isSome_of_eq_some happens) hchannel
      rw [delivered_append, hnone, m.delivered_eq_nil hpull, List.append_nil]

-- No fetch runs and no outcome waits for the channel
def isIdle (b : Batch) : Bool := b.running.isEmpty && b.waiting.isEmpty

theorem isIdle_iff : b.isIdle = true ↔ b.running = [] ∧ b.waiting = [] := by
  simp [isIdle]

-- Without a consumer a fetch can still finish, and an outcome that waits can be given up
theorem can_idle (fetch : Fetcher) (w : b.WellFormed) (hdrop : b.dropped = true)
    (hbusy : b.isIdle = false) : ∃ c, Own fetch b c := by
  cases hrunning : b.running with
  | cons f running =>
      obtain ⟨hfollows, hsome⟩ := can_finish fetch w (hrunning ▸ List.mem_cons_self (a := f))
      obtain ⟨c, hc⟩ := Option.isSome_iff_exists.mp hsome
      refine ⟨c, .finish f.position (fetch f.position f.url), rfl, ?_, ?_, hfollows, hc⟩
      · rintro ⟨⟩
      · rintro ⟨⟩
  | nil =>
      cases hwaiting : b.waiting with
      | nil => simp [isIdle, hrunning, hwaiting] at hbusy
      | cons o waiting =>
          have hc : b.step? .discard = some
              { b with waiting := waiting, free := b.free + 1, senders := b.senders - 1 } := by
            simp [step?, hwaiting, hdrop]
          refine ⟨_, .discard, rfl, ?_, ?_, trivial, hc⟩
          · rintro ⟨⟩
          · rintro ⟨⟩

-- What its own events keep of a batch without a consumer
theorem Own.keeps (h : Own fetch b c) (w : b.WellFormed) (hdrop : b.dropped = true) :
    c.WellFormed ∧ c.dropped = true ∧ c.work < b.work := by
  obtain ⟨e, hown, g⟩ := h
  exact ⟨(g.keeps w).1, (g.keeps w).2.2.trans hdrop, (own_lt w g.move hown).1⟩

-- The fetches that end are those that were running, as no other begins
theorem ended_perm_running (t : Trace fetch (start ceiling urls) notes b)
    (hstop : Frozen fetch b) (u : Trace fetch b more c) (hidle : c.running = []) :
    (ended more).Perm b.running := by
  have hbefore := (accounts_trace t).flights
  have hafter := (accounts_trace (t.append u)).flights
  rw [hidle, List.nil_append, begun_append, (hstop more c u).1, List.append_nil,
    ended_append] at hafter
  have hsame : (ended notes ++ ended more).Perm (ended notes ++ b.running) :=
    calc ended notes ++ ended more
      _ ~ Notes.begun notes := hafter.symm
      _ ~ b.running ++ ended notes := hbefore
      _ ~ ended notes ++ b.running := List.perm_append_comm
  exact (List.perm_append_left_iff _).mp hsame

-- Without a consumer all running fetches finish, and no permit is kept
theorem idle_after_drop (t : Trace fetch (start ceiling urls) notes b) (hdrop : b.dropped = true) :
    Nonempty (Schedule (Own fetch) isIdle b) ∧
      ∀ s : Schedule (Own fetch) isIdle b,
        ∃ k ≤ b.work, (s.state k).running = [] ∧ (s.state k).waiting = [] ∧
          (s.state k).free = ceiling ∧
          ∃ more, Trace fetch b more (s.state k) ∧ (ended more).Perm b.running := by
  have w := (wellFormed_start ceiling urls).trace t
  refine ⟨?_, fun s => ?_⟩
  · refine Schedule.nonempty (fun c => c.WellFormed ∧ c.dropped = true) ⟨w, hdrop⟩ ?_
    rintro c ⟨wc, hgone⟩ hbusy
    obtain ⟨d, hown⟩ := can_idle fetch wc hgone hbusy
    exact ⟨d, hown, (hown.keeps wc hgone).1, (hown.keeps wc hgone).2.1⟩
  · obtain ⟨k, hk, hidle, wk, _, more, u⟩ := s.ends
      (fun c => c.WellFormed ∧ c.dropped = true ∧ ∃ more, Trace fetch b more c) work
      ⟨w, hdrop, [], .start⟩ fun c d ⟨wc, hgone, more, u⟩ _ hown => by
        obtain ⟨wd, hgone', hlt⟩ := hown.keeps wc hgone
        obtain ⟨e, _, g⟩ := hown
        exact ⟨⟨wd, hgone', _, u.step e g.follows g.happens⟩, hlt⟩
    obtain ⟨hrunning, hwaiting⟩ := isIdle_iff.mp hidle
    have hceiling : (s.state k).ceiling = ceiling := (t.append u).ceiling_eq
    have hpermits := wk.permits
    rw [hrunning, hwaiting, hceiling] at hpermits
    exact ⟨k, hk, hrunning, hwaiting, by simpa using hpermits, more, u,
      ended_perm_running t (frozen_of_stopped (.inr hdrop)) u hrunning⟩

end Batch

-- Where a call that collects domains is: it takes outcomes, it has gone from the stream, or
-- it has returned and cancelled what is left of the batch
inductive Stage where
  | collecting
  | leaving
  | returned
  deriving DecidableEq, Repr

structure Call where
  gathering : Gathering
  stage : Stage

namespace Call

open Batch

def start (ceiling : Nat) (urls : List String) (limit : Nat) : Call :=
  ⟨Gathering.start ceiling urls limit, .collecting⟩

-- A call goes from the stream when no outcome is taken any more, and cancels the batch when
-- it returns. The batch goes on meanwhile, and after that.
inductive Step (fetch : Fetcher) (k : Call) : Call → Prop
  | collect (h : Gathering) (hstage : k.stage = .collecting)
      (step : Gathering.Step fetch k.gathering h) : Step fetch k ⟨h, .collecting⟩
  | leave (c : Batch) (hstage : k.stage = .collecting) (hover : k.gathering.isOver = true)
      (happens : k.gathering.batch.step? .drop = some c) :
      Step fetch k ⟨⟨c, k.gathering.collector⟩, .leaving⟩
  | release (c : Batch) (hstage : k.stage = .leaving)
      (happens : k.gathering.batch.step? .cancel = some c) :
      Step fetch k ⟨⟨c, k.gathering.collector⟩, .returned⟩
  | behind (e : Event) (c : Batch) (hstage : k.stage ≠ .collecting) (hpull : e ≠ .pull)
      (follows : e.Follows fetch k.gathering.batch)
      (happens : k.gathering.batch.step? e = some c) :
      Step fetch k ⟨⟨c, k.gathering.collector⟩, k.stage⟩

abbrev Steps (fetch : Fetcher) : Call → Call → Prop := Relation.ReflTransGen (Step fetch)

variable {fetch : Fetcher} {ceiling limit : Nat} {urls : List String} {k l : Call}

-- A call that does not take outcomes any more has left the stream
def Left (k : Call) : Prop := k.stage ≠ .collecting → k.gathering.batch.dropped = true

theorem Step.left (s : Step fetch k l) (h : k.Left) : l.Left := by
  cases s with
  | collect h hstage step => exact fun hleft => absurd rfl hleft
  | leave c hstage hover happens =>
      cases happens
      exact fun _ => rfl
  | release c hstage happens =>
      cases happens
      exact fun _ => h (by simp [hstage])
  | behind e c hstage hpull follows happens =>
      exact fun _ => (move_of_step? happens follows).dropped_stays (h hstage)

theorem Steps.left (s : Steps fetch k l) (h : k.Left) : l.Left := by
  induction s with
  | refl => exact h
  | tail _ step ih => exact step.left ih

theorem left_start (ceiling : Nat) (urls : List String) (limit : Nat) :
    (start ceiling urls limit).Left := fun h => absurd rfl h

-- From when a call has left the stream, what happens is what happens in its batch
theorem Step.trace (s : Step fetch k l) (hstage : k.stage ≠ .collecting) :
    l.stage ≠ .collecting ∧ ∃ e, e.Follows fetch k.gathering.batch ∧
      k.gathering.batch.step? e = some l.gathering.batch := by
  cases s with
  | collect h hcollects step => exact absurd hcollects hstage
  | leave c hcollects hover happens => exact absurd hcollects hstage
  | release c hleaves happens => exact ⟨by simp, .cancel, trivial, happens⟩
  | behind e c hgone hpull follows happens => exact ⟨hgone, e, follows, happens⟩

theorem Steps.trace (s : Steps fetch k l) (hstage : k.stage ≠ .collecting) :
    ∃ notes, Trace fetch k.gathering.batch notes l.gathering.batch := by
  suffices h : l.stage ≠ .collecting ∧
      ∃ notes, Trace fetch k.gathering.batch notes l.gathering.batch from h.2
  induction s with
  | refl => exact ⟨hstage, [], .start⟩
  | tail _ step ih =>
      obtain ⟨hgone, notes, t⟩ := ih
      obtain ⟨hgone', e, follows, happens⟩ := step.trace hgone
      exact ⟨hgone', _, t.step e follows happens⟩

-- A call that is over can return
theorem can_return (fetch : Fetcher) (hstage : k.stage = .collecting)
    (hover : k.gathering.isOver = true) : ∃ l, Steps fetch k l ∧ l.stage = .returned := by
  have hleave : Step fetch k ⟨⟨_, k.gathering.collector⟩, .leaving⟩ := .leave _ hstage hover rfl
  exact ⟨_, .tail (.single hleave) (.release _ rfl rfl), rfl⟩

end Call

namespace Batch

theorem stops_for_good (fetch : Fetcher) (requested : Nat) (urls : List String) :
    (∀ notes b, Trace fetch (start (effectiveCeiling requested) urls) notes b →
      (b.cancelled = true ∨ b.dropped = true → Frozen fetch b) ∧
      (b.cancelled = true → b.dropped = false →
        (∀ more c, Trace fetch b more c → c.dropped = false → c.isEnded = true →
          (delivered (notes ++ more)).Perm ((begun notes).filterMap (·.outcome? fetch))) ∧
        Nonempty (Schedule (fun b c => ∃ e, Goes fetch e b c) (·.isEnded) b) ∧
        ∀ s : Schedule (fun b c => ∃ e, Goes fetch e b c) (·.isEnded) b,
          ∃ k ≤ b.left, (s.state k).isEnded = true ∧ (s.state k).dropped = false ∧
            ∃ more, Trace fetch b more (s.state k)) ∧
      (b.dropped = true →
        (∀ more c, Trace fetch b more c → delivered more = [] ∧ c.channel = [] ∧
          c.free + c.running.length + c.waiting.length = effectiveCeiling requested) ∧
        Nonempty (Schedule (Own fetch) isIdle b) ∧
        ∀ s : Schedule (Own fetch) isIdle b,
          ∃ k ≤ b.work, (s.state k).running = [] ∧ (s.state k).waiting = [] ∧
            (s.state k).free = effectiveCeiling requested ∧
            ∃ more, Trace fetch b more (s.state k) ∧ (ended more).Perm b.running)) ∧
    ∀ limit k, Call.Steps fetch (Call.start (effectiveCeiling requested) urls limit) k →
      (k.stage = .collecting → k.gathering.isOver = true →
        ∃ l, Call.Steps fetch k l ∧ l.stage = .returned) ∧
      (k.stage = .returned → Frozen fetch k.gathering.batch ∧
        ∀ l, Call.Steps fetch k l →
          l.gathering.batch.queue = k.gathering.batch.queue ∧
            l.gathering.batch.submitted = k.gathering.batch.submitted) := by
  refine ⟨fun notes b t => ⟨frozen_of_stopped, fun hcancel hdrop => ?_, fun hdrop => ?_⟩,
    fun limit k s => ⟨Call.can_return fetch, fun hstage => ?_⟩⟩
  · have w := (wellFormed_start (effectiveCeiling requested) urls).trace t
    have hfrozen : Frozen fetch b := frozen_of_stopped (.inl hcancel)
    refine ⟨fun more c u hstay hend => hfrozen.delivered_perm t u hstay hend, ?_,
      schedule_ends w hdrop⟩
    exact nonempty_schedule fetch w (t.ceiling_eq ▸ effectiveCeiling_pos requested) hdrop
  · have w := (wellFormed_start (effectiveCeiling requested) urls).trace t
    refine ⟨fun more c u => ?_, idle_after_drop t hdrop⟩
    obtain ⟨hnone, hchannel, _⟩ := nothing_delivered w hdrop u
    have hpermits := (w.trace u).permits
    rw [(t.append u).ceiling_eq] at hpermits
    exact ⟨hnone, hchannel, hpermits⟩
  · have hgone : k.stage ≠ .collecting := by simp [hstage]
    have hfrozen : Frozen fetch k.gathering.batch :=
      frozen_of_stopped (.inr (s.left (Call.left_start _ urls limit) hgone))
    refine ⟨hfrozen, fun l u => ?_⟩
    obtain ⟨notes, t⟩ := u.trace hgone
    exact (hfrozen notes _ t).2

end Batch

end Blocklist.Pool
