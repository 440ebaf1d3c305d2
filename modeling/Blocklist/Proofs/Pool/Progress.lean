import Blocklist.Proofs.Pool.Delivery
import Mathlib.Logic.Function.Iterate
import Mathlib.Tactic.Choose
-- A batch comes to its end. As long as the stream has not ended something can happen, and
-- each event uses up some of what is left to do, so that a consumer who keeps taking
-- outcomes sees the end after a number of events that the number of URLs bounds.
namespace Blocklist.Pool

-- The events that bring a batch nearer to its end while the consumer is there. Crashes
-- need not be reported for that.
def Event.isAdvance : Event → Bool
  | .submit _ | .stop | .finish _ _ | .handOver | .pull => true
  | .discard | .report | .cancel | .drop => false

-- The events that a batch has by itself, neither from its consumer nor from a cancellation
def Event.isOwn : Event → Bool
  | .submit _ | .stop | .finish _ _ | .handOver | .discard | .report => true
  | .pull | .cancel | .drop => false

-- A schedule: the states that steps lead through, one after the other, until it is over
structure Schedule {α : Type} (step : α → α → Prop) (done : α → Bool) (first : α) where
  state : Nat → α
  starts : state 0 = first
  goesOn : ∀ k, done (state k) = true ∨ step (state k) (state (k + 1))

namespace Schedule

variable {α : Type} {step : α → α → Prop} {done : α → Bool} {first : α}

-- A schedule is over in time if each step keeps an invariant and lowers a measure
theorem ends (s : Schedule step done first) (invariant : α → Prop) (measure : α → Nat)
    (hfirst : invariant first)
    (hstep : ∀ a b, invariant a → done a = false → step a b →
      invariant b ∧ measure b < measure a) :
    ∃ k ≤ measure first, done (s.state k) = true ∧ invariant (s.state k) := by
  have hfrom : ∀ m k, measure (s.state k) = m → invariant (s.state k) →
      ∃ j ≤ k + m, done (s.state j) = true ∧ invariant (s.state j) := by
    intro m
    induction m using Nat.strongRecOn with
    | ind m ih =>
        intro k hm hinv
        cases hdone : done (s.state k) with
        | true => exact ⟨k, Nat.le_add_right k m, hdone, hinv⟩
        | false =>
            have hgo := (s.goesOn k).resolve_left (by simp [hdone])
            obtain ⟨hnext, hlt⟩ := hstep _ _ hinv hdone hgo
            obtain ⟨j, hj, hend⟩ := ih _ (hm ▸ hlt) (k + 1) rfl hnext
            exact ⟨j, by omega, hend⟩
  have h := hfrom (measure (s.state 0)) 0 rfl (by rw [s.starts]; exact hfirst)
  simpa only [Nat.zero_add, s.starts] using h

-- There is a schedule if no state that is not the last is stuck
theorem nonempty (invariant : α → Prop) (hfirst : invariant first)
    (hstep : ∀ a, invariant a → done a = false → ∃ b, step a b ∧ invariant b) :
    Nonempty (Schedule step done first) := by
  have hnext : ∀ a, ∃ b, invariant a → (done a = true ∨ step a b) ∧ invariant b := by
    intro a
    by_cases hinv : invariant a
    · cases hdone : done a with
      | true => exact ⟨a, fun _ => ⟨.inl rfl, hinv⟩⟩
      | false =>
          obtain ⟨b, hb, hkept⟩ := hstep a hinv hdone
          exact ⟨b, fun _ => ⟨.inr hb, hkept⟩⟩
    · exact ⟨a, fun h => absurd h hinv⟩
  choose next hnext using hnext
  have hkept : ∀ k, invariant (next^[k] first) := by
    intro k
    induction k with
    | zero => exact hfirst
    | succ k ih => rw [Function.iterate_succ_apply']; exact (hnext _ ih).2
  refine ⟨⟨fun k => next^[k] first, rfl, fun k => ?_⟩⟩
  rw [Function.iterate_succ_apply']
  exact (hnext _ (hkept k)).1

end Schedule

theorem effectiveCeiling_pos (requested : Nat) : 0 < effectiveCeiling requested := by
  unfold effectiveCeiling fallbackCeiling
  split <;> omega

namespace Batch

open Notes

variable {fetch : Fetcher} {urls : List String} {notes : List Note} {b c : Batch} {e : Event}
  {n : Option Note} {ceiling : Nat}

-- A running fetch can finish, with the answer that it comes to
theorem can_finish (fetch : Fetcher) (w : b.WellFormed) {f : Flight} (hf : f ∈ b.running) :
    (Event.finish f.position (fetch f.position f.url)).Follows fetch b ∧
      (b.step? (.finish f.position (fetch f.position f.url))).isSome = true := by
  have hflight := w.flight?_of_mem hf
  refine ⟨fun g hg => ?_, ?_⟩
  · rw [hflight] at hg
    cases hg
    rfl
  · rw [isSome_finish, hflight]
    rfl

-- A batch is never stuck. What waits for the channel can go in once the channel is empty,
-- and when nothing waits or runs all permits are free.
theorem can_advance (fetch : Fetcher) (w : b.WellFormed) (hceiling : 0 < b.ceiling)
    (hdrop : b.dropped = false) (hend : b.isEnded = false) :
    ∃ e, e.isAdvance = true ∧ e.Follows fetch b ∧ (b.step? e).isSome = true := by
  by_cases hchannel : b.channel = []
  case neg => exact ⟨.pull, rfl, trivial, isSome_pull.mpr hchannel⟩
  by_cases hwaiting : b.waiting = []
  case neg =>
    refine ⟨.handOver, rfl, trivial, isSome_handOver.mpr ⟨hwaiting, hdrop, ?_⟩⟩
    simpa [hchannel] using hceiling
  cases hrunning : b.running with
  | cons f running =>
      obtain ⟨hfollows, hsome⟩ := can_finish fetch w (hrunning ▸ List.mem_cons_self (a := f))
      exact ⟨_, rfl, hfollows, hsome⟩
  | nil =>
      have hpermits := w.permits
      have hsenders := w.senders
      simp only [hrunning, hwaiting, List.length_nil, Nat.add_zero] at hpermits hsenders
      have hopen : b.submitting = true := by
        by_contra hclosed
        simp [isEnded, hdrop, hchannel, hsenders, hclosed] at hend
      by_cases hstop : b.cancelled = true ∨ b.dropped = true ∨ b.queue = []
      · exact ⟨.stop, rfl, trivial, isSome_stop.mpr ⟨hopen, hstop⟩⟩
      · simp only [not_or, Bool.not_eq_true] at hstop
        exact ⟨.submit 0, rfl, trivial,
          isSome_submit.mpr ⟨hstop.2.2, hopen, hstop.1, hdrop, hpermits ▸ hceiling⟩⟩

-- Each of its own events brings a batch nearer to its end
theorem own_lt (w : b.WellFormed) (m : Move fetch b e n c) (hown : e.isOwn = true) :
    c.work < b.work ∧ c.work + c.channel.length < b.work + b.channel.length := by
  cases m with
  | submit now url queue hqueue hopen hcancel hdrop hfree =>
      simp only [work, hqueue, List.length_cons, List.length_append, List.length_nil]
      omega
  | stop hopen hreason =>
      simp only [work, hopen, Bool.toNat_true, Bool.toNat_false]
      omega
  | land f body hf hanswer =>
      have hlength := (w.remaining hf).2.2
      simp only [land] at hlength
      simp only [work, land, List.length_append, List.length_cons, List.length_nil]
      omega
  | crash f reason hf hanswer =>
      have hlength := (w.remaining hf).2.2
      simp only [land] at hlength
      simp only [work, land, List.length_append, List.length_cons, List.length_nil]
      omega
  | handOver o waiting hwaiting hdrop hroom =>
      simp only [work, hwaiting, List.length_append, List.length_cons, List.length_nil]
      omega
  | discard o waiting hwaiting hdrop =>
      simp only [work, hwaiting, List.length_cons]
      omega
  | report crash crashes hcrashes hopen =>
      simp only [work, hcrashes, List.length_cons]
      omega
  | pull o channel hchannel => cases hown
  | cancel => cases hown
  | drop => cases hown

-- What is left to do in a batch, with the consumer's part and a cancellation
def left (b : Batch) : Nat := b.work + b.channel.length + (!b.cancelled).toNat

theorem left_start (ceiling : Nat) (urls : List String) :
    (start ceiling urls).left = 4 * urls.length + 2 := by
  simp [left, work, start]

-- One event of a batch whose consumer stays. To cancel once more is no event.
structure Goes (fetch : Fetcher) (e : Event) (b c : Batch) : Prop where
  stays : e ≠ .drop
  once : e = .cancel → b.cancelled = false
  follows : e.Follows fetch b
  happens : b.step? e = some c

theorem Goes.move (g : Goes fetch e b c) : Move fetch b e (b.note? e) c :=
  move_of_step? g.happens g.follows

theorem Goes.left_lt (g : Goes fetch e b c) (w : b.WellFormed) : c.left < b.left := by
  obtain ⟨n, m⟩ : ∃ n, Move fetch b e n c := ⟨_, g.move⟩
  unfold left
  cases hown : e.isOwn with
  | true =>
      have hlt := (own_lt w m hown).2
      rw [m.cancelled_eq (by rintro rfl; cases hown)]
      omega
  | false =>
      cases m with
      | pull o channel hchannel => simp [work, hchannel]
      | cancel => simp [g.once rfl, work]
      | drop => exact absurd rfl g.stays
      | _ => cases hown

-- What a batch keeps while its consumer stays
theorem Goes.keeps (g : Goes fetch e b c) (w : b.WellFormed) :
    c.WellFormed ∧ c.ceiling = b.ceiling ∧ c.dropped = b.dropped :=
  ⟨w.move g.move, g.move.ceiling_eq, g.move.dropped_eq g.stays⟩

-- Nothing needs to be cancelled for a batch to go on
theorem can_go (fetch : Fetcher) (w : b.WellFormed) (hceiling : 0 < b.ceiling)
    (hdrop : b.dropped = false) (hend : b.isEnded = false) :
    ∃ e c, e ≠ .cancel ∧ Goes fetch e b c := by
  obtain ⟨e, hadvance, hfollows, hsome⟩ := can_advance fetch w hceiling hdrop hend
  obtain ⟨c, hc⟩ := Option.isSome_iff_exists.mp hsome
  have hcancel : e ≠ .cancel := by rintro rfl; cases hadvance
  have hstays : e ≠ .drop := by rintro rfl; cases hadvance
  exact ⟨e, c, hcancel, hstays, fun he => absurd he hcancel, hfollows, hc⟩

theorem stream_ends (fetch : Fetcher) (requested : Nat) (urls : List String) :
    (∀ notes b, Trace fetch (start (effectiveCeiling requested) urls) notes b →
      b.dropped = false →
      (b.isEnded = true → b.running = [] ∧ b.waiting = [] ∧ b.channel = [] ∧
        (delivered notes).Perm ((begun notes).filterMap (·.outcome? fetch))) ∧
      (b.isEnded = false →
        ∃ e, e.isAdvance = true ∧ e.Follows fetch b ∧ (b.step? e).isSome = true)) ∧
    Nonempty (Schedule (fun b c => ∃ e, Goes fetch e b c) (·.isEnded)
      (start (effectiveCeiling requested) urls)) ∧
    ∀ s : Schedule (fun b c => ∃ e, Goes fetch e b c) (·.isEnded)
        (start (effectiveCeiling requested) urls),
      ∃ k ≤ 4 * urls.length + 2, (s.state k).isEnded = true := by
  have hpositive := effectiveCeiling_pos requested
  have hstart := wellFormed_start (effectiveCeiling requested) urls
  refine ⟨fun notes b t hdrop => ⟨fun hend => ?_, fun hend => ?_⟩, ?_, fun s => ?_⟩
  · have w := hstart.trace t
    obtain ⟨_, hrunning, hwaiting, hchannel⟩ := w.nothing_left hdrop hend
    exact ⟨hrunning, hwaiting, hchannel, delivered_perm_begun (accounts_trace t) w hdrop hend⟩
  · exact can_advance fetch (hstart.trace t) (t.ceiling_eq ▸ hpositive) hdrop hend
  · refine Schedule.nonempty
      (fun b => b.WellFormed ∧ 0 < b.ceiling ∧ b.dropped = false) ⟨hstart, hpositive, rfl⟩ ?_
    rintro b ⟨w, hceiling, hdrop⟩ hend
    obtain ⟨e, c, _, g⟩ := can_go fetch w hceiling hdrop hend
    obtain ⟨wc, hsame, hstay⟩ := g.keeps w
    exact ⟨c, ⟨e, g⟩, wc, hsame ▸ hceiling, hstay.trans hdrop⟩
  · obtain ⟨k, hk, hend, _⟩ := s.ends WellFormed left hstart fun b c w _ ⟨e, g⟩ =>
      ⟨(g.keeps w).1, g.left_lt w⟩
    exact ⟨k, left_start (effectiveCeiling requested) urls ▸ hk, hend⟩

end Batch

end Blocklist.Pool
