import Blocklist.Pool.Batch
import Mathlib.Data.List.Nodup
import Mathlib.Data.List.Perm.Basic
-- Runs of a batch: events in any order that the batch allows, with what they show to the
-- outside. What one event does is said once, by cases, and a well-formed batch stays so.
namespace Blocklist.Pool

-- What the fetch of the URL at a place comes to. A URL that is listed twice may come to
-- two things.
abbrev Fetcher : Type := Nat → String → Answer

-- The outcome of fetching the URL at a place, if that does not crash
def Fetcher.outcome? (fetch : Fetcher) (position : Nat) (url : String) : Option Outcome :=
  match fetch position url with
  | .given body => some ⟨url, body⟩
  | .crashed _ => none

def Flight.outcome? (f : Flight) (fetch : Fetcher) : Option Outcome :=
  fetch.outcome? f.position f.url

-- A fetch that finishes comes to what `fetch` says
def Event.Follows (fetch : Fetcher) (b : Batch) : Event → Prop
  | .finish position answer =>
    ∀ f, b.flight? position = some f → answer = fetch position f.url
  | _ => True

namespace Notes

-- The fetches that finished, in that order
def ended (notes : List Note) : List Flight :=
  notes.filterMap fun
    | .ended f _ => some f
    | _ => none

-- The fetches that crashed
def crashed (notes : List Note) : List Flight :=
  notes.filterMap fun
    | .ended f (.crashed _) => some f
    | _ => none

@[simp] theorem begun_append (notes more : List Note) :
    begun (notes ++ more) = begun notes ++ begun more := List.filterMap_append

@[simp] theorem ended_append (notes more : List Note) :
    ended (notes ++ more) = ended notes ++ ended more := List.filterMap_append

@[simp] theorem crashed_append (notes more : List Note) :
    crashed (notes ++ more) = crashed notes ++ crashed more := List.filterMap_append

@[simp] theorem delivered_append (notes more : List Note) :
    delivered (notes ++ more) = delivered notes ++ delivered more := List.filterMap_append

end Notes

namespace Batch

-- The events from `first` on, one after the other, have led to a batch and have shown
-- these notes
inductive Trace (fetch : Fetcher) (first : Batch) : List Note → Batch → Prop
  | start : Trace fetch first [] first
  | step {notes : List Note} {b c : Batch} (e : Event) (before : Trace fetch first notes b)
      (follows : e.Follows fetch b) (happens : b.step? e = some c) :
      Trace fetch first (notes ++ (b.note? e).toList) c

-- What an event finds, shows and leaves, event by event
inductive Move (fetch : Fetcher) (b : Batch) : Event → Option Note → Batch → Prop
  | submit (now : Nat) (url : String) (queue : List String) (hqueue : b.queue = url :: queue)
      (hopen : b.submitting = true) (hcancel : b.cancelled = false) (hdrop : b.dropped = false)
      (hfree : 0 < b.free) :
      Move fetch b (.submit now) (some (.began ⟨b.submitted, url, now⟩))
        { b with
          free := b.free - 1, queue := queue, submitted := b.submitted + 1,
          running := b.running ++ [⟨b.submitted, url, now⟩], senders := b.senders + 1 }
  | stop (hopen : b.submitting = true)
      (hreason : b.cancelled = true ∨ b.dropped = true ∨ b.queue = []) :
      Move fetch b .stop none { b with submitting := false, senders := b.senders - 1 }
  | land (f : Flight) (body : Except FetchError String) (hf : f ∈ b.running)
      (hanswer : fetch f.position f.url = .given body) :
      Move fetch b (.finish f.position (.given body)) (some (.ended f (.given body)))
        { b.land f with waiting := b.waiting ++ [⟨f.url, body⟩] }
  | crash (f : Flight) (reason : String) (hf : f ∈ b.running)
      (hanswer : fetch f.position f.url = .crashed reason) :
      Move fetch b (.finish f.position (.crashed reason)) (some (.ended f (.crashed reason)))
        { b.land f with
          free := b.free + 1, crashes := b.crashes ++ [⟨f.position, reason⟩],
          senders := b.senders - 1 }
  | handOver (o : Outcome) (waiting : List Outcome) (hwaiting : b.waiting = o :: waiting)
      (hdrop : b.dropped = false) (hroom : b.channel.length < b.ceiling) :
      Move fetch b .handOver none
        { b with
          waiting := waiting, channel := b.channel ++ [o], free := b.free + 1,
          senders := b.senders - 1 }
  | discard (o : Outcome) (waiting : List Outcome) (hwaiting : b.waiting = o :: waiting)
      (hdrop : b.dropped = true) :
      Move fetch b .discard none
        { b with waiting := waiting, free := b.free + 1, senders := b.senders - 1 }
  | report (crash : Crash) (crashes : List Crash) (hcrashes : b.crashes = crash :: crashes)
      (hopen : b.submitting = false) :
      Move fetch b .report (some (.reported crash)) { b with crashes := crashes }
  | pull (o : Outcome) (channel : List Outcome) (hchannel : b.channel = o :: channel) :
      Move fetch b .pull (some (.delivered o)) { b with channel := channel }
  | cancel : Move fetch b .cancel none { b with cancelled := true }
  | drop : Move fetch b .drop none { b with dropped := true, channel := [] }

variable {fetch : Fetcher} {first b c : Batch} {e : Event} {n : Option Note} {notes : List Note}

theorem mem_running_of_flight? {position : Nat} {f : Flight} (h : b.flight? position = some f) :
    f ∈ b.running ∧ f.position = position :=
  ⟨List.mem_of_find?_eq_some h, by simpa using List.find?_some h⟩

-- The only place where the cases of `step?` are gone through. All that follows is about
-- moves.
theorem move_of_step? (happens : b.step? e = some c) (follows : e.Follows fetch b) :
    Move fetch b e (b.note? e) c := by
  cases e with
  | submit now =>
      simp only [step?] at happens
      split at happens
      · cases happens
      · rename_i url queue hqueue
        split at happens
        · rename_i hguard
          simp only [Bool.and_eq_true, Bool.not_eq_true', decide_eq_true_eq] at hguard
          obtain ⟨⟨⟨hopen, hcancel⟩, hdrop⟩, hfree⟩ := hguard
          cases happens
          simp only [note?, hqueue, List.head?_cons, Option.map_some]
          exact .submit now url queue hqueue hopen hcancel hdrop hfree
        · cases happens
  | stop =>
      simp only [step?] at happens
      split at happens
      · rename_i hguard
        simp only [Bool.and_eq_true, Bool.or_eq_true, List.isEmpty_iff, or_assoc] at hguard
        cases happens
        exact .stop hguard.1 hguard.2
      · cases happens
  | finish position answer =>
      simp only [step?] at happens
      split at happens
      · cases happens
      · rename_i f hflight
        obtain ⟨hf, rfl⟩ := mem_running_of_flight? hflight
        have hanswer := follows f hflight
        simp only [note?, hflight, Option.map_some]
        split at happens <;> cases happens
        · exact .land f _ hf hanswer.symm
        · exact .crash f _ hf hanswer.symm
  | handOver =>
      simp only [step?] at happens
      split at happens
      · cases happens
      · rename_i o waiting hwaiting
        split at happens
        · rename_i hguard
          simp only [Bool.and_eq_true, Bool.not_eq_true', decide_eq_true_eq] at hguard
          cases happens
          exact .handOver o waiting hwaiting hguard.1 hguard.2
        · cases happens
  | discard =>
      simp only [step?] at happens
      split at happens
      · cases happens
      · rename_i o waiting hwaiting
        split at happens
        · rename_i hdrop
          cases happens
          exact .discard o waiting hwaiting hdrop
        · cases happens
  | report =>
      simp only [step?] at happens
      split at happens
      · cases happens
      · rename_i crash crashes hcrashes
        split at happens
        · cases happens
        · rename_i hopen
          cases happens
          simp only [note?, hcrashes, List.head?_cons, Option.map_some]
          exact .report crash crashes hcrashes (by simpa using hopen)
  | pull =>
      simp only [step?] at happens
      split at happens
      · cases happens
      · rename_i o channel hchannel
        cases happens
        simp only [note?, hchannel, List.head?_cons, Option.map_some]
        exact .pull o channel hchannel
  | cancel => cases happens; exact .cancel
  | drop => cases happens; exact .drop

-- When each event can happen
theorem isSome_submit {now : Nat} : (b.step? (.submit now)).isSome = true ↔
    b.queue ≠ [] ∧ b.submitting = true ∧ b.cancelled = false ∧ b.dropped = false ∧ 0 < b.free := by
  cases hqueue : b.queue <;> simp [step?, hqueue, and_assoc]

theorem isSome_stop : (b.step? .stop).isSome = true ↔
    b.submitting = true ∧ (b.cancelled = true ∨ b.dropped = true ∨ b.queue = []) := by
  simp [step?, or_assoc]

theorem isSome_finish {position : Nat} {answer : Answer} :
    (b.step? (.finish position answer)).isSome = (b.flight? position).isSome := by
  cases hflight : b.flight? position <;> cases answer <;> simp [step?, hflight]

theorem isSome_handOver : (b.step? .handOver).isSome = true ↔
    b.waiting ≠ [] ∧ b.dropped = false ∧ b.channel.length < b.ceiling := by
  cases hwaiting : b.waiting <;> simp [step?, hwaiting]

theorem step?_pull {o : Outcome} {channel : List Outcome} (h : b.channel = o :: channel) :
    b.step? .pull = some { b with channel := channel } := by
  simp [step?, h]

theorem isSome_pull : (b.step? .pull).isSome = true ↔ b.channel ≠ [] := by
  cases hchannel : b.channel <;> simp [step?, hchannel]

theorem Move.ceiling_eq (m : Move fetch b e n c) : c.ceiling = b.ceiling := by
  cases m <;> rfl

theorem Move.cancelled_eq (m : Move fetch b e n c) (hcancel : e ≠ .cancel) :
    c.cancelled = b.cancelled := by
  cases m with
  | cancel => exact absurd rfl hcancel
  | _ => rfl

theorem Move.dropped_eq (m : Move fetch b e n c) (hdrop : e ≠ .drop) : c.dropped = b.dropped := by
  cases m with
  | drop => exact absurd rfl hdrop
  | _ => rfl

-- No fetch begins when the consumer has gone
theorem Move.begun_eq_nil (m : Move fetch b e n c) (hdrop : c.dropped = true) :
    Notes.begun n.toList = [] := by
  cases m with
  | submit now url queue hqueue hopen hcancel hstay hfree => simp [hstay] at hdrop
  | _ => rfl

-- An outcome is only delivered to a consumer who takes it
theorem Move.delivered_eq_nil (m : Move fetch b e n c) (hpull : e ≠ .pull) :
    Notes.delivered n.toList = [] := by
  cases m with
  | pull o channel hchannel => exact absurd rfl hpull
  | _ => rfl

theorem Trace.ceiling_eq (t : Trace fetch first notes b) : b.ceiling = first.ceiling := by
  induction t with
  | start => rfl
  | step e before follows happens ih => exact (move_of_step? happens follows).ceiling_eq.trans ih

-- What holds of a batch whatever has happened: each permit and each end of the channel has
-- a holder, and no two running fetches have the same place.
structure WellFormed (b : Batch) : Prop where
  positions : (b.running.map Flight.position).Nodup
  begun : ∀ f ∈ b.running, f.position < b.submitted
  permits : b.free + b.running.length + b.waiting.length = b.ceiling
  room : b.channel.length ≤ b.ceiling
  senders : b.senders = b.submitting.toNat + b.running.length + b.waiting.length
  emptied : b.dropped = true → b.channel = []
  stopped : b.submitting = false → b.cancelled = true ∨ b.dropped = true ∨ b.queue = []

theorem wellFormed_start (ceiling : Nat) (urls : List String) :
    (start ceiling urls).WellFormed where
  positions := List.nodup_nil
  begun := by simp [start]
  permits := rfl
  room := Nat.zero_le _
  senders := rfl
  emptied := by simp [start]
  stopped := by simp [start]

-- A fetch that finishes is one of the running ones, and the others go on
theorem running_perm_land (h : (b.running.map Flight.position).Nodup) {f : Flight}
    (hf : f ∈ b.running) : b.running.Perm (f :: (b.land f).running) := by
  obtain ⟨before, after, hsplit⟩ := List.append_of_mem hf
  rw [hsplit, List.map_append, List.map_cons, List.nodup_middle, List.nodup_cons] at h
  have hothers : ∀ g ∈ before ++ after, g.position ≠ f.position := fun g hg heq =>
    h.1 (heq ▸ List.map_append ▸ List.mem_map_of_mem hg)
  have hland : (b.land f).running = before ++ after := by
    have hkeep := List.filter_eq_self.mpr fun g hg => bne_iff_ne.mpr (hothers g hg)
    rw [List.filter_append] at hkeep
    simp only [land, hsplit, List.filter_append, List.filter_cons, bne_self_eq_false,
      Bool.false_eq_true, ite_false, hkeep]
  rw [hland, hsplit]
  exact List.perm_middle

theorem WellFormed.remaining (h : b.WellFormed) {f : Flight} (hf : f ∈ b.running) :
    ((b.land f).running.map Flight.position).Nodup ∧
      (∀ g ∈ (b.land f).running, g.position < b.submitted) ∧
      (b.land f).running.length + 1 = b.running.length := by
  have hperm := running_perm_land h.positions hf
  refine ⟨?_, ?_, ?_⟩
  · exact ((hperm.map Flight.position).nodup_iff.mp h.positions).of_cons
  · exact fun g hg => h.begun g (hperm.mem_iff.mpr (List.mem_cons_of_mem f hg))
  · simpa using hperm.length_eq.symm

-- A running fetch is found by its place
theorem WellFormed.flight?_of_mem (h : b.WellFormed) {f : Flight} (hf : f ∈ b.running) :
    b.flight? f.position = some f := by
  have hsome : (b.flight? f.position).isSome = true := by
    simpa [flight?, List.find?_isSome] using ⟨f, hf, rfl⟩
  obtain ⟨g, hg⟩ := Option.isSome_iff_exists.mp hsome
  obtain ⟨hrunning, hposition⟩ := mem_running_of_flight? hg
  rw [hg, List.inj_on_of_nodup_map h.positions hrunning hf hposition]

-- Every event keeps a batch well-formed
theorem WellFormed.move (h : b.WellFormed) (m : Move fetch b e n c) :
    c.WellFormed := by
  have hpermits := h.permits
  have hsenders := h.senders
  cases m with
  | submit now url queue hqueue hopen hcancel hdrop hfree =>
      have hnew : b.submitted ∉ b.running.map Flight.position := by
        intro hm
        obtain ⟨f, hf, hposition⟩ := List.mem_map.mp hm
        have := h.begun f hf
        omega
      refine { h with positions := ?_, begun := ?_, permits := ?_, senders := ?_, stopped := ?_ }
      · simpa [List.nodup_append, h.positions] using hnew
      · intro f hf
        rcases List.mem_append.mp hf with hf | hf
        · exact Nat.lt_succ_of_lt (h.begun f hf)
        · simp [List.mem_singleton.mp hf]
      · simp only [List.length_append, List.length_singleton]
        omega
      · simp only [List.length_append, List.length_singleton]
        omega
      · simp [hopen]
  | stop hopen hreason =>
      refine { h with senders := ?_, stopped := fun _ => hreason }
      simp only [hopen, Bool.toNat_true] at hsenders
      simp only [Bool.toNat_false]
      omega
  | land f body hf hanswer =>
      obtain ⟨hpositions, hbegun, hlength⟩ := h.remaining hf
      refine { h with positions := hpositions, begun := hbegun, permits := ?_, senders := ?_ }
      · simp only [land, List.length_append, List.length_singleton] at hlength ⊢
        omega
      · simp only [land, List.length_append, List.length_singleton] at hlength ⊢
        omega
  | crash f reason hf hanswer =>
      obtain ⟨hpositions, hbegun, hlength⟩ := h.remaining hf
      refine { h with positions := hpositions, begun := hbegun, permits := ?_, senders := ?_ }
      · simp only [land] at hlength ⊢
        omega
      · simp only [land] at hlength ⊢
        omega
  | handOver o waiting hwaiting hdrop hroom =>
      simp only [hwaiting, List.length_cons] at hpermits hsenders
      refine { h with permits := ?_, room := ?_, senders := ?_, emptied := ?_ }
      · simp only
        omega
      · simp only [List.length_append, List.length_singleton]
        omega
      · simp only
        omega
      · simp [hdrop]
  | discard o waiting hwaiting hdrop =>
      simp only [hwaiting, List.length_cons] at hpermits hsenders
      refine { h with permits := ?_, senders := ?_ } <;> simp only <;> omega
  | report crash crashes hcrashes hopen => exact { h with }
  | pull o channel hchannel =>
      have hroom := h.room
      simp only [hchannel, List.length_cons] at hroom
      refine { h with room := by simp only; omega, emptied := fun hdrop => ?_ }
      exact absurd (h.emptied hdrop) (by simp [hchannel])
  | cancel => exact { h with stopped := fun _ => .inl rfl }
  | drop =>
      exact { h with
        room := Nat.zero_le _, emptied := fun _ => rfl, stopped := fun _ => .inr (.inl rfl) }

theorem WellFormed.trace (h : first.WellFormed) (t : Trace fetch first notes b) :
    b.WellFormed := by
  induction t with
  | start => exact h
  | step e before follows happens ih => exact ih.move (move_of_step? happens follows)

-- The stream ends when nothing is left: nobody holds an end of the channel any more
theorem WellFormed.nothing_left (h : b.WellFormed) (hdrop : b.dropped = false)
    (hend : b.isEnded = true) :
    b.submitting = false ∧ b.running = [] ∧ b.waiting = [] ∧ b.channel = [] := by
  simp only [isEnded, hdrop, Bool.false_or, Bool.and_eq_true, beq_iff_eq,
    List.isEmpty_iff] at hend
  have hsenders := h.senders
  rw [hend.1] at hsenders
  refine ⟨?_, ?_, ?_, hend.2⟩
  · cases hopen : b.submitting with
    | false => rfl
    | true => simp [hopen] at hsenders; omega
  · exact List.length_eq_zero_iff.mp (by omega)
  · exact List.length_eq_zero_iff.mp (by omega)

-- While nobody has told it to stop, a batch waits with a URL only when no permit is free
theorem WellFormed.free_eq_zero (w : b.WellFormed) (hopen : b.cancelled = false)
    (hstay : b.dropped = false) (hqueue : b.queue ≠ []) {now : Nat}
    (hnone : b.step? (.submit now) = none) : b.free = 0 := by
  have hsubmitting : b.submitting = true := by
    by_contra hclosed
    rcases w.stopped (by simpa using hclosed) with hcancel | hgone | hempty
    · simp [hopen] at hcancel
    · simp [hstay] at hgone
    · exact hqueue hempty
  by_contra hfree
  have hsome : (b.step? (.submit now)).isSome = true :=
    isSome_submit.mpr ⟨hqueue, hsubmitting, hopen, hstay, Nat.pos_of_ne_zero hfree⟩
  rw [hnone] at hsome
  cases hsome

end Batch

end Blocklist.Pool
