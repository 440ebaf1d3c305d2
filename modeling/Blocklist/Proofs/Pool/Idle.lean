import Blocklist.Proofs.Pool.Progress
import Mathlib.Logic.Relation
-- Slots of a batch are not left idle. As long as there are URLs to submit, every permit is held
-- whenever the batch has to wait for a fetch to finish or for its consumer, and it comes to such
-- a moment from every state, whatever has crashed or failed before.
namespace Blocklist.Pool

-- The events for which a batch waits neither for a fetch nor for somebody outside
def Event.isImmediate : Event → Bool
  | .submit _ | .stop | .handOver | .discard | .report => true
  | .finish _ _ | .pull | .cancel | .drop => false

namespace Batch

open Notes

variable {fetch : Fetcher} {urls : List String} {notes : List Note} {b c : Batch} {e : Event}

-- Nothing can happen until a running fetch finishes or somebody outside acts
def Quiescent (b : Batch) : Prop :=
  ∀ e : Event, e.isImmediate = true → b.step? e = none

def Immediate (b c : Batch) : Prop :=
  ∃ e : Event, e.isImmediate = true ∧ b.step? e = some c

theorem goes_of_immediate (fetch : Fetcher) (he : e.isImmediate = true)
    (happens : b.step? e = some c) : Goes fetch e b c ∧ e.isOwn = true := by
  cases e with
  | submit | stop | handOver | discard | report =>
      exact ⟨⟨nofun, nofun, trivial, happens⟩, rfl⟩
  | finish | pull | cancel | drop => cases he

-- From every batch they lead to a moment at which there is none. The work that is left bounds
-- their number.
theorem exists_quiescent (w : b.WellFormed) :
    ∃ c, Relation.ReflTransGen Immediate b c ∧ c.Quiescent := by
  generalize hwork : b.work = work
  induction work using Nat.strongRecOn generalizing b with
  | ind work ih =>
      by_cases hquiet : b.Quiescent
      · exact ⟨b, .refl, hquiet⟩
      · simp only [Quiescent, not_forall, exists_prop] at hquiet
        obtain ⟨e, he, hsome⟩ := hquiet
        obtain ⟨c, happens⟩ := Option.ne_none_iff_exists'.mp hsome
        obtain ⟨goes, hown⟩ := goes_of_immediate (fun _ _ => .crashed "") he happens
        have hless := (own_lt w goes.move hown).1
        obtain ⟨d, steps, hd⟩ := ih c.work (hwork ▸ hless) (goes.keeps w).1 rfl
        exact ⟨d, .head ⟨e, he, happens⟩ steps, hd⟩

theorem Quiescent.waiting_eq_nil (h : b.Quiescent) (hceiling : 0 < b.ceiling)
    (hstay : b.dropped = false) (hchannel : b.channel = []) : b.waiting = [] := by
  by_contra hwaiting
  have hroom : b.channel.length < b.ceiling := by simpa [hchannel] using hceiling
  have hsome := isSome_handOver.mpr ⟨hwaiting, hstay, hroom⟩
  rw [h .handOver rfl] at hsome
  cases hsome

theorem no_slot_left_idle (fetch : Fetcher) (requested : Nat) (urls : List String)
    (t : Trace fetch (start (effectiveCeiling requested) urls) notes b) :
    (b.Quiescent → b.cancelled = false → b.dropped = false → b.queue ≠ [] →
      b.free = 0 ∧ b.running.length + b.waiting.length = effectiveCeiling requested ∧
        (b.channel = [] → b.running.length = effectiveCeiling requested)) ∧
    ∃ c, Relation.ReflTransGen Immediate b c ∧ c.Quiescent := by
  have w := (wellFormed_start (effectiveCeiling requested) urls).trace t
  have hceiling : b.ceiling = effectiveCeiling requested := t.ceiling_eq
  refine ⟨fun hquiet hopen hstay hqueue => ?_, exists_quiescent w⟩
  have hfree := w.free_eq_zero hopen hstay hqueue (hquiet (.submit 0) rfl)
  have hpermits := w.permits
  rw [hfree, Nat.zero_add, hceiling] at hpermits
  refine ⟨hfree, hpermits, fun hchannel => ?_⟩
  have hpositive : 0 < b.ceiling := hceiling ▸ effectiveCeiling_pos requested
  rw [hquiet.waiting_eq_nil hpositive hstay hchannel] at hpermits
  exact hpermits

def mixedAnswers : Fetcher := fun position _ =>
  match position with
  | 0 => .given (.error .timeout)
  | 1 => .crashed "no stack left"
  | _ => .given (.ok "||a.example^")

-- A batch with two slots whose first two fetches came to an error and to a crash
def afterFailures : Batch where
  ceiling := 2
  free := 0
  queue := ["x"]
  submitted := 4
  running := [⟨2, "u", 7⟩, ⟨3, "w", 9⟩]
  waiting := []
  channel := []
  crashes := [⟨1, "no stack left"⟩]
  submitting := true
  senders := 3
  cancelled := false
  dropped := false

theorem quiescent_afterFailures : afterFailures.Quiescent := by
  intro e he
  cases e with
  | submit | stop | handOver | discard | report => rfl
  | finish | pull | cancel | drop => cases he

theorem no_slot_left_idle_twice : ∃ notes,
    Trace mixedAnswers (start (effectiveCeiling 2) ["u", "v", "u", "w", "x"]) notes
      afterFailures ∧ (crashed notes).length = 1 ∧ afterFailures.Quiescent ∧
      afterFailures.free = 0 ∧ afterFailures.running.length = effectiveCeiling 2 := by
  have t := (.start : Trace mixedAnswers
      (start (effectiveCeiling 2) ["u", "v", "u", "w", "x"]) [] _)
    |>.step (.submit 0) trivial rfl
    |>.step (.submit 0) trivial rfl
    |>.step (.finish 1 (.crashed "no stack left")) (fun _ _ => rfl) rfl
    |>.step (.submit 7) trivial rfl
    |>.step (.finish 0 (.given (.error .timeout))) (fun _ _ => rfl) rfl
    |>.step .handOver trivial rfl
    |>.step (.submit 9) trivial rfl
    |>.step .pull trivial rfl
  obtain ⟨hbusy, -⟩ := no_slot_left_idle mixedAnswers 2 ["u", "v", "u", "w", "x"] t
  obtain ⟨hfree, -, hrunning⟩ := hbusy quiescent_afterFailures rfl rfl (List.cons_ne_nil _ _)
  exact ⟨_, t, rfl, quiescent_afterFailures, hfree, hrunning rfl⟩

end Batch

end Blocklist.Pool
