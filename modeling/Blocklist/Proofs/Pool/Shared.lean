import Blocklist.Proofs.Pool.Progress
import Mathlib.Algebra.Ring.Nat
import Mathlib.Logic.Relation
-- Several batches of one pool, whose events come in any order. Each batch has permits of its
-- own, so that the ceiling holds for each but not for all of them together.
namespace Blocklist.Pool

-- A pool, with the batches that were begun on it or on its clones
structure Shared where
  ceiling : Nat
  batches : List Batch

namespace Shared

def start (requested : Nat) : Shared := ⟨effectiveCeiling requested, []⟩

-- The fetches that run at the same time
def running (p : Shared) : Nat := (p.batches.map fun b => b.running.length).sum

-- The batches that run any
def active (p : Shared) : Nat := p.batches.countP fun b => !b.running.isEmpty

-- Another batch is begun, or something happens in one of them
inductive Step (p : Shared) : Shared → Prop
  | begin (urls : List String) : Step p ⟨p.ceiling, p.batches ++ [Batch.start p.ceiling urls]⟩
  | go (before after : List Batch) (b c : Batch) (e : Event)
      (hbatches : p.batches = before ++ b :: after) (happens : b.step? e = some c) :
      Step p ⟨p.ceiling, before ++ c :: after⟩

abbrev Steps : Shared → Shared → Prop := Relation.ReflTransGen Step

-- What holds of a pool whatever has happened
def Sound (p : Shared) : Prop := ∀ b ∈ p.batches, b.WellFormed ∧ b.ceiling = p.ceiling

variable {p q : Shared}

-- Some fetcher gives the answer that an event has
theorem exists_follows (e : Event) (b : Batch) : ∃ fetch : Fetcher, e.Follows fetch b := by
  cases e with
  | finish position answer => exact ⟨fun _ _ => answer, fun _ _ => rfl⟩
  | _ => exact ⟨fun _ _ => .crashed "", trivial⟩

theorem Step.ceiling_eq (s : Step p q) : q.ceiling = p.ceiling := by
  cases s <;> rfl

theorem Step.sound (s : Step p q) (h : p.Sound) : q.Sound := by
  cases s with
  | begin urls =>
      intro b hb
      rcases List.mem_append.mp hb with hb | hb
      · exact h b hb
      · rw [List.mem_singleton.mp hb]
        exact ⟨Batch.wellFormed_start p.ceiling urls, rfl⟩
  | go before after b c e hbatches happens =>
      obtain ⟨fetch, hfollows⟩ := exists_follows e b
      have m := Batch.move_of_step? happens hfollows
      have hall : ∀ d ∈ before ++ b :: after, d.WellFormed ∧ d.ceiling = p.ceiling :=
        fun d hd => h d (hbatches ▸ hd)
      obtain ⟨w, hceiling⟩ := hall b (by simp)
      intro d hd
      rcases List.mem_append.mp hd with hd | hd
      · exact hall d (List.mem_append_left _ hd)
      · rcases List.mem_cons.mp hd with rfl | hd
        · exact ⟨w.move m, m.ceiling_eq.trans hceiling⟩
        · exact hall d (List.mem_append_right _ (List.mem_cons_of_mem _ hd))

theorem Steps.sound {requested : Nat} (s : Steps (start requested) p) :
    p.Sound ∧ p.ceiling = effectiveCeiling requested := by
  induction s with
  | refl => exact ⟨nofun, rfl⟩
  | tail _ step ih => exact ⟨step.sound ih.1, step.ceiling_eq.trans ih.2⟩

theorem Sound.length_running_le (h : p.Sound) {b : Batch} (hb : b ∈ p.batches) :
    b.running.length ≤ p.ceiling := by
  obtain ⟨w, hceiling⟩ := h b hb
  have hpermits := w.permits
  omega

-- Each batch that runs something adds no more than the ceiling
theorem Sound.running_le (h : p.Sound) : p.running ≤ p.active * p.ceiling := by
  obtain ⟨ceiling, batches⟩ := p
  simp only [running, active]
  induction batches with
  | nil => exact Nat.zero_le _
  | cons b batches ih =>
      have hrest := ih fun d hd => h d (List.mem_cons_of_mem b hd)
      have hfirst : b.running.length ≤ ceiling := h.length_running_le List.mem_cons_self
      simp only [List.map_cons, List.sum_cons, List.countP_cons]
      cases hrunning : b.running with
      | nil => simpa [hrunning] using hrest
      | cons f rest =>
          rw [hrunning] at hfirst
          simp only [List.isEmpty_cons, Bool.not_false, ite_true, Nat.add_mul, Nat.one_mul]
          omega

-- A batch of which that many fetches have begun, with nothing else
def filled (ceiling count : Nat) : Batch :=
  { Batch.start ceiling (List.replicate (ceiling - count) "u") with
    free := ceiling - count, submitted := count, senders := 1 + count,
    running := (List.range count).map fun position => ⟨position, "u", 0⟩ }

theorem step?_filled {ceiling count : Nat} (hless : count < ceiling) :
    (filled ceiling count).step? (.submit 0) = some (filled ceiling (count + 1)) := by
  obtain ⟨left, hleft⟩ := Nat.exists_eq_add_of_lt hless
  have hnow : ceiling - count = left + 1 := by omega
  have hnext : ceiling - (count + 1) = left := by omega
  simp [filled, Batch.step?, Batch.start, hnow, hnext, List.replicate_succ, List.range_succ,
    Nat.add_assoc]

theorem steps_filled (before : List Batch) {ceiling count : Nat} (hcount : count ≤ ceiling) :
    Steps ⟨ceiling, before⟩ ⟨ceiling, before ++ [filled ceiling count]⟩ := by
  induction count with
  | zero => exact .single (.begin (List.replicate ceiling "u"))
  | succ count ih =>
      refine (ih (by omega)).tail ?_
      exact .go before [] _ _ (.submit 0) rfl (step?_filled hcount)

-- The batches may all be full at the same time
theorem exists_full (requested count : Nat) : ∃ p, Steps (start requested) p ∧
    p.batches.length = count ∧ p.running = count * effectiveCeiling requested := by
  induction count with
  | zero => exact ⟨_, .refl, rfl, by simp [running, start]⟩
  | succ count ih =>
      obtain ⟨⟨ceiling, batches⟩, steps, hlength, hrunning⟩ := ih
      have hceiling := steps.sound.2
      have hmore := steps.trans (steps_filled batches (Nat.le_refl ceiling))
      refine ⟨_, hmore, by simp [← hlength], ?_⟩
      simp only [running] at hrunning hceiling ⊢
      simp [hrunning, filled, ← hceiling, Nat.add_mul]

-- The ceiling is one of the pool as long as there is one batch, and of no more
theorem running_le_ceiling_iff (requested count : Nat) :
    (∀ p, Steps (start requested) p → p.batches.length = count →
      p.running ≤ effectiveCeiling requested) ↔ count ≤ 1 := by
  constructor
  · intro hbounded
    obtain ⟨p, steps, hlength, hrunning⟩ := exists_full requested count
    have hle := hbounded p steps hlength
    rw [hrunning] at hle
    by_contra hmore
    have htwice := Nat.mul_le_mul_right (effectiveCeiling requested) (Nat.lt_of_not_le hmore)
    have hpositive := effectiveCeiling_pos requested
    omega
  · intro hcount p steps hlength
    obtain ⟨hsound, hceiling⟩ := steps.sound
    have hactive : p.active ≤ p.batches.length := List.countP_le_length
    have hone := Nat.mul_le_mul_right p.ceiling (Nat.le_trans hactive (hlength ▸ hcount))
    have hle := hsound.running_le
    rw [← hceiling]
    omega

-- The ceiling bounds each batch, and all of them together as many times as there are batches
-- that run something
theorem ceiling_bounds_each_batch (requested : Nat) :
    (∀ p, Steps (start requested) p →
      (∀ b ∈ p.batches, b.running.length + b.waiting.length ≤ effectiveCeiling requested) ∧
        p.running ≤ p.active * effectiveCeiling requested) ∧
    (∀ count, ∃ p, Steps (start requested) p ∧ p.batches.length = count ∧
      p.running = count * effectiveCeiling requested) ∧
    ∀ count, (∀ p, Steps (start requested) p → p.batches.length = count →
      p.running ≤ effectiveCeiling requested) ↔ count ≤ 1 := by
  refine ⟨?_, exists_full requested, running_le_ceiling_iff requested⟩
  intro p steps
  obtain ⟨hsound, hceiling⟩ := steps.sound
  refine ⟨?_, hceiling ▸ hsound.running_le⟩
  intro b hb
  obtain ⟨w, hsame⟩ := hsound b hb
  have hpermits := w.permits
  omega

-- A batch is dropped while one of its fetches runs on, and the next one fills its own slots
theorem not_running_le_ceiling :
    ¬ ∀ requested p, Steps (start requested) p → p.running ≤ effectiveCeiling requested := by
  intro hbounded
  have steps := (.refl : Steps (start 2) (start 2))
    |>.tail (.begin ["a", "s", "c"])
    |>.tail (.go [] [] _ _ (.submit 0) rfl rfl)
    |>.tail (.go [] [] _ _ (.submit 0) rfl rfl)
    |>.tail (.go [] [] _ _ (.finish 0 (.given (.ok "||a.example.com^"))) rfl rfl)
    |>.tail (.go [] [] _ _ .handOver rfl rfl)
    |>.tail (.go [] [] _ _ .pull rfl rfl)
    |>.tail (.go [] [] _ _ .drop rfl rfl)
    |>.tail (.begin ["a", "s", "c"])
    |>.tail (.go [_] [] _ _ (.submit 0) rfl rfl)
    |>.tail (.go [_] [] _ _ (.submit 0) rfl rfl)
  have hthree := hbounded 2 _ steps
  exact absurd hthree (by decide)

end Shared

end Blocklist.Pool
