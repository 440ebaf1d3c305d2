import Blocklist.Proofs.Domain.Collector
import Blocklist.Proofs.Domain.Extract
import Mathlib.Order.Bounds.Basic
-- Outcomes one after the other: what a collector has after all of them, and how many of
-- them are taken when it stops as soon as it is full.
namespace Blocklist

open Domain

-- The strictly ascending list of what the matchers find in the lines of a text

theorem pairwise_extract (text : String) : (extract text).Pairwise (· < ·) :=
  Text.pairwise_ascending _

theorem mem_extract {text d : String} : d ∈ extract text ↔
    ∃ line ∈ text.toList.splitOn '\n', ∃ host ∈ domainsOfLine Matcher.standard line,
      String.ofList host = d := by
  rw [extract, mem_extractWith]
  constructor
  · rintro ⟨line, hline, hhost⟩
    exact ⟨line, hline, d.toList, hhost, String.ofList_toList⟩
  · rintro ⟨line, hline, host, hhost, rfl⟩
    rw [String.toList_ofList]
    exact ⟨line, hline, hhost⟩

namespace Collector

variable {c : Collector} {ds : List String}

-- The domains of all the texts that there are, one text after the other
def offered (outcomes : List Outcome) : List String := (texts outcomes).flatMap extract

def addAll (c : Collector) (outcomes : List Outcome) : Collector :=
  outcomes.foldl add c

theorem addAll_append (c : Collector) (os more : List Outcome) :
    c.addAll (os ++ more) = (c.addAll os).addAll more :=
  List.foldl_append

theorem addAll_limit (c : Collector) (os : List Outcome) : (c.addAll os).limit = c.limit := by
  induction os generalizing c with
  | nil => rfl
  | cons o os ih => exact (ih (c.add o)).trans (add_limit c o)

theorem addAll_of_isFull (hfull : c.isFull = true) (os : List Outcome) : c.addAll os = c := by
  induction os with
  | nil => rfl
  | cons o os ih =>
      show (c.add o).addAll os = c
      rw [add, insertAll_of_isFull hfull, ih]

theorem toList_prefix_addAll (c : Collector) (os : List Outcome) :
    c.toList <+: (c.addAll os).toList := by
  induction os generalizing c with
  | nil => exact List.prefix_refl _
  | cons o os ih => exact (c.toList_prefix_add o).trans (ih (c.add o))

theorem Holds.addAll (h : c.Holds ds) (os : List Outcome) :
    (c.addAll os).Holds (ds ++ offered os) := by
  induction os generalizing c ds with
  | nil => simpa [Collector.addAll, offered, texts] using h
  | cons o os ih =>
      have hstep : ds ++ offered (o :: os) = (ds ++ domainsOf o) ++ offered os := by
        rw [offered, offered, ← flatMap_domainsOf, ← flatMap_domainsOf, List.flatMap_cons,
          List.append_assoc]
      rw [hstep]
      exact ih (h.add o)

theorem holds_addAll_empty (limit : Nat) (os : List Outcome) :
    ((empty limit).addAll os).Holds (offered os) := by
  simpa using (holds_empty limit).addAll os

theorem domainsOf_subset_offered {o : Outcome} {os : List Outcome} (ho : o ∈ os) :
    domainsOf o ⊆ offered os := by
  intro d hd
  rw [offered, ← flatMap_domainsOf]
  exact List.mem_flatMap.mpr ⟨o, ho, hd⟩

theorem addWhileRoom_fst (c : Collector) (os : List Outcome) :
    (c.addWhileRoom os).1 = c.addAll os := by
  induction os generalizing c with
  | nil => rfl
  | cons o os ih =>
      cases hfull : c.isFull with
      | true => simp [addWhileRoom, hfull, addAll_of_isFull hfull]
      | false => simp [addWhileRoom, hfull, ih, addAll]

-- By induction on the outcomes: none is taken by a full collector, and by one with room
-- one more than by the collector that has the first of them already
theorem isLeast_addWhileRoom (c : Collector) (os : List Outcome) :
    IsLeast {k | (c.addAll (os.take k)).isFull = true ∨ os.length ≤ k} (c.addWhileRoom os).2 := by
  induction os generalizing c with
  | nil => exact ⟨.inr (Nat.le_refl 0), fun k _ => Nat.zero_le k⟩
  | cons o os ih =>
      cases hfull : c.isFull with
      | true =>
          have htaken : (c.addWhileRoom (o :: os)).2 = 0 := by simp [addWhileRoom, hfull]
          rw [htaken]
          exact ⟨.inl hfull, fun k _ => Nat.zero_le k⟩
      | false =>
          have htaken : (c.addWhileRoom (o :: os)).2 = ((c.add o).addWhileRoom os).2 + 1 := by
            simp [addWhileRoom, hfull]
          obtain ⟨henough, hleast⟩ := ih (c.add o)
          rw [htaken]
          refine ⟨henough.imp_right Nat.succ_le_succ, fun k hk => ?_⟩
          cases k with
          | zero => exact absurd hk (by simp [addAll, hfull])
          | succ k => exact Nat.succ_le_succ (hleast (hk.imp_right Nat.le_of_succ_le_succ))

theorem isFull_addAll_iff (limit : Nat) (os : List Outcome) :
    ((empty limit).addAll os).isFull = true ↔ limit ≤ (offered os).eraseDups.length := by
  rw [(holds_addAll_empty limit os).isFull_iff, addAll_limit]
  rfl

theorem collect_fst (limit : Nat) (os : List Outcome) :
    (collect limit os).1 = ((empty limit).addAll os).toList :=
  congrArg toList (addWhileRoom_fst (empty limit) os)

theorem collect_eq_take (limit : Nat) (os : List Outcome) :
    (collect limit os).1 = (offered os).eraseDups.take limit := by
  rw [collect_fst, (holds_addAll_empty limit os).toList, addAll_limit]
  rfl

theorem nodup_collect (limit : Nat) (os : List Outcome) : (collect limit os).1.Nodup :=
  collect_fst limit os ▸ (holds_addAll_empty limit os).nodup

-- A collector has the first occurrences, up to its limit, whether it is given all the
-- outcomes or stops at the first with which it is full
theorem collects_first_occurrences (limit : Nat) (os : List Outcome) :
    (∀ text, (extract text).Pairwise (· < ·) ∧ ∀ d, d ∈ extract text ↔
      ∃ line ∈ text.toList.splitOn '\n', ∃ host ∈ domainsOfLine Matcher.standard line,
        String.ofList host = d) ∧
    ((empty limit).addAll os).toList = (offered os).eraseDups.take limit ∧
    (∀ d, d ∈ ((empty limit).addAll os).seen ↔ d ∈ ((empty limit).addAll os).toList) ∧
    ((empty limit).addAll os).toList.Nodup ∧
    (∀ more, ((empty limit).addAll os).toList <+: ((empty limit).addAll (os ++ more)).toList) ∧
    (∀ before o after, ((empty limit).addAll (before ++ o :: after)).add o =
      (empty limit).addAll (before ++ o :: after)) ∧
    (collect limit os).1 = ((empty limit).addAll os).toList ∧
    IsLeast {k | limit ≤ (offered (os.take k)).eraseDups.length ∨ os.length ≤ k}
      (collect limit os).2 := by
  have hholds := holds_addAll_empty limit os
  have hlimit : ((empty limit).addAll os).limit = limit := addAll_limit _ os
  refine ⟨fun text => ⟨pairwise_extract text, fun d => mem_extract⟩, ?_, hholds.seen,
    hholds.nodup, fun more => ?_, fun before o after => ?_, ?_, ?_⟩
  · rw [hholds.toList, hlimit]
  · rw [addAll_append]
    exact toList_prefix_addAll _ more
  · have ho : o ∈ before ++ o :: after := List.mem_append_right before List.mem_cons_self
    exact (holds_addAll_empty limit _).insertAll_of_subset (domainsOf_subset_offered ho)
  · exact congrArg toList (addWhileRoom_fst (empty limit) os)
  · have hleast := isLeast_addWhileRoom (empty limit) os
    simp only [isFull_addAll_iff] at hleast
    exact hleast

end Collector

end Blocklist
