import Blocklist.Domain.Collector
import Mathlib.Data.List.Induction
import Mathlib.Data.List.Nodup
-- What a collector holds: of all domains that it was given, one after the other, the first
-- occurrences, and of these as many as its limit allows.
namespace Blocklist

-- First occurrences

theorem eraseDups_concat (ds : List String) (d : String) :
    (ds ++ [d]).eraseDups = if d ∈ ds then ds.eraseDups else ds.eraseDups ++ [d] := by
  by_cases hmem : d ∈ ds <;> simp [List.eraseDups_append, List.cons_removeAll, hmem,
    List.eraseDups_cons]

theorem nodup_eraseDups (ds : List String) : ds.eraseDups.Nodup := by
  induction ds using List.reverseRecOn with
  | nil => exact List.nodup_nil
  | append_singleton ds d ih =>
      rw [eraseDups_concat]
      split
      · exact ih
      · rename_i hnew
        refine List.nodup_append.mpr ⟨ih, List.nodup_singleton d, ?_⟩
        rintro a ha b hb rfl
        exact hnew (List.mem_singleton.mp hb ▸ List.mem_eraseDups.mp ha)

-- The first occurrences in a list come first also when the list goes on
theorem eraseDups_prefix {ds more : List String} (h : ds <+: more) :
    ds.eraseDups <+: more.eraseDups := by
  obtain ⟨rest, rfl⟩ := h
  rw [List.eraseDups_append]
  exact List.prefix_append _ _

namespace Collector

variable {c : Collector} {d : String} {ds more : List String}

-- The collector has been given these domains
structure Holds (c : Collector) (ds : List String) : Prop where
  toList : c.toList = ds.eraseDups.take c.limit
  seen : ∀ d, d ∈ c.seen ↔ d ∈ c.toList

theorem holds_empty (limit : Nat) : (empty limit).Holds [] where
  toList := by simp [empty, Collector.toList]
  seen := by simp [empty, Collector.toList]

theorem isFull_iff (c : Collector) : c.isFull = true ↔ c.limit ≤ c.toList.length := by
  simp [isFull, Collector.toList]

theorem Holds.isFull_iff (h : c.Holds ds) : c.isFull = true ↔ c.limit ≤ ds.eraseDups.length := by
  rw [Collector.isFull_iff, h.toList, List.length_take]
  omega

theorem insert_limit (c : Collector) (d : String) : (c.insert d).limit = c.limit := by
  unfold insert
  split <;> rfl

theorem insert_of_isFull (hfull : c.isFull = true) (d : String) : c.insert d = c := by
  simp [insert, hfull]

theorem insert_of_mem (hold : d ∈ c.seen) : c.insert d = c := by
  simp [insert, hold]

theorem insert_of_not_mem (hroom : c.isFull = false) (hnew : d ∉ c.seen) :
    c.insert d = ⟨c.limit, c.seen.insert d, c.domains.push d⟩ := by
  simp [insert, hroom, hnew]

-- As long as there is room nothing has been left out

theorem Holds.length_lt (h : c.Holds ds) (hroom : c.isFull = false) :
    ds.eraseDups.length < c.limit := by
  simpa [hroom] using h.isFull_iff.not

theorem Holds.toList_of_room (h : c.Holds ds) (hroom : c.isFull = false) :
    c.toList = ds.eraseDups := by
  rw [h.toList, List.take_of_length_le (Nat.le_of_lt (h.length_lt hroom))]

theorem Holds.mem_seen (h : c.Holds ds) (hroom : c.isFull = false) : d ∈ c.seen ↔ d ∈ ds := by
  rw [h.seen, h.toList_of_room hroom, List.mem_eraseDups]

theorem Holds.insert (h : c.Holds ds) (d : String) : (c.insert d).Holds (ds ++ [d]) := by
  cases hfull : c.isFull with
  | true =>
      rw [insert_of_isFull hfull]
      refine ⟨?_, h.seen⟩
      rw [h.toList, eraseDups_concat]
      split
      · rfl
      · rw [List.take_append_of_le_length (h.isFull_iff.mp hfull)]
  | false =>
      by_cases hold : d ∈ ds
      · rw [insert_of_mem ((h.mem_seen hfull).mpr hold)]
        refine ⟨?_, h.seen⟩
        rw [h.toList, eraseDups_concat, if_pos hold]
      · rw [insert_of_not_mem hfull ((h.mem_seen hfull).not.mpr hold)]
        have hpush : (Collector.mk c.limit (c.seen.insert d) (c.domains.push d)).toList =
            c.toList ++ [d] := Array.toList_push
        have hroom : (ds.eraseDups ++ [d]).length ≤ c.limit := by
          rw [List.length_append]
          exact h.length_lt hfull
        refine ⟨?_, fun other => ?_⟩
        · rw [hpush, eraseDups_concat, if_neg hold, List.take_of_length_le hroom,
            h.toList_of_room hfull]
        · rw [hpush, Std.HashSet.mem_insert, h.seen, List.mem_append, List.mem_singleton,
            beq_iff_eq, or_comm, eq_comm]

-- What was given before is not taken again
theorem Holds.insert_of_mem (h : c.Holds ds) (hd : d ∈ ds) : c.insert d = c := by
  cases hfull : c.isFull with
  | true => exact insert_of_isFull hfull d
  | false => exact Collector.insert_of_mem ((h.mem_seen hfull).mpr hd)

theorem insertAll_limit (c : Collector) (more : List String) :
    (c.insertAll more).limit = c.limit := by
  induction more generalizing c with
  | nil => rfl
  | cons d more ih => exact (ih (c.insert d)).trans (insert_limit c d)

theorem Holds.insertAll (h : c.Holds ds) (more : List String) :
    (c.insertAll more).Holds (ds ++ more) := by
  induction more generalizing c ds with
  | nil => simpa [Collector.insertAll] using h
  | cons d more ih => simpa [Collector.insertAll] using ih (h.insert d)

theorem insertAll_of_isFull (hfull : c.isFull = true) (more : List String) :
    c.insertAll more = c := by
  induction more with
  | nil => rfl
  | cons d more ih =>
      show (c.insert d).insertAll more = c
      rw [insert_of_isFull hfull, ih]

theorem Holds.insertAll_of_subset (h : c.Holds ds) (hsub : more ⊆ ds) :
    c.insertAll more = c := by
  induction more with
  | nil => rfl
  | cons d more ih =>
      obtain ⟨hd, hmore⟩ := List.cons_subset.mp hsub
      show (c.insert d).insertAll more = c
      rw [h.insert_of_mem hd, ih hmore]

theorem add_limit (c : Collector) (o : Outcome) : (c.add o).limit = c.limit :=
  insertAll_limit c (domainsOf o)

theorem Holds.add (h : c.Holds ds) (o : Outcome) : (c.add o).Holds (ds ++ domainsOf o) :=
  h.insertAll (domainsOf o)

theorem Holds.nodup (h : c.Holds ds) : c.toList.Nodup :=
  h.toList ▸ (nodup_eraseDups ds).sublist (List.take_sublist _ _)

theorem Holds.mem (h : c.Holds ds) {d : String} (hd : d ∈ c.toList) : d ∈ ds :=
  List.mem_eraseDups.mp (List.mem_of_mem_take (h.toList ▸ hd))

theorem Holds.length (h : c.Holds ds) : c.toList.length = min c.limit ds.eraseDups.length := by
  rw [h.toList, List.length_take]

-- What has been collected stays where it is

theorem toList_prefix_insert (c : Collector) (d : String) : c.toList <+: (c.insert d).toList := by
  unfold insert
  split
  · exact List.prefix_refl _
  · exact ⟨[d], (Array.toList_push).symm⟩

theorem toList_prefix_insertAll (c : Collector) (more : List String) :
    c.toList <+: (c.insertAll more).toList := by
  induction more generalizing c with
  | nil => exact List.prefix_refl _
  | cons d more ih => exact (c.toList_prefix_insert d).trans (ih (c.insert d))

theorem toList_prefix_add (c : Collector) (o : Outcome) : c.toList <+: (c.add o).toList :=
  c.toList_prefix_insertAll (domainsOf o)

-- The texts of the lists that came and are not empty
def texts (os : List Outcome) : List String :=
  (os.filterMap fun o => o.body.toOption).filter fun text => text ≠ ""

theorem texts_cons (o : Outcome) (os : List Outcome) :
    texts (o :: os) = o.text?.toList ++ texts os := by
  obtain ⟨url, body⟩ := o
  cases body with
  | error e => rfl
  | ok text =>
      by_cases hempty : text = "" <;> simp [texts, Outcome.text?, Except.toOption, hempty]

theorem flatMap_domainsOf (os : List Outcome) :
    os.flatMap domainsOf = (texts os).flatMap Domain.extract := by
  induction os with
  | nil => rfl
  | cons o os ih =>
      rw [List.flatMap_cons, texts_cons, List.flatMap_append, ih]
      cases htext : o.text? <;> simp [domainsOf, htext]

end Collector

end Blocklist
