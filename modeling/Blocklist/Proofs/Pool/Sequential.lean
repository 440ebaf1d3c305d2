import Blocklist.Proofs.Pool.Gathering
-- With one permit only, lists are fetched one after the other. Then the domains are the
-- first ones of all that the lists block, in the order of the lists.
namespace Blocklist.Pool

open Batch Notes Collector

namespace Batch

variable {fetch : Fetcher} {urls : List String} {notes : List Note} {b c : Batch} {e : Event}
  {n : Option Note}

-- No fetch begins before the one before it has ended
theorem begun_eq_of_move (w : b.WellFormed) (hone : b.ceiling = 1) (m : Move fetch b e n c)
    (h : begun notes = ended notes ++ b.running) :
    begun (notes ++ n.toList) = ended (notes ++ n.toList) ++ c.running := by
  have hpermits := w.permits
  rw [hone] at hpermits
  have halone : ∀ f ∈ b.running, b.running = [f] := by
    intro f hf
    have hlength := List.length_pos_of_mem hf
    obtain ⟨g, hg⟩ := List.length_eq_one_iff.mp (show b.running.length = 1 by omega)
    rw [hg, List.mem_singleton] at hf
    rw [hg, hf]
  rw [begun_append, ended_append, h]
  cases m with
  | submit now url queue hqueue hopen hcancel hdrop hfree =>
      have hnone : b.running = [] := List.length_eq_zero_iff.mp (by omega)
      simp [hnone, Notes.begun, ended]
  | land f body hf hanswer => simp [halone f hf, land, Notes.begun, ended]
  | crash f reason hf hanswer => simp [halone f hf, land, Notes.begun, ended]
  | _ => simp [Notes.begun, ended]

theorem begun_eq_ended_append (t : Trace fetch (start 1 urls) notes b) :
    begun notes = ended notes ++ b.running := by
  induction t with
  | start => rfl
  | step e before follows happens ih =>
      exact begun_eq_of_move ((wellFormed_start 1 urls).trace before) before.ceiling_eq
        (move_of_step? happens follows) ih

-- The consumer gets the outcomes in the order of the lists
theorem delivered_prefix (t : Trace fetch (start 1 urls) notes b) (hdrop : b.dropped = false) :
    delivered notes <+: fetch.outcomes urls := by
  have h := accounts_trace t
  have hdelivered : delivered notes <+: (ended notes).filterMap (·.outcome? fetch) := by
    rw [← h.outcomes hdrop, List.append_assoc]
    exact List.prefix_append _ _
  have hended : ended notes <+: begun notes := begun_eq_ended_append t ▸ List.prefix_append _ _
  have hplaces : (begun notes).map (fun f => (f.url, f.position)) <+: urls.zipIdx := by
    rw [h.begun]
    conv_rhs => rw [← List.take_append_drop b.submitted urls, List.zipIdx_append]
    exact List.prefix_append _ _
  have houtcomes : (begun notes).filterMap (·.outcome? fetch) =
      ((begun notes).map fun f => (f.url, f.position)).filterMap
        fun p => fetch.outcome? p.2 p.1 := by
    rw [List.filterMap_map]
    rfl
  refine (hdelivered.trans (hended.filterMap _)).trans ?_
  rw [houtcomes]
  exact hplaces.filterMap _

end Batch

namespace Gathering

variable {fetch : Fetcher} {urls : List String} {limit : Nat} {domains : List String}

theorem Comes.sequential (h : Comes fetch 1 urls limit domains) :
    domains = ((fetch.outcomes urls).flatMap domainsOf).eraseDups.take limit := by
  obtain ⟨g, s, hover, hqueue, rfl⟩ := h
  obtain ⟨notes, t, hdrop, hlimit, hholds⟩ := holds_delivered s
  have t : Trace fetch (Batch.start 1 urls) notes g.batch := t
  have hstart := delivered_prefix t hdrop
  rw [hholds.toList, hlimit]
  simp only [isOver, Bool.or_eq_true] at hover
  rcases hover with hfull | hend
  · have hlong := hholds.isFull_iff.mp hfull
    rw [hlimit] at hlong
    obtain ⟨rest, hrest⟩ := eraseDups_prefix (hstart.flatMap domainsOf)
    rw [← hrest, List.take_append_of_le_length hlong]
  · have hall : (delivered notes).Perm (fetch.outcomes urls) :=
      delivered_perm (accounts_trace t) ((wellFormed_start _ urls).trace t) hdrop hend hqueue
    rw [hstart.eq_of_length hall.length_eq]

end Gathering

end Blocklist.Pool
