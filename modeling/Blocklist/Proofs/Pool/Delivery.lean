import Blocklist.Proofs.Pool.Trace
-- What becomes of the fetches of a batch. Each that has begun is running or has ended, and
-- the outcomes of those that have ended are with the consumer, in the channel, or wait for
-- the channel, in the order in which they ended. From this come the bound on the fetches
-- that begin ahead of the consumer and the outcomes that there are at the end.
namespace Blocklist.Pool.Batch

open Notes
open scoped List

variable {fetch : Fetcher} {urls : List String} {notes : List Note} {b c : Batch} {e : Event}
  {n : Option Note} {ceiling : Nat}

-- The books of a run: what its notes say about the batch that it led to
structure Accounts (fetch : Fetcher) (urls : List String) (notes : List Note) (b : Batch) :
    Prop where
  queue : b.queue = urls.drop b.submitted
  begun : (begun notes).map (fun f => (f.url, f.position)) = (urls.take b.submitted).zipIdx
  flights : (Notes.begun notes).Perm (b.running ++ ended notes)
  crashed : crashed notes = (ended notes).filter fun f => (f.outcome? fetch).isNone
  outcomes : b.dropped = false →
    delivered notes ++ b.channel ++ b.waiting = (ended notes).filterMap (·.outcome? fetch)

theorem accounts_start (ceiling : Nat) (urls : List String) :
    Accounts fetch urls [] (start ceiling urls) where
  queue := rfl
  begun := rfl
  flights := .refl _
  crashed := rfl
  outcomes := fun _ => rfl

-- Submission goes through the URLs in order
theorem zipIdx_take_succ {k : Nat} {url : String} {queue : List String}
    (h : url :: queue = urls.drop k) :
    queue = urls.drop (k + 1) ∧
      (urls.take (k + 1)).zipIdx = (urls.take k).zipIdx ++ [(url, k)] := by
  have hk : k < urls.length := by
    by_contra hge
    rw [List.drop_eq_nil_of_le (by omega)] at h
    cases h
  rw [List.drop_eq_getElem_cons hk] at h
  obtain ⟨hurl, hqueue⟩ := List.cons.inj h
  refine ⟨hqueue, ?_⟩
  rw [List.take_succ_eq_append_getElem hk, List.zipIdx_append, ← hurl]
  simp [Nat.min_eq_left (Nat.le_of_lt hk)]

-- A fetch that ends passes from the running ones to the ended ones
theorem begun_perm_land (h : Accounts fetch urls notes b) (w : b.WellFormed) {f : Flight}
    (hf : f ∈ b.running) :
    (Notes.begun notes).Perm ((b.land f).running ++ (ended notes ++ [f])) := by
  calc Notes.begun notes
    _ ~ b.running ++ ended notes := h.flights
    _ ~ (f :: (b.land f).running) ++ ended notes :=
        (running_perm_land w.positions hf).append_right _
    _ ~ (b.land f).running ++ (ended notes ++ [f]) := by
        rw [← List.append_assoc]
        exact (List.perm_append_singleton f _).symm

-- An event at which no fetch begins or ends keeps the books if it loses no outcome and
-- changes no order
theorem Accounts.pass (h : Accounts fetch urls notes b) {more : List Note}
    (hqueue : c.queue = b.queue) (hsubmitted : c.submitted = b.submitted)
    (hrunning : c.running = b.running) (hbegun : Notes.begun more = [])
    (hended : ended more = []) (hcrashed : Notes.crashed more = [])
    (houtcomes : c.dropped = false → b.dropped = false ∧
      delivered more ++ c.channel ++ c.waiting = b.channel ++ b.waiting) :
    Accounts fetch urls (notes ++ more) c where
  queue := by rw [hqueue, hsubmitted, h.queue]
  begun := by rw [begun_append, hbegun, List.append_nil, hsubmitted, h.begun]
  flights := by simpa [hbegun, hended, hrunning] using h.flights
  crashed := by simpa [hcrashed, hended] using h.crashed
  outcomes := fun hdrop => by
    obtain ⟨hb, hkept⟩ := houtcomes hdrop
    rw [delivered_append, ended_append, hended, List.append_nil, ← h.outcomes hb]
    simpa using hkept

-- The end of a fetch keeps the books too. Its outcome, if it has one, is the last that waits.
theorem Accounts.land (h : Accounts fetch urls notes b) (w : b.WellFormed) {f : Flight}
    {answer : Answer} (hf : f ∈ b.running) (hanswer : fetch f.position f.url = answer)
    (hqueue : c.queue = b.queue) (hsubmitted : c.submitted = b.submitted)
    (hrunning : c.running = (b.land f).running) (hdropped : c.dropped = b.dropped)
    (hchannel : c.channel = b.channel)
    (hwaiting : c.waiting = b.waiting ++ (f.outcome? fetch).toList) :
    Accounts fetch urls (notes ++ [.ended f answer]) c where
  queue := by rw [hqueue, hsubmitted, h.queue]
  begun := by simpa [Notes.begun, hsubmitted] using h.begun
  flights := by simpa [Notes.begun, ended, hrunning] using begun_perm_land h w hf
  crashed := by
    have hcrashed := h.crashed
    cases answer <;> simpa [Notes.crashed, ended, Flight.outcome?, Fetcher.outcome?, hanswer]
  outcomes := fun hdrop => by
    rw [ended_append, List.filterMap_append, ← h.outcomes (hdropped ▸ hdrop), hchannel, hwaiting]
    cases hoc : f.outcome? fetch <;> simp [delivered, ended, hoc]

-- Every event keeps the books right
theorem Accounts.move (h : Accounts fetch urls notes b) (w : b.WellFormed)
    (m : Move fetch b e n c) : Accounts fetch urls (notes ++ n.toList) c := by
  cases m with
  | submit now url queue hqueue hopen hcancel hdrop hfree =>
      obtain ⟨hnext, hbegun⟩ := zipIdx_take_succ (hqueue.symm.trans h.queue)
      refine ⟨hnext, ?_, ?_, ?_, ?_⟩
      · simp [Notes.begun, ← h.begun, hbegun]
      · have hflights := h.flights.append_right [⟨b.submitted, url, now⟩]
        rw [List.append_assoc] at hflights
        simpa [Notes.begun, ended] using
          hflights.trans (List.perm_append_comm.append_left b.running)
      · simpa [Notes.crashed, ended] using h.crashed
      · simpa [delivered, ended] using h.outcomes
  | land f body hf hanswer =>
      refine h.land w hf hanswer rfl rfl rfl rfl rfl ?_
      simp [Flight.outcome?, Fetcher.outcome?, hanswer]
  | crash f reason hf hanswer =>
      refine h.land w hf hanswer rfl rfl rfl rfl rfl ?_
      simp [Flight.outcome?, Fetcher.outcome?, hanswer, Batch.land]
  | stop hopen hreason => exact h.pass rfl rfl rfl rfl rfl rfl fun hdrop => ⟨hdrop, rfl⟩
  | handOver o waiting hwaiting hdrop hroom =>
      exact h.pass rfl rfl rfl rfl rfl rfl fun _ => ⟨hdrop, by simp [delivered, hwaiting]⟩
  | discard o waiting hwaiting hdrop =>
      exact h.pass rfl rfl rfl rfl rfl rfl fun hc => by simp [hdrop] at hc
  | report crash crashes hcrashes hopen =>
      exact h.pass rfl rfl rfl rfl rfl rfl fun hdrop => ⟨hdrop, rfl⟩
  | pull o channel hchannel =>
      exact h.pass rfl rfl rfl rfl rfl rfl fun hdrop => ⟨hdrop, by simp [delivered, hchannel]⟩
  | cancel => exact h.pass rfl rfl rfl rfl rfl rfl fun hdrop => ⟨hdrop, rfl⟩
  | drop => exact h.pass rfl rfl rfl rfl rfl rfl fun hc => by simp at hc

theorem accounts_trace (t : Trace fetch (start ceiling urls) notes b) :
    Accounts fetch urls notes b := by
  induction t with
  | start => exact accounts_start ceiling urls
  | step e before follows happens ih =>
      exact ih.move ((wellFormed_start ceiling urls).trace before) (move_of_step? happens follows)

-- The fetch that began in some place is the one of the URL there
theorem Accounts.place (h : Accounts fetch urls notes b) {before after : List Flight} {f : Flight}
    (hsplit : Notes.begun notes = before ++ f :: after) :
    f.position = before.length ∧ urls[before.length]? = some f.url := by
  have hplace := congrArg (fun places => places[before.length]?) h.begun
  simp only [hsplit, List.map_append, List.map_cons, List.getElem?_zipIdx] at hplace
  obtain ⟨hurl, hposition⟩ : (urls.take b.submitted)[before.length]? = some f.url ∧
      before.length = f.position := by simpa using hplace.symm
  rw [List.getElem?_take] at hurl
  split at hurl
  · exact ⟨hposition.symm, hurl⟩
  · cases hurl

-- The fetches begin in the order of the URLs
theorem Accounts.map_url_begun (h : Accounts fetch urls notes b) :
    (Notes.begun notes).map Flight.url = urls.take b.submitted := by
  have hurls := congrArg (List.map Prod.fst) h.begun
  simpa [List.map_map, Function.comp_def] using hurls

theorem Accounts.queue_ne_nil (h : Accounts fetch urls notes b)
    (hless : (Notes.begun notes).length < urls.length) : b.queue ≠ [] := by
  have hlength := congrArg List.length h.begun
  simp only [List.length_map, List.length_zipIdx, List.length_take] at hlength
  rw [h.queue]
  intro hempty
  have hall := List.drop_eq_nil_iff.mp hempty
  omega

theorem Accounts.exists_begun (h : Accounts fetch urls notes b) (hdrop : b.dropped = false)
    {o : Outcome} (ho : o ∈ delivered notes) :
    ∃ f ∈ Notes.begun notes, f.outcome? fetch = some o := by
  have hended : o ∈ (ended notes).filterMap (·.outcome? fetch) :=
    h.outcomes hdrop ▸ List.mem_append_left _ (List.mem_append_left _ ho)
  obtain ⟨f, hf, hoc⟩ := List.mem_filterMap.mp hended
  exact ⟨f, h.flights.mem_iff.mpr (List.mem_append_right _ hf), hoc⟩

-- Every fetch that has ended has an outcome or has crashed
theorem length_ended (h : Accounts fetch urls notes b) :
    (ended notes).length =
      ((ended notes).filterMap (·.outcome? fetch)).length + (crashed notes).length := by
  rw [h.crashed, List.length_filterMap_eq_countP, ← List.countP_eq_length_filter,
    List.length_eq_countP_add_countP fun f => (f.outcome? fetch).isSome]
  congr 2
  funext f
  cases f.outcome? fetch <;> rfl

-- While the consumer is there, each fetch that has begun is in one of five places
theorem length_begun (h : Accounts fetch urls notes b) (hdrop : b.dropped = false) :
    (begun notes).length = b.running.length + b.waiting.length + b.channel.length +
      (delivered notes).length + (crashed notes).length := by
  have hflights := h.flights.length_eq
  have hended := length_ended h
  have houtcomes := congrArg List.length (h.outcomes hdrop)
  simp only [List.length_append] at hflights houtcomes
  omega

-- No more than two fetches for each permit are ahead of the consumer. After it has gone
-- no fetch begins, so that the bound of that moment stays.
theorem length_begun_le (t : Trace fetch (start ceiling urls) notes b) :
    (begun notes).length ≤
      (delivered notes).length + (crashed notes).length + 2 * ceiling := by
  induction t with
  | start => exact Nat.zero_le _
  | @step notes b c e before follows happens ih =>
      have m := move_of_step? happens follows
      have t := before.step e follows happens
      have w := (wellFormed_start ceiling urls).trace t
      by_cases hdrop : c.dropped = false
      · have hlength := length_begun (accounts_trace t) hdrop
        have hpermits := w.permits
        have hroom := w.room
        rw [t.ceiling_eq] at hpermits hroom
        simp only [start] at hpermits hroom
        omega
      · have hnone := m.begun_eq_nil (by simpa using hdrop)
        simp only [begun_append, hnone, delivered_append, crashed_append, List.length_append,
          List.length_nil]
        omega

theorem permits_conserved (fetch : Fetcher) (requested : Nat) (urls : List String)
    (t : Trace fetch (start (effectiveCeiling requested) urls) notes b) :
    b.free + b.running.length + b.waiting.length = effectiveCeiling requested ∧
      b.channel.length ≤ effectiveCeiling requested ∧
      (begun notes).length ≤
        (delivered notes).length + (crashed notes).length + 2 * effectiveCeiling requested := by
  have w := (wellFormed_start (effectiveCeiling requested) urls).trace t
  have hceiling : b.ceiling = effectiveCeiling requested := t.ceiling_eq
  exact ⟨hceiling ▸ w.permits, hceiling ▸ w.room, length_begun_le t⟩

-- A fetcher for runs with both kinds of answers
def secondCrashes : Fetcher := fun position _ =>
  if position = 1 then .crashed "no stack left" else .given (.ok "||a.example^")

-- The batch with two permits in which the second of three fetches has crashed
def secondCrashed : Batch where
  ceiling := 2
  free := 0
  queue := []
  submitted := 3
  running := [⟨0, "u", 0⟩, ⟨2, "u", 7⟩]
  waiting := []
  channel := []
  crashes := [⟨1, "no stack left"⟩]
  submitting := true
  senders := 3
  cancelled := false
  dropped := false

def secondCrashedNotes : List Note :=
  [.began ⟨0, "u", 0⟩, .began ⟨1, "v", 0⟩, .ended ⟨1, "v", 0⟩ (.crashed "no stack left"),
    .began ⟨2, "u", 7⟩]

theorem trace_secondCrashed :
    Trace secondCrashes (start (effectiveCeiling 2) ["u", "v", "u"]) secondCrashedNotes
      secondCrashed := by
  have t := (.start : Trace secondCrashes (start (effectiveCeiling 2) ["u", "v", "u"]) [] _)
    |>.step (.submit 0) trivial rfl
    |>.step (.submit 0) trivial rfl
    |>.step (.finish 1 (.crashed "no stack left")) (fun _ _ => rfl) rfl
    |>.step (.submit 7) trivial rfl
  exact t

-- Of two permits one comes back from a crash, and one from an outcome that nobody takes
theorem permits_conserved_crash_drop : ∃ notes b,
    Trace secondCrashes (start (effectiveCeiling 2) ["u", "v", "u"]) notes b ∧
      b.dropped = true ∧ (begun notes).length = 3 ∧ (crashed notes).length = 1 ∧
      b.free + b.running.length + b.waiting.length = effectiveCeiling 2 ∧
      b.channel.length ≤ effectiveCeiling 2 ∧
      (begun notes).length ≤
        (delivered notes).length + (crashed notes).length + 2 * effectiveCeiling 2 := by
  have t := trace_secondCrashed
    |>.step (.finish 2 (.given (.ok "||a.example^"))) (fun _ _ => rfl) rfl
    |>.step .drop trivial rfl
    |>.step .discard trivial rfl
  exact ⟨_, _, t, rfl, rfl, rfl, permits_conserved secondCrashes 2 ["u", "v", "u"] t⟩

-- When the stream has ended, what was delivered is all that the fetches came to
theorem delivered_perm_begun (h : Accounts fetch urls notes b) (w : b.WellFormed)
    (hdrop : b.dropped = false) (hend : b.isEnded = true) :
    (delivered notes).Perm ((begun notes).filterMap (·.outcome? fetch)) := by
  obtain ⟨_, hrunning, hwaiting, hchannel⟩ := w.nothing_left hdrop hend
  have hflights := h.flights
  have houtcomes := h.outcomes hdrop
  simp only [hrunning, List.nil_append] at hflights
  simp only [hwaiting, hchannel, List.append_nil] at houtcomes
  rw [houtcomes]
  exact (hflights.filterMap _).symm

-- A stream that ends by itself has gone through all URLs
theorem begun_of_isEnded (h : Accounts fetch urls notes b) (w : b.WellFormed)
    (hdrop : b.dropped = false) (hend : b.isEnded = true)
    (hqueue : b.cancelled = true → b.queue = []) :
    (begun notes).map (fun f => (f.url, f.position)) = urls.zipIdx := by
  have hempty : b.queue = [] := by
    rcases w.stopped (w.nothing_left hdrop hend).1 with hcancel | hgone | hempty
    · exact hqueue hcancel
    · simp [hdrop] at hgone
    · exact hempty
  have hall : urls.length ≤ b.submitted := List.drop_eq_nil_iff.mp (h.queue ▸ hempty)
  rw [h.begun, List.take_of_length_le hall]

-- Then there is an outcome for each place in the list whose fetch did not crash
theorem delivered_perm (h : Accounts fetch urls notes b) (w : b.WellFormed)
    (hdrop : b.dropped = false) (hend : b.isEnded = true)
    (hqueue : b.cancelled = true → b.queue = []) :
    (delivered notes).Perm (urls.zipIdx.filterMap fun p => fetch.outcome? p.2 p.1) := by
  rw [← begun_of_isEnded h w hdrop hend hqueue, List.filterMap_map]
  exact delivered_perm_begun h w hdrop hend

theorem outcomes_kept_in_order (fetch : Fetcher) (requested : Nat) (urls : List String)
    (t : Trace fetch (start (effectiveCeiling requested) urls) notes b)
    (hdrop : b.dropped = false) :
    (begun notes).map (fun f => (f.url, f.position)) <+: urls.zipIdx ∧
      (begun notes).Perm (b.running ++ ended notes) ∧
      delivered notes ++ b.channel ++ b.waiting = (ended notes).filterMap (·.outcome? fetch) ∧
      (b.isEnded = true → b.cancelled = false →
        (delivered notes).Perm (urls.zipIdx.filterMap fun p => fetch.outcome? p.2 p.1)) := by
  have h := accounts_trace t
  have w := (wellFormed_start (effectiveCeiling requested) urls).trace t
  refine ⟨?_, h.flights, h.outcomes hdrop, fun hend hcancel => ?_⟩
  · rw [h.begun]
    conv_rhs => rw [← List.take_append_drop b.submitted urls, List.zipIdx_append]
    exact List.prefix_append _ _
  · exact delivered_perm h w hdrop hend (by simp [hcancel])

-- A URL that is listed twice has two outcomes. The later fetch may finish first.
theorem outcomes_kept_in_order_twice : ∃ notes b,
    Trace secondCrashes (start (effectiveCeiling 2) ["u", "v", "u"]) notes b ∧
      b.dropped = false ∧ b.isEnded = true ∧ b.cancelled = false ∧
      ((begun notes).map (fun f => (f.url, f.position)) <+: ["u", "v", "u"].zipIdx ∧
        (begun notes).Perm (b.running ++ ended notes) ∧
        delivered notes ++ b.channel ++ b.waiting =
          (ended notes).filterMap (·.outcome? secondCrashes) ∧
        (b.isEnded = true → b.cancelled = false →
          (delivered notes).Perm
            (["u", "v", "u"].zipIdx.filterMap fun p => secondCrashes.outcome? p.2 p.1))) := by
  have t := trace_secondCrashed
    |>.step .stop trivial rfl
    |>.step (.finish 2 (.given (.ok "||a.example^"))) (fun _ _ => rfl) rfl
    |>.step (.finish 0 (.given (.ok "||a.example^"))) (fun _ _ => rfl) rfl
    |>.step .handOver trivial rfl
    |>.step .handOver trivial rfl
    |>.step .pull trivial rfl
    |>.step .pull trivial rfl
  exact ⟨_, _, t, rfl, rfl, rfl, outcomes_kept_in_order secondCrashes 2 ["u", "v", "u"] t rfl⟩

end Blocklist.Pool.Batch
