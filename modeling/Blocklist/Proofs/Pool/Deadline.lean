import Blocklist.Proofs.Pool.Ticks
import Mathlib.Algebra.Ring.Nat
-- When a run returns. The history of a run tells when its fetches began and ended, and each
-- outcome is taken at the moment at which its fetch ends. So a run returns when a fetch
-- ends, and no fetch begins once the deadline has come.
namespace Blocklist.Pool

open Batch Gathering Notes Collector

namespace Timeline

-- The timeline after an event that shows a note and leaves a batch
def record (t : Timeline) (n : Option Note) (c : Batch) : Timeline :=
  { t with batch := c, notes := (n.map fun n => (t.now, n)).toList ++ t.notes }

variable {t : Timeline} {e : Event} {n : Option Note} {c : Batch} {f : Flight}

theorem happen_eq_record (h : t.batch.step? e = some c) :
    t.happen e = t.record (t.batch.note? e) c := by
  simp [happen, h, record]

@[simp] theorem record_batch (t : Timeline) (n : Option Note) (c : Batch) :
    (t.record n c).batch = c := rfl

@[simp] theorem record_now (t : Timeline) (n : Option Note) (c : Batch) :
    (t.record n c).now = t.now := rfl

@[simp] theorem record_script (t : Timeline) (n : Option Note) (c : Batch) :
    (t.record n c).script = t.script := rfl

@[simp] theorem record_due (t : Timeline) (n : Option Note) (c : Batch) (f : Flight) :
    (t.record n c).due f = t.due f := rfl

-- How long fetches take, one after the other
def span (t : Timeline) (flights : List Flight) : Nat :=
  (flights.map fun f => (t.script f.url).1).sum

theorem due_eq (t : Timeline) (f : Flight) : t.due f = f.began + t.span [f] := by
  simp [due, span]

@[simp] theorem span_append (t : Timeline) (flights others : List Flight) :
    t.span (flights ++ others) = t.span flights + t.span others := by
  simp [span]

@[simp] theorem record_span (t : Timeline) (n : Option Note) (c : Batch) (flights : List Flight) :
    (t.record n c).span flights = t.span flights := rfl

@[simp] theorem record_history (t : Timeline) (n : Option Note) (c : Batch) :
    (t.record n c).history = t.history ++ n.toList := by
  cases n <;> simp [history, record]

theorem mem_record_notes {time : Nat} {m : Note} :
    (time, m) ∈ (t.record n c).notes ↔ (time = t.now ∧ n = some m) ∨ (time, m) ∈ t.notes := by
  cases n <;> simp [record, eq_comm]

theorem mem_history {m : Note} : m ∈ t.history ↔ ∃ time, (time, m) ∈ t.notes := by
  simp [history]

theorem mem_begun : f ∈ begun t.history ↔ ∃ time, (time, .began f) ∈ t.notes := by
  rw [← mem_history, begun, List.mem_filterMap]
  constructor
  · rintro ⟨m, hm, hf⟩
    cases m with
    | began g => cases hf; exact hm
    | _ => cases hf
  · exact fun hm => ⟨_, hm, rfl⟩

theorem mem_ended : f ∈ ended t.history ↔ ∃ time answer, (time, .ended f answer) ∈ t.notes := by
  rw [exists_comm]
  simp only [← mem_history, ended, List.mem_filterMap]
  constructor
  · rintro ⟨m, hm, hf⟩
    cases m with
    | ended g answer => cases hf; exact ⟨answer, hm⟩
    | _ => cases hf
  · rintro ⟨answer, hm⟩
    exact ⟨_, hm, rfl⟩

-- A fetch begins at the time that it is given
theorem now_of_ready? {now : Nat} (h : t.ready? = some (.submit now)) : now = t.now := by
  rcases ready?_cases h with hland | ⟨_, _, hkind⟩
  · obtain ⟨f, _, _, hfinish⟩ := landing?_eq_some.mp hland
    cases hfinish
  · rcases hkind with h | h | h | h | h <;> cases h
    rfl

-- A fetch that finishes is due
theorem due_of_ready? (w : t.batch.WellFormed) (hf : f ∈ t.batch.running) {answer : Answer}
    (h : t.ready? = some (.finish f.position answer)) : t.due f ≤ t.now := by
  rcases ready?_cases h with hland | ⟨_, _, hkind⟩
  · obtain ⟨g, hfirst, hdue, hfinish⟩ := landing?_eq_some.mp hland
    injection hfinish with hposition
    rwa [List.inj_on_of_nodup_map w.positions hf (mem_running_of_first? hfirst) hposition]
  · rcases hkind with h | h | h | h | h <;> cases h

end Timeline

namespace Run

variable {script : Script} {ceiling deadline limit : Nat} {urls : List String} {r s : Run}
  {t : Timeline} {e : Event} {n : Option Note} {c : Batch} {f : Flight}

-- The history of a run tells how its batch came about and what its collector was given
structure Recorded (ceiling : Nat) (urls : List String) (limit : Nat) (r : Run) : Prop where
  trace : Trace r.timeline.script.fetcher (Batch.start ceiling urls) r.timeline.history
    r.timeline.batch
  limit : r.collector.limit = limit
  holds : r.collector.Holds ((delivered r.timeline.history).flatMap domainsOf)

theorem recorded_initial (script : Script) (ceiling deadline : Nat) (urls : List String)
    (limit : Nat) :
    (initial script ceiling deadline urls limit).Recorded ceiling urls limit := by
  unfold initial
  split
  · exact ⟨Trace.start.step .cancel trivial rfl, rfl, holds_empty limit⟩
  · exact ⟨.start, rfl, holds_empty limit⟩

theorem Tick.recorded (tick : Tick deadline r s) (h : r.Recorded ceiling urls limit) :
    s.Recorded ceiling urls limit := by
  have hlimit := tick.limit_eq.trans h.limit
  cases tick with
  | own e c hroom hready hown goes =>
      have hpull : e ≠ .pull := by rintro rfl; cases hown
      rw [Timeline.happen_eq_record goes.happens]
      refine ⟨?_, hlimit, ?_⟩
      · simpa using h.trace.step e goes.follows goes.happens
      · simpa [goes.move.delivered_eq_nil hpull] using h.holds
  | take o channel hroom hchannel =>
      have happens := step?_pull hchannel
      rw [Timeline.happen_eq_record happens]
      refine ⟨?_, hlimit, ?_⟩
      · simpa using h.trace.step .pull trivial happens
      · simpa [note?, hchannel, delivered] using h.holds.add o
  | cut f hroom awaits hopen hlate =>
      have t := h.trace.step .cancel trivial rfl
      simp only [note?, Option.toList_none, List.append_nil] at t
      exact ⟨t, hlimit, h.holds⟩
  | wait f hroom awaits hearly => exact ⟨h.trace, hlimit, h.holds⟩

theorem Ticks.recorded (ticks : Ticks deadline r s) (h : r.Recorded ceiling urls limit) :
    s.Recorded ceiling urls limit := by
  induction ticks with
  | refl => exact h
  | tail _ tick ih => exact tick.recorded ih

-- A list that is longer by one item, split before the last or at it
theorem append_cons_eq_append_singleton {α : Type} {before after whole : List α} {a b : α}
    (h : before ++ a :: after = whole ++ [b]) :
    (before = whole ∧ a = b) ∨ ∃ rest, whole = before ++ a :: rest := by
  rcases List.eq_nil_or_concat after with rfl | ⟨rest, last, rfl⟩
  · obtain ⟨hwhole, hlast⟩ := List.append_inj' h rfl
    exact .inl ⟨hwhole, by simpa using hlast⟩
  · rw [List.concat_eq_append, ← List.cons_append, ← List.append_assoc] at h
    exact .inr ⟨rest, (List.append_inj' h rfl).1.symm⟩

-- What the notes of a timeline say about its clock
structure Timely (deadline : Nat) (t : Timeline) : Prop where
  began : ∀ time f, (time, .began f) ∈ t.notes → time = f.began ∧ time < deadline
  ended : ∀ time f answer, (time, .ended f answer) ∈ t.notes → time = t.due f ∧ time ≤ t.now
  coming : ∀ f ∈ t.batch.running, t.now ≤ t.due f
  -- at the latest when the last of the fetches so far finishes
  reached : t.now = 0 ∨ ∃ f ∈ begun t.history, t.now ≤ t.due f
  -- no fetch begins later than if those before it had come one after the other
  brisk : ∀ before f after, begun t.history = before ++ f :: after → f.began ≤ t.span before

theorem history_initial (script : Script) (ceiling deadline : Nat) (urls : List String)
    (limit : Nat) : (initial script ceiling deadline urls limit).timeline.history = [] := by
  unfold initial
  split <;> rfl

theorem timely_initial (script : Script) (ceiling deadline : Nat) (urls : List String)
    (limit : Nat) : Timely deadline (initial script ceiling deadline urls limit).timeline := by
  have hnil : ∀ before f after, (begun [] : List Flight) ≠ before ++ f :: after := by
    simp [begun]
  unfold initial
  split <;> exact ⟨fun _ _ hnote => absurd hnote List.not_mem_nil,
    fun _ _ _ hnote => absurd hnote List.not_mem_nil, List.forall_mem_nil _, .inl rfl,
    fun before f after hsplit => absurd hsplit (hnil before f after)⟩

theorem Timely.began_lt (h : Timely deadline t) (hf : f ∈ begun t.history) :
    f.began < deadline := by
  obtain ⟨time, hnote⟩ := Timeline.mem_begun.mp hf
  obtain ⟨rfl, hearly⟩ := h.began time f hnote
  exact hearly

theorem Timely.due_le_now (h : Timely deadline t) (hf : f ∈ Notes.ended t.history) :
    t.due f ≤ t.now := by
  obtain ⟨time, answer, hnote⟩ := Timeline.mem_ended.mp hf
  obtain ⟨rfl, hnow⟩ := h.ended time f answer hnote
  exact hnow

-- The clock is not later than if all fetches so far had come one after the other
theorem Timely.now_le_span (h : Timely deadline t) : t.now ≤ t.span (begun t.history) := by
  rcases h.reached with hzero | ⟨f, hf, hnow⟩
  · rw [hzero]
    exact Nat.zero_le _
  · obtain ⟨before, after, hsplit⟩ := List.append_of_mem hf
    have hbegan := h.brisk before f after hsplit
    rw [Timeline.due_eq] at hnow
    rw [hsplit, ← List.singleton_append, Timeline.span_append, Timeline.span_append]
    omega

theorem begun_toList (h : ∀ f, n ≠ some (.began f)) : begun n.toList = [] := by
  cases n with
  | none => rfl
  | some m =>
      cases m with
      | began f => exact absurd rfl (h f)
      | _ => rfl

-- An event at which no fetch begins or ends keeps that
theorem Timely.pass (h : Timely deadline t) (hrunning : ∀ f ∈ c.running, f ∈ t.batch.running)
    (hbegan : ∀ f, n ≠ some (.began f)) (hended : ∀ f answer, n ≠ some (.ended f answer)) :
    Timely deadline (t.record n c) where
  began := fun time f hmem => by
    rcases Timeline.mem_record_notes.mp hmem with ⟨_, hn⟩ | hf
    · exact absurd hn (hbegan f)
    · exact h.began time f hf
  ended := fun time f answer hmem => by
    rcases Timeline.mem_record_notes.mp hmem with ⟨_, hn⟩ | hf
    · exact absurd hn (hended f answer)
    · exact h.ended time f answer hf
  coming := fun f hf => h.coming f (hrunning f hf)
  reached := by
    rcases h.reached with hzero | ⟨f, hf, hnow⟩
    · exact .inl hzero
    · exact .inr ⟨f, by simp [hf], hnow⟩
  brisk := by simpa [begun_toList hbegan] using h.brisk

-- A fetch that ends does so at its time
theorem Timely.land (h : Timely deadline t) {answer : Answer} (hf : f ∈ t.batch.running)
    (hdue : t.due f ≤ t.now) (hn : n = some (.ended f answer))
    (hrunning : c.running = (t.batch.land f).running) :
    Timely deadline (t.record n c) where
  began := fun time g hmem => by
    rcases Timeline.mem_record_notes.mp hmem with ⟨_, hg⟩ | hg
    · simp [hn] at hg
    · exact h.began time g hg
  ended := fun time g other hmem => by
    rcases Timeline.mem_record_notes.mp hmem with ⟨rfl, hg⟩ | hg
    · rw [hn] at hg
      cases hg
      exact ⟨Nat.le_antisymm (h.coming f hf) hdue, Nat.le_refl _⟩
    · exact h.ended time g other hg
  coming := fun g hg => by
    rw [Timeline.record_batch, hrunning] at hg
    exact h.coming g (List.mem_of_mem_filter hg)
  reached := by
    rcases h.reached with hzero | ⟨g, hg, hnow⟩
    · exact .inl hzero
    · exact .inr ⟨g, by simp [hg], hnow⟩
  brisk := by
    rw [hn]
    simpa [begun] using h.brisk

-- Every event that is on time keeps that
theorem Timely.move {fetch : Fetcher} (h : Timely deadline t) (m : Move fetch t.batch e n c)
    (hopen : t.batch.cancelled = false → t.now < deadline)
    (hsubmit : ∀ now, e = .submit now → now = t.now)
    (hfinish : ∀ f ∈ t.batch.running, ∀ answer, e = .finish f.position answer → t.due f ≤ t.now) :
    Timely deadline (t.record n c) := by
  cases m with
  | submit now url queue hqueue hsubmitting hcancel hdrop hfree =>
      obtain rfl := hsubmit now rfl
      refine ⟨fun time f hmem => ?_, fun time f answer hmem => ?_, fun f hf => ?_, ?_,
        fun before f after hsplit => ?_⟩
      · rcases Timeline.mem_record_notes.mp hmem with ⟨rfl, hf⟩ | hf
        · cases hf
          exact ⟨rfl, hopen hcancel⟩
        · exact h.began time f hf
      · rcases Timeline.mem_record_notes.mp hmem with ⟨_, hf⟩ | hf
        · cases hf
        · exact h.ended time f answer hf
      · rcases List.mem_append.mp hf with hf | hf
        · exact h.coming f hf
        · rw [List.mem_singleton.mp hf]
          exact Nat.le_add_right _ _
      · rcases h.reached with hzero | ⟨f, hf, hnow⟩
        · exact .inl hzero
        · exact .inr ⟨f, by simp [hf], hnow⟩
      · rw [Timeline.record_history, begun_append, eq_comm] at hsplit
        rcases append_cons_eq_append_singleton hsplit with ⟨rfl, rfl⟩ | ⟨rest, hrest⟩
        · exact h.now_le_span
        · exact h.brisk before f rest hrest
  | land f body hf hanswer => exact h.land hf (hfinish f hf _ rfl) rfl rfl
  | crash f reason hf hanswer => exact h.land hf (hfinish f hf _ rfl) rfl rfl
  | stop hsubmitting hreason => exact h.pass (fun _ hf => hf) nofun nofun
  | handOver o waiting hwaiting hdrop hroom => exact h.pass (fun _ hf => hf) nofun nofun
  | discard o waiting hwaiting hdrop => exact h.pass (fun _ hf => hf) nofun nofun
  | report crash crashes hcrashes hclosed => exact h.pass (fun _ hf => hf) nofun nofun
  | pull o channel hchannel => exact h.pass (fun _ hf => hf) nofun nofun
  | cancel => exact h.pass (fun _ hf => hf) nofun nofun
  | drop => exact h.pass (fun _ hf => hf) nofun nofun

-- The clock may go on to a time that no running fetch is behind and some fetch reaches
theorem Timely.later (h : Timely deadline t) {now : Nat} (hlater : t.now ≤ now)
    (hcoming : ∀ f ∈ t.batch.running, now ≤ t.due f)
    (hreached : ∃ f ∈ begun t.history, now ≤ t.due f) :
    Timely deadline { t with now := now } :=
  ⟨h.began, fun time f answer hf =>
    ⟨(h.ended time f answer hf).1, (h.ended time f answer hf).2.trans hlater⟩, hcoming,
    .inr hreached, h.brisk⟩

theorem Tick.timely (tick : Tick deadline r s) (hsound : r.Sound deadline)
    (hrecord : r.Recorded ceiling urls limit) (h : Timely deadline r.timeline) :
    Timely deadline s.timeline := by
  have hbegun : ∀ f ∈ r.timeline.batch.running, f ∈ begun r.timeline.history := fun f hf =>
    (accounts_trace hrecord.trace).flights.mem_iff.mpr (List.mem_append_left _ hf)
  cases tick with
  | own e c hroom hready hown goes =>
      rw [Timeline.happen_eq_record goes.happens]
      refine h.move goes.move hsound.now_lt (fun now he => ?_) fun f hf answer he => ?_
      · exact Timeline.now_of_ready? (he ▸ hready)
      · exact Timeline.due_of_ready? hsound.wellFormed hf (he ▸ hready)
  | take o channel hroom hchannel =>
      rw [Timeline.happen_eq_record (step?_pull hchannel)]
      exact h.pass (fun _ hf => hf) (by simp [note?, hchannel]) (by simp [note?, hchannel])
  | cut f hroom awaits hcancel hlate =>
      refine Timely.pass (h.later (Nat.le_of_lt (hsound.now_lt hcancel)) (fun g hg => ?_)
        ⟨f, hbegun f awaits.running, hlate⟩) (fun _ hf => hf) ?_ ?_
      · exact hlate.trans (awaits.first g hg)
      · rintro _ ⟨⟩
      · rintro _ _ ⟨⟩
  | wait f hroom awaits hearly =>
      exact h.later (Nat.le_of_lt awaits.later) awaits.first
        ⟨f, hbegun f awaits.running, Nat.le_refl _⟩

-- The domains that some fetches have found together, each once
def found (fetch : Fetcher) (flights : List Flight) : List String :=
  ((flights.filterMap (·.outcome? fetch)).flatMap domainsOf).eraseDups

-- Outcomes are taken at once: those that are not yet taken have come just now. If the
-- collector is full, so has the one that made it full.
structure Prompt (limit : Nat) (r : Run) : Prop where
  fresh : ∀ before f after, ended r.timeline.history = before ++ f :: after →
    (f.outcome? r.timeline.script.fetcher).isSome = true →
    (delivered r.timeline.history).length ≤
      (before.filterMap (·.outcome? r.timeline.script.fetcher)).length →
    r.timeline.due f = r.timeline.now
  full : r.collector.isFull = true → ∃ before f after,
    ended r.timeline.history = before ++ f :: after ∧ r.timeline.due f = r.timeline.now ∧
      (found r.timeline.script.fetcher before).length < limit ∧
      limit ≤ (found r.timeline.script.fetcher (before ++ [f])).length

theorem prompt_initial (script : Script) (ceiling deadline : Nat) (urls : List String)
    (hlimit : 0 < limit) : (initial script ceiling deadline urls limit).Prompt limit := by
  have hroom : (Collector.empty limit).isFull = false := Generator.isFull_empty hlimit
  have hnone : ended (initial script ceiling deadline urls limit).timeline.history = [] := by
    rw [history_initial]
    rfl
  refine ⟨fun before f after hsplit => ?_, fun hfull => ?_⟩
  · rw [hnone] at hsplit
    simp at hsplit
  · exact absurd hfull (by simp [initial, hroom])

-- An outcome that is taken belongs to a fetch that ended
theorem exists_ended_of_channel {fetch : Fetcher} {notes : List Note} {b : Batch} {o : Outcome}
    {channel : List Outcome} (h : Accounts fetch urls notes b) (hstay : b.dropped = false)
    (hchannel : b.channel = o :: channel) :
    ∃ before f after, ended notes = before ++ f :: after ∧ f.outcome? fetch = some o ∧
      before.filterMap (·.outcome? fetch) = delivered notes := by
  have houtcomes := h.outcomes hstay
  rw [hchannel, List.append_assoc, eq_comm, List.filterMap_eq_append_iff] at houtcomes
  obtain ⟨taken, rest, hsplit, htaken, hrest⟩ := houtcomes
  rw [List.cons_append, List.filterMap_eq_cons_iff] at hrest
  obtain ⟨crashed, f, after, rfl, hnone, hf, _⟩ := hrest
  refine ⟨taken ++ crashed, f, after, by simp [hsplit], hf, ?_⟩
  rw [List.filterMap_append, htaken, List.filterMap_eq_nil_iff.mpr hnone, List.append_nil]

-- When a run waits for a fetch, it has taken all outcomes so far, and the clock may go on
theorem Prompt.idle {g : Flight} (hrecord : r.Recorded ceiling urls limit)
    (hstay : r.timeline.batch.dropped = false) (hroom : r.collector.isFull = false)
    (awaits : r.timeline.Awaits g) (hhistory : t.history = r.timeline.history)
    (hscript : t.script = r.timeline.script) : Prompt limit ⟨t, r.collector⟩ := by
  refine ⟨fun before f after hsplit hf htaken => ?_, fun hfull => by simp [hroom] at hfull⟩
  rw [hhistory] at hsplit htaken
  rw [hscript] at hf htaken
  have houtcomes := congrArg List.length ((accounts_trace hrecord.trace).outcomes hstay)
  obtain ⟨o, ho⟩ := Option.isSome_iff_exists.mp hf
  have hcons : (f :: after).filterMap (·.outcome? r.timeline.script.fetcher) =
      o :: after.filterMap (·.outcome? r.timeline.script.fetcher) := List.filterMap_cons_some ho
  rw [awaits.channel, awaits.waiting, hsplit, List.filterMap_append, hcons] at houtcomes
  simp only [List.append_nil, List.length_append, List.length_cons] at houtcomes
  omega

-- At most one fetch ends in an event, and then the event is its end
theorem ended_of_move {fetch : Fetcher} {b : Batch} (m : Move fetch b e n c) :
    ended n.toList = [] ∨
      ∃ f ∈ b.running, ∃ answer, e = .finish f.position answer ∧ ended n.toList = [f] := by
  cases m with
  | land f body hf hanswer => exact .inr ⟨f, hf, _, rfl, rfl⟩
  | crash f reason hf hanswer => exact .inr ⟨f, hf, _, rfl, rfl⟩
  | _ => exact .inl rfl

-- A fetch that ends at this moment, and all else that the batch does by itself, keep that
theorem Prompt.move {fetch : Fetcher} (h : r.Prompt limit) (hroom : r.collector.isFull = false)
    (m : Move fetch r.timeline.batch e n c) (hpull : e ≠ .pull)
    (hnow : ∀ f ∈ r.timeline.batch.running, ∀ answer, e = .finish f.position answer →
      r.timeline.due f = r.timeline.now) :
    Prompt limit ⟨r.timeline.record n c, r.collector⟩ := by
  refine ⟨fun before f after hsplit hf htaken => ?_, fun hfull => by simp [hroom] at hfull⟩
  simp only [Timeline.record_history, ended_append, delivered_append, m.delivered_eq_nil hpull,
    List.append_nil] at hsplit htaken
  rcases ended_of_move m with hnone | ⟨g, hg, answer, he, hone⟩
  · rw [hnone, List.append_nil] at hsplit
    exact h.fresh before f after hsplit hf htaken
  · rw [hone, eq_comm] at hsplit
    rcases append_cons_eq_append_singleton hsplit with ⟨_, rfl⟩ | ⟨rest, hrest⟩
    · exact hnow f hg answer he
    · exact h.fresh before f rest hrest hf htaken

-- The outcome that is taken came just now, also if it makes the collector full
theorem Prompt.take (h : r.Prompt limit) (hrecord : r.Recorded ceiling urls limit)
    (hstay : r.timeline.batch.dropped = false) (hroom : r.collector.isFull = false) {o : Outcome}
    {channel : List Outcome} (hchannel : r.timeline.batch.channel = o :: channel) :
    Prompt limit ⟨r.timeline.record (some (.delivered o)) c, r.collector.add o⟩ := by
  refine ⟨fun before f after hsplit hf htaken => ?_, fun hfull => ?_⟩
  · simp only [Timeline.record_history, ended_append, delivered_append, List.length_append]
      at hsplit htaken
    exact h.fresh before f after (by simpa [ended] using hsplit) hf
      (Nat.le_trans (Nat.le_add_right _ _) htaken)
  · obtain ⟨before, f, after, hsplit, hf, htaken⟩ :=
      exists_ended_of_channel (accounts_trace hrecord.trace) hstay hchannel
    have hholds := hrecord.holds
    have hlimit := hrecord.limit
    refine ⟨before, f, after, by simpa [ended] using hsplit, ?_, ?_, ?_⟩
    · exact h.fresh before f after hsplit (by simp [hf]) (Nat.le_of_eq (by rw [htaken]))
    · have hless := hholds.isFull_iff.not.mp (by simp [hroom])
      simpa [found, htaken, hlimit] using hless
    · have hmore := (hholds.add o).isFull_iff.mp hfull
      rw [add_limit, hlimit] at hmore
      simpa [found, htaken, hf] using hmore

theorem Tick.prompt (tick : Tick deadline r s) (hsound : r.Sound deadline)
    (hrecord : r.Recorded ceiling urls limit) (htimely : Timely deadline r.timeline)
    (h : r.Prompt limit) : s.Prompt limit := by
  cases tick with
  | own e c hroom hready hown goes =>
      rw [Timeline.happen_eq_record goes.happens]
      refine h.move hroom goes.move (by rintro rfl; cases hown) fun f hf answer he => ?_
      exact Nat.le_antisymm (Timeline.due_of_ready? hsound.wellFormed hf (he ▸ hready))
        (htimely.coming f hf)
  | take o channel hroom hchannel =>
      rw [Timeline.happen_eq_record (step?_pull hchannel)]
      simp only [note?, hchannel, List.head?_cons, Option.map_some]
      exact h.take hrecord hsound.stays hroom hchannel
  | cut f hroom awaits hopen hlate => exact Prompt.idle hrecord hsound.stays hroom awaits rfl rfl
  | wait f hroom awaits hearly => exact Prompt.idle hrecord hsound.stays hroom awaits rfl rfl

-- What a run keeps from its beginning to where it returns
theorem Ticks.prompt (ticks : Ticks deadline (initial script ceiling deadline urls limit) r)
    (hceiling : 0 < ceiling) (hlimit : 0 < limit) :
    r.Sound deadline ∧ r.Recorded ceiling urls limit ∧ Timely deadline r.timeline ∧
      r.Prompt limit := by
  induction ticks with
  | refl => exact ⟨sound_initial script deadline urls limit hceiling,
      recorded_initial script ceiling deadline urls limit,
      timely_initial script ceiling deadline urls limit,
      prompt_initial script ceiling deadline urls hlimit⟩
  | tail _ tick ih =>
      obtain ⟨hsound, hrecord, htimely, hprompt⟩ := ih
      exact ⟨tick.sound hsound, tick.recorded hrecord, tick.timely hsound hrecord htimely,
        tick.prompt hsound hrecord htimely hprompt⟩

-- When the stream has ended, it is as late as when the last fetch ended
theorem Timely.last (h : Timely deadline t) {fetch : Fetcher} (w : t.batch.WellFormed)
    (haccounts : Accounts fetch urls t.history t.batch) (hstay : t.batch.dropped = false)
    (hend : t.batch.isEnded = true) :
    (∀ f ∈ begun t.history, t.due f ≤ t.now) ∧
      (begun t.history = [] ∧ t.now = 0 ∨ ∃ f ∈ begun t.history, t.now = t.due f) := by
  have hflights := haccounts.flights
  rw [(w.nothing_left hstay hend).2.1, List.nil_append] at hflights
  have hpast : ∀ f ∈ begun t.history, t.due f ≤ t.now := by
    intro f hf
    exact h.due_le_now (hflights.mem_iff.mp hf)
  refine ⟨hpast, ?_⟩
  rcases h.reached with hzero | ⟨f, hf, hnow⟩
  · cases hbegun : begun t.history with
    | nil => exact .inl ⟨rfl, hzero⟩
    | cons f rest =>
        have := hpast f (hbegun ▸ List.mem_cons_self)
        exact .inr ⟨f, List.mem_cons_self, by omega⟩
  · exact .inr ⟨f, hf, Nat.le_antisymm hnow (hpast f hf)⟩

-- No run goes on for the longest delay after its deadline
theorem Timely.now_lt (h : Timely deadline t) {fetch : Fetcher} {b : Batch}
    (haccounts : Accounts fetch urls t.history b) {longest : Nat}
    (hlongest : ∀ url ∈ urls, (t.script url).1 ≤ longest) :
    t.now = 0 ∨ t.now < deadline + longest := by
  rcases h.reached with hzero | ⟨f, hf, hnow⟩
  · exact .inl hzero
  · have hearly := h.began_lt hf
    have hplace : (f.url, f.position) ∈ (urls.take b.submitted).zipIdx :=
      haccounts.begun ▸ List.mem_map_of_mem hf
    have hurl : f.url ∈ urls := List.mem_of_mem_take (List.fst_mem_of_mem_zipIdx hplace)
    have := hlongest f.url hurl
    simp only [Timeline.due] at hnow
    omega

end Run

namespace Generator

open Run

-- A run is over by the time that its lists take one after the other
theorem finishedAt_le_sum (script : Script) (requested deadline : Nat) (urls : List String)
    (limit : Nat) :
    (collectDomains ⟨effectiveCeiling requested, deadline⟩ script urls limit).finishedAt ≤
      (urls.map fun url => (script url).1).sum := by
  by_cases hlimit : limit = 0
  · rw [hlimit, collectDomains_zero]
    exact Nat.zero_le _
  · have hpositive := Nat.pos_of_ne_zero hlimit
    have hceiling := effectiveCeiling_pos requested
    obtain ⟨ticks, _⟩ := run_ticks script deadline urls hceiling hpositive
    obtain ⟨_, hrecord, htimely, _⟩ := ticks.prompt hceiling hpositive
    have hurls := (accounts_trace hrecord.trace).map_url_begun
    rw [collectDomains_of_pos _ _ _ hpositive]
    generalize run ⟨effectiveCeiling requested, deadline⟩ script urls limit = r
      at ticks hurls htimely
    obtain rfl : r.timeline.script = script := ticks.script_of_initial
    have hspan : r.timeline.span (begun r.timeline.history) =
        ((urls.take r.timeline.batch.submitted).map fun url => (r.timeline.script url).1).sum := by
      rw [← hurls, List.map_map]
      rfl
    refine htimely.now_le_span.trans ?_
    rw [hspan]
    conv_rhs =>
      rw [← List.take_append_drop r.timeline.batch.submitted urls, List.map_append,
        List.sum_append]
    exact Nat.le_add_right _ _

theorem returns_with_a_fetch (script : Script) (requested deadline : Nat) (urls : List String)
    {limit : Nat} (hlimit : 0 < limit) {t : Timeline} {c : Collected}
    (ht : t = (run ⟨effectiveCeiling requested, deadline⟩ script urls limit).timeline)
    (hc : c = collectDomains ⟨effectiveCeiling requested, deadline⟩ script urls limit) :
    (begun t.history).map Flight.url = urls.take c.submitted ∧
    (∀ time f, (time, .began f) ∈ t.notes → time = f.began ∧ time < deadline) ∧
    (∀ time f answer, (time, .ended f answer) ∈ t.notes →
      time = f.began + (script f.url).1 ∧ time ≤ c.finishedAt) ∧
    (c.domains.length = limit → ∃ before f after,
      ended t.history = before ++ f :: after ∧ c.finishedAt = f.began + (script f.url).1 ∧
        (found script.fetcher before).length < limit ∧
        limit ≤ (found script.fetcher (before ++ [f])).length) ∧
    (c.domains.length < limit →
      (∀ f ∈ begun t.history, f.began + (script f.url).1 ≤ c.finishedAt) ∧
        (begun t.history = [] ∧ c.finishedAt = 0 ∨
          ∃ f ∈ begun t.history, c.finishedAt = f.began + (script f.url).1)) ∧
    ∀ longest, (∀ url ∈ urls, (script url).1 ≤ longest) →
      c.finishedAt ≤ deadline + longest := by
  have hceiling := effectiveCeiling_pos requested
  obtain ⟨ticks, hover⟩ := run_ticks script deadline urls hceiling hlimit
  rw [collectDomains_of_pos _ _ _ hlimit] at hc
  generalize run ⟨effectiveCeiling requested, deadline⟩ script urls limit = r
    at ht hc ticks hover
  subst ht hc
  obtain rfl : r.timeline.script = script := ticks.script_eq.trans (script_initial _ _ _ _ _)
  obtain ⟨hsound, hrecord, htimely, hprompt⟩ := ticks.prompt hceiling hlimit
  have haccounts := accounts_trace hrecord.trace
  have hfull : r.collector.isFull = true ↔ limit ≤ r.collector.toList.length := by
    rw [isFull_iff, hrecord.limit]
  refine ⟨haccounts.map_url_begun, htimely.began, htimely.ended, fun hlength => ?_,
    fun hlength => ?_, fun longest hlongest => ?_⟩
  · obtain ⟨before, f, after, hsplit, hdue, hless, hmore⟩ :=
      hprompt.full (hfull.mpr (Nat.le_of_eq hlength.symm))
    exact ⟨before, f, after, hsplit, hdue.symm, hless, hmore⟩
  · have hroom : r.collector.isFull ≠ true := hfull.not.mpr (Nat.not_le.mpr hlength)
    have hend : r.timeline.batch.isEnded = true := by
      simpa [isOver, gathering, hroom] using hover
    exact htimely.last hsound.wellFormed haccounts hsound.stays hend
  · have hnow := htimely.now_lt haccounts hlongest
    simp only
    omega

-- Lists that all fail, each after ten milliseconds
def slowFailures : Script := fun _ => (10, .given (.error .timeout))

-- With one permit only the first list is fetched before the deadline, and is waited for
theorem returns_with_a_fetch_late : ∃ c t,
    c = collectDomains ⟨effectiveCeiling 1, 5⟩ slowFailures ["u", "v"] 3 ∧
      c.submitted = 1 ∧ c.finishedAt = 10 ∧ c.domains.length < 3 ∧
      (∀ f ∈ begun (Timeline.history t), f.began + (slowFailures f.url).1 ≤ c.finishedAt) ∧
      (begun t.history = [] ∧ c.finishedAt = 0 ∨
        ∃ f ∈ begun t.history, c.finishedAt = f.began + (slowFailures f.url).1) ∧
      c.finishedAt ≤ 5 + 10 := by
  have hlimit : 0 < 3 := by decide
  obtain ⟨_, _, _, _, hlast, hbound⟩ :=
    returns_with_a_fetch slowFailures 1 5 ["u", "v"] hlimit rfl rfl
  have hroom : (collectDomains ⟨effectiveCeiling 1, 5⟩ slowFailures ["u", "v"] 3).domains.length <
      3 := by decide
  obtain ⟨hall, hexists⟩ := hlast hroom
  exact ⟨_, _, rfl, rfl, rfl, hroom, hall, hexists, hbound 10 (by decide)⟩

end Generator

end Blocklist.Pool
