import Blocklist.Domain.Matcher
import Blocklist.Proofs.Text.LetterCase
import Mathlib.Order.Bounds.Basic
-- What each matcher finds, said by what stands where in the line.
namespace Blocklist.Domain.Matcher

open Blocklist.Text

variable {line text run before after d : List Char} {c : Char}

-- Something, and nothing but host characters
def IsHost (text : List Char) : Prop := text ≠ [] ∧ ∀ c ∈ text, isHostChar c = true

-- No host character comes first
def StartsOff (text : List Char) : Prop := ∀ c ∈ text.head?, isHostChar c = false

theorem startsOff_cons (hc : isHostChar c = false) : StartsOff (c :: text) := by
  intro other hother
  rwa [← Option.some.inj hother]

theorem IsHost.not_startsOff (h : IsHost run) : ¬ StartsOff (run ++ after) := by
  intro hoff
  obtain ⟨c, run', rfl⟩ := List.exists_cons_of_ne_nil h.1
  have hc := hoff c rfl
  simp [h.2 c List.mem_cons_self] at hc

theorem hostSpan_append (hrun : ∀ c ∈ run, isHostChar c = true) (hafter : StartsOff after) :
    hostSpan (run ++ after) = (run, after) := by
  rw [hostSpan, List.takeWhile_append_of_pos hrun, List.dropWhile_append_of_pos hrun]
  cases after with
  | nil => simp
  | cons c after => simp [hafter c rfl]

theorem hostSpan_spec (text : List Char) : ∃ run after, hostSpan text = (run, after) ∧
    text = run ++ after ∧ (∀ c ∈ run, isHostChar c = true) ∧ StartsOff after := by
  refine ⟨_, _, rfl, List.takeWhile_append_dropWhile.symm, fun c => List.mem_takeWhile_imp, ?_⟩
  intro c hc
  have h := List.head?_dropWhile_not isHostChar text
  rwa [show (text.dropWhile isHostChar).head? = some c from hc] at h

-- Two ways to split a text after its first host characters are the same
theorem split_unique {run' after' : List Char} (hrun : ∀ c ∈ run, isHostChar c = true)
    (hafter : StartsOff after) (hrun' : ∀ c ∈ run', isHostChar c = true)
    (hafter' : StartsOff after') (h : run ++ after = run' ++ after') :
    run = run' ∧ after = after' := by
  have hspan := hostSpan_append hrun hafter
  rw [h, hostSpan_append hrun' hafter'] at hspan
  exact ⟨(congrArg Prod.fst hspan).symm, (congrArg Prod.snd hspan).symm⟩

-- Lines of hosts files

theorem visible_of_isHostChar (hc : isHostChar c = true) : 0x21 ≤ c.toNat ∧ c.toNat ≤ 0x7E := by
  simp only [isHostChar, Char.isAlphanum, Bool.or_eq_true, beq_iff_eq] at hc
  rcases hc with ((halpha | hdigit) | rfl) | rfl
  · have hcode := code_of_isAlpha halpha
    omega
  · have hcode := code_of_isDigit hdigit
    omega
  · decide
  · decide

theorem isBlank_of_isHostChar (hc : isHostChar c = true) : isBlank c = false :=
  isBlank_of_visible (visible_of_isHostChar hc)

theorem isHostChar_of_isBlank (hc : isBlank c = true) : isHostChar c = false := by
  rw [Bool.eq_false_iff]
  intro hhost
  simp [isBlank_of_isHostChar hhost] at hc

theorem afterAddress_eq_some {rest : List Char} :
    (sinkAddresses.findSome? fun address => address.isPrefixOf? line) = some rest ↔
      ∃ address ∈ sinkAddresses, line = address ++ rest := by
  constructor
  · intro h
    obtain ⟨address, hmem, hrest⟩ := List.exists_of_findSome?_eq_some h
    exact ⟨address, hmem, (List.isPrefixOf?_eq_some_iff_append_eq.mp hrest).symm⟩
  · rintro ⟨address, hmem, rfl⟩
    simp only [sinkAddresses, List.mem_cons, List.not_mem_nil, or_false] at hmem
    rcases hmem with rfl | rfl <;> rfl

theorem hostAfterAddress_eq_some {rest : List Char} : hostAfterAddress rest = some d ↔
    ∃ blanks, blanks ≠ [] ∧ (∀ c ∈ blanks, isBlank c = true) ∧ IsHost d ∧ rest = blanks ++ d := by
  constructor
  · intro h
    simp only [hostAfterAddress, Option.ite_none_right_eq_some, Bool.and_eq_true, decide_eq_true_eq,
      Bool.not_eq_true', List.isEmpty_eq_false_iff, List.all_eq_true, Option.some.injEq] at h
    obtain ⟨⟨⟨hshort, hne⟩, hall⟩, rfl⟩ := h
    have hsplit : rest = rest.takeWhile isBlank ++ rest.dropWhile isBlank :=
      List.takeWhile_append_dropWhile.symm
    refine ⟨rest.takeWhile isBlank, ?_, fun c => List.mem_takeWhile_imp, ⟨hne, hall⟩, hsplit⟩
    intro hnil
    rw [hnil, List.nil_append] at hsplit
    exact absurd (congrArg List.length hsplit) (by omega)
  · rintro ⟨blanks, hblanks, hall, ⟨hne, hhost⟩, rfl⟩
    have hdrop : (blanks ++ d).dropWhile isBlank = d := by
      rw [List.dropWhile_append_of_pos hall]
      cases d with
      | nil => rfl
      | cons c d => simp [isBlank_of_isHostChar (hhost c List.mem_cons_self)]
    have hlength := List.length_pos_iff.mpr hblanks
    simpa [hostAfterAddress, hdrop, hne, hlength] using hhost

theorem hosts_eq_some : hosts line = some d ↔ ∃ address blanks,
    address ∈ sinkAddresses ∧ blanks ≠ [] ∧ (∀ c ∈ blanks, isBlank c = true) ∧
      IsHost d ∧ line = address ++ (blanks ++ d) := by
  simp only [hosts, Option.bind_eq_some_iff, afterAddress_eq_some, hostAfterAddress_eq_some]
  constructor
  · rintro ⟨rest, ⟨address, hmem, rfl⟩, blanks, hblanks, hall, hd, rfl⟩
    exact ⟨address, blanks, hmem, hblanks, hall, hd, rfl⟩
  · rintro ⟨address, blanks, hmem, hblanks, hall, hd, rfl⟩
    exact ⟨blanks ++ d, ⟨address, hmem, rfl⟩, blanks, hblanks, hall, hd, rfl⟩

-- Domain anchors

-- `||`, a host and `^`, behind `before`
def AnchorAt (line before d : List Char) : Prop :=
  IsHost d ∧ ∃ after, line = before ++ '|' :: '|' :: (d ++ '^' :: after)

theorem startsOff_caret : StartsOff ('^' :: after) := startsOff_cons (by decide)

theorem anchorAt_cons {b : Char} :
    AnchorAt (c :: text) (b :: before) d ↔ b = c ∧ AnchorAt text before d := by
  simp only [AnchorAt, List.cons_append, List.cons.injEq]
  constructor
  · rintro ⟨hd, after, rfl, htext⟩
    exact ⟨rfl, hd, after, htext⟩
  · rintro ⟨rfl, hd, after, htext⟩
    exact ⟨hd, after, rfl, htext⟩

theorem AnchorAt.eq {before' d' : List Char} (h : AnchorAt line before d)
    (h' : AnchorAt line before' d') (hlength : before.length = before'.length) : d = d' := by
  obtain ⟨hd, after, rfl⟩ := h
  obtain ⟨hd', after', hline⟩ := h'
  have htails := (List.append_inj hline hlength).2
  simp only [List.cons.injEq, true_and] at htails
  exact (split_unique hd.2 startsOff_caret hd'.2 startsOff_caret htails).1

theorem anchorHere_eq_some : anchorHere text = some d ↔ AnchorAt text [] d := by
  simp only [anchorHere, Option.bind_eq_bind, Option.bind_eq_some_iff,
    List.isPrefixOf?_eq_some_iff_append_eq]
  constructor
  · rintro ⟨rest, rfl, hrest⟩
    obtain ⟨run, after, hspan, rfl, hrun, -⟩ := hostSpan_spec rest
    simp only [hspan, Option.ite_none_right_eq_some, Bool.and_eq_true, Bool.not_eq_true',
      List.isEmpty_eq_false_iff, beq_iff_eq, Option.some.injEq] at hrest
    obtain ⟨⟨hne, hcaret⟩, rfl⟩ := hrest
    obtain ⟨after, rfl⟩ := List.head?_eq_some_iff.mp hcaret
    exact ⟨⟨hne, hrun⟩, after, rfl⟩
  · rintro ⟨hd, after, rfl⟩
    refine ⟨d ++ '^' :: after, rfl, ?_⟩
    simp [hostSpan_append hd.2 startsOff_caret, hd.1]

-- By induction on the line: an anchor at its start is the leftmost, and else it is the
-- leftmost of the rest
theorem anchor_spec (line : List Char) :
    (anchor line = none ∧ ∀ before d, ¬ AnchorAt line before d) ∨
    ∃ before d, anchor line = some d ∧ AnchorAt line before d ∧
      ∀ before' d', AnchorAt line before' d' → before.length ≤ before'.length := by
  induction line with
  | nil => exact .inl ⟨rfl, fun before d h => by simp [AnchorAt] at h⟩
  | cons c text ih =>
      cases hhere : anchorHere (c :: text) with
      | some d =>
          refine .inr ⟨[], d, ?_, anchorHere_eq_some.mp hhere, fun _ _ _ => Nat.zero_le _⟩
          rw [anchor, hhere, Option.some_or]
      | none =>
          have hnot : ∀ d, ¬ AnchorAt (c :: text) [] d := fun d h => by
            rw [← anchorHere_eq_some, hhere] at h
            cases h
          have hanchor : anchor (c :: text) = anchor text := by
            rw [anchor, hhere, Option.none_or]
          rw [hanchor]
          rcases ih with ⟨hnone, hno⟩ | ⟨before, d, hsome, hat, hleast⟩
          · refine .inl ⟨hnone, fun before d h => ?_⟩
            cases before with
            | nil => exact hnot d h
            | cons b before => exact hno before d (anchorAt_cons.mp h).2
          · refine .inr ⟨c :: before, d, hsome, anchorAt_cons.mpr ⟨rfl, hat⟩, ?_⟩
            intro before' d' h
            cases before' with
            | nil => exact absurd h (hnot d')
            | cons b before' =>
                exact Nat.succ_le_succ (hleast before' d' (anchorAt_cons.mp h).2)

theorem anchor_eq_some : anchor line = some d ↔ ∃ before, AnchorAt line before d ∧
    ∀ before' d', AnchorAt line before' d' → before.length ≤ before'.length := by
  constructor
  · intro h
    rcases anchor_spec line with ⟨hnone, -⟩ | ⟨before, d', hsome, hat, hleast⟩
    · rw [hnone] at h
      cases h
    · obtain rfl := Option.some.inj (hsome.symm.trans h)
      exact ⟨before, hat, hleast⟩
  · rintro ⟨before, hat, hleast⟩
    rcases anchor_spec line with ⟨-, hno⟩ | ⟨before', d', hsome, hat', hleast'⟩
    · exact absurd hat (hno before d)
    · rw [hsome, hat.eq hat' (Nat.le_antisymm (hleast _ _ hat') (hleast' _ _ hat))]

theorem anchor_of_not_mem (h : '|' ∉ line) : anchor line = none := by
  refine Option.eq_none_iff_forall_ne_some.mpr fun found hfound => ?_
  obtain ⟨before, ⟨-, after, rfl⟩, -⟩ := anchor_eq_some.mp hfound
  exact h (by simp)

-- Runs of host characters

-- A run with no host character next to it
structure IsRun (line before run after : List Char) : Prop where
  split : line = before ++ (run ++ after)
  host : IsHost run
  left : ∀ c ∈ before.getLast?, isHostChar c = false
  right : StartsOff after

theorem isRun_append (hrun : IsHost run) (hafter : StartsOff after) :
    IsRun (run ++ after) [] run after where
  split := rfl
  host := hrun
  left := fun _ hc => nomatch hc
  right := hafter

theorem IsRun.eq {before' run' after' : List Char} (h : IsRun line before run after)
    (h' : IsRun line before' run' after') (hlength : before.length = before'.length) :
    run = run' := by
  have htails := (List.append_inj (h.split.symm.trans h'.split) hlength).2
  exact (split_unique h.host.2 h.right h'.host.2 h'.right htails).1

-- A line is a character that is not of a host and a line, or a run and what follows it
theorem runs_induction {motive : List Char → Prop} (nil : motive [])
    (skip : ∀ c text, isHostChar c = false → motive text → motive (c :: text))
    (run : ∀ run after, IsHost run → StartsOff after → motive after → motive (run ++ after))
    (line : List Char) : motive line := by
  generalize hn : line.length = n
  induction n using Nat.strong_induction_on generalizing line with
  | _ n ih =>
      obtain ⟨host, after, -, rfl, hhost, hafter⟩ := hostSpan_spec line
      by_cases hne : host = []
      · subst hne
        cases after with
        | nil => exact nil
        | cons c text => exact skip c text (hafter c rfl) (ih text.length (by simp [← hn]) text rfl)
      · have hshorter : after.length < n := by
          have := List.length_pos_iff.mpr hne
          simp only [List.length_append] at hn
          omega
        exact run host after ⟨hne, hhost⟩ hafter (ih after.length hshorter after rfl)

-- The runs of a line are those of its parts

theorem IsRun.cons (h : IsRun text before run after) (hc : isHostChar c = false) :
    IsRun (c :: text) (c :: before) run after := by
  refine ⟨congrArg (c :: ·) h.split, h.host, fun b hb => ?_, h.right⟩
  cases before with
  | nil => simpa using (Option.some.inj hb) ▸ hc
  | cons b' before => exact h.left b (by simpa [List.getLast?_cons_cons] using hb)

theorem IsRun.of_cons (h : IsRun (c :: text) before run after) (hc : isHostChar c = false) :
    ∃ b, before = c :: b ∧ IsRun text b run after := by
  cases before with
  | nil => exact absurd (h.split ▸ startsOff_cons hc) h.host.not_startsOff
  | cons b before =>
      obtain ⟨rfl, hsplit⟩ := List.cons.inj h.split
      refine ⟨before, rfl, hsplit, h.host, fun b hb => h.left b ?_, h.right⟩
      cases before with
      | nil => cases hb
      | cons b' before => simpa [List.getLast?_cons_cons] using hb

theorem IsRun.append {first : List Char} (h : IsRun text before run after)
    (htext : StartsOff text) : IsRun (first ++ text) (first ++ before) run after := by
  refine ⟨by rw [h.split, List.append_assoc], h.host, fun b hb => h.left b ?_, h.right⟩
  cases before with
  | nil => exact absurd (h.split ▸ htext) h.host.not_startsOff
  | cons b' before => simpa [List.getLast?_append] using hb

theorem IsRun.of_append {first : List Char} (h : IsRun (first ++ text) before run after)
    (hfirst : IsHost first) (htext : StartsOff text) :
    before = [] ∧ run = first ∨ ∃ b, before = first ++ b ∧ IsRun text b run after := by
  rcases List.append_eq_append_iff.mp h.split with ⟨b, rfl, hsplit⟩ | ⟨rest, hrest, htails⟩
  · refine .inr ⟨b, rfl, hsplit, h.host, fun c hc => h.left c ?_, h.right⟩
    cases b with
    | nil => cases hc
    | cons b' b => simpa [List.getLast?_append] using hc
  · by_cases hbefore : before = []
    · subst hbefore
      have hsplit : first ++ text = run ++ after := h.split
      exact .inl ⟨rfl, (split_unique hfirst.2 htext h.host.2 h.right hsplit).1.symm⟩
    · -- the run would begin within `first`, right behind a host character
      have hlast := List.getLast_mem hbefore
      have hoff := h.left _ (List.getLast?_eq_some_getLast hbefore)
      simp [hfirst.2 _ (hrest ▸ List.mem_append_left rest hlast)] at hoff

-- Cosmetic filters

theorem cosmetic_eq_some : cosmetic line = some d ↔
    ∃ c rest, IsRun line [] d ('#' :: '#' :: '#' :: c :: rest) ∧ c ≠ '#' := by
  obtain ⟨run, after, hspan, rfl, hrun, hafter⟩ := hostSpan_spec line
  simp only [cosmetic, hspan, Option.bind_eq_bind, Option.bind_eq_some_iff,
    List.isPrefixOf?_eq_some_iff_append_eq, Option.ite_none_right_eq_some, Bool.and_eq_true,
    Bool.not_eq_true', List.isEmpty_eq_false_iff, bne_iff_ne, Option.some.injEq]
  constructor
  · rintro ⟨tail, rfl, c, hc, ⟨hne, hhash⟩, rfl⟩
    obtain ⟨rest, rfl⟩ := List.head?_eq_some_iff.mp hc
    exact ⟨c, rest, isRun_append ⟨hne, hrun⟩ hafter, hhash⟩
  · rintro ⟨c, rest, h, hhash⟩
    obtain ⟨rfl, rfl⟩ := split_unique hrun hafter h.host.2 h.right h.split
    exact ⟨c :: rest, rfl, c, rfl, ⟨h.host.1, hhash⟩, rfl⟩

theorem cosmetic_of_not_mem (h : '#' ∉ line) : cosmetic line = none := by
  refine Option.eq_none_iff_forall_ne_some.mpr fun found hfound => ?_
  obtain ⟨c, rest, hrun, -⟩ := cosmetic_eq_some.mp hfound
  exact h (by simp [hrun.split])

-- Anything that looks like a domain

-- At `i` stands a dot with two letters or more behind it
def LabelAt (text : List Char) (i : Nat) : Prop :=
  text[i]? = some '.' ∧ 2 ≤ ((text.drop (i + 1)).takeWhile Char.isAlpha).length

-- The text up to the end of the letters behind `i`
def throughLabel (text : List Char) (i : Nat) : List Char :=
  text.take (i + 1) ++ (text.drop (i + 1)).takeWhile Char.isAlpha

-- The places of the dots with something before them and a label behind them
def labels (run : List Char) : Set Nat := {i | 1 ≤ i ∧ LabelAt run i}

theorem labelAt_succ {i : Nat} : LabelAt (c :: text) (i + 1) ↔ LabelAt text i := by
  simp [LabelAt]

theorem throughLabel_succ (c : Char) (text : List Char) (i : Nat) :
    throughLabel (c :: text) (i + 1) = c :: throughLabel text i := rfl

theorem throughLastLabel_spec (text : List Char) :
    (throughLastLabel text = none ∧ ∀ i, ¬ LabelAt text i) ∨
    ∃ i, IsGreatest {i | LabelAt text i} i ∧
      throughLastLabel text = some (throughLabel text i) := by
  induction text with
  | nil => exact .inl ⟨rfl, fun i h => by simp [LabelAt] at h⟩
  | cons c text ih =>
      rcases ih with ⟨hnone, hno⟩ | ⟨i, ⟨hlabel, hlast⟩, hsome⟩
      · by_cases hhere : LabelAt (c :: text) 0
        · refine .inr ⟨0, ⟨hhere, fun j hj => ?_⟩, ?_⟩
          · cases j with
            | zero => exact Nat.le_refl 0
            | succ j => exact absurd (labelAt_succ.mp hj) (hno j)
          · obtain ⟨hdot, hletters⟩ := hhere
            obtain rfl : c = '.' := by simpa using hdot
            have hlength : 2 ≤ (text.takeWhile Char.isAlpha).length := hletters
            simp [throughLastLabel, hnone, hlength, throughLabel]
        · refine .inl ⟨?_, fun i hi => ?_⟩
          · have hnot : ¬ (c = '.' ∧ 2 ≤ (text.takeWhile Char.isAlpha).length) := by
              simpa [LabelAt] using hhere
            simp only [throughLastLabel, hnone, beq_iff_eq]
            split
            · rename_i hdot
              exact if_neg fun hletters => hnot ⟨hdot, hletters⟩
            · rfl
          · cases i with
            | zero => exact hhere hi
            | succ i => exact hno i (labelAt_succ.mp hi)
      · refine .inr ⟨i + 1, ⟨labelAt_succ.mpr hlabel, fun j hj => ?_⟩, ?_⟩
        · cases j with
          | zero => exact Nat.zero_le _
          | succ j => exact Nat.succ_le_succ (hlast (labelAt_succ.mp hj))
        · rw [throughLastLabel, hsome, throughLabel_succ]

theorem domainOfRun_spec (run : List Char) :
    (domainOfRun run = none ∧ labels run = ∅) ∨
    ∃ i, IsGreatest (labels run) i ∧ domainOfRun run = some (throughLabel run i) := by
  cases run with
  | nil =>
      refine .inl ⟨rfl, Set.eq_empty_of_forall_notMem fun i hi => ?_⟩
      simp [labels, LabelAt] at hi
  | cons c run =>
      rcases throughLastLabel_spec run with ⟨hnone, hno⟩ | ⟨i, ⟨hlabel, hlast⟩, hsome⟩
      · refine .inl ⟨by rw [domainOfRun, hnone, Option.map_none], ?_⟩
        refine Set.eq_empty_of_forall_notMem fun i hi => ?_
        obtain ⟨i, rfl⟩ := Nat.exists_eq_add_of_le' hi.1
        exact hno i (labelAt_succ.mp hi.2)
      · refine .inr ⟨i + 1, ⟨⟨Nat.succ_pos i, labelAt_succ.mpr hlabel⟩, fun j hj => ?_⟩, ?_⟩
        · obtain ⟨j, rfl⟩ := Nat.exists_eq_add_of_le' hj.1
          exact Nat.succ_le_succ (hlast (labelAt_succ.mp hj.2))
        · rw [domainOfRun, hsome, Option.map_some, throughLabel_succ]

theorem domainOfRun_eq_none : domainOfRun run = none ↔ labels run = ∅ := by
  rcases domainOfRun_spec run with ⟨hnone, hempty⟩ | ⟨i, hlast, hsome⟩
  · exact iff_of_true hnone hempty
  · exact iff_of_false (by simp [hsome]) (Set.nonempty_of_mem hlast.1).ne_empty

theorem domainOfRun_eq_some :
    domainOfRun run = some d ↔ ∃ i, IsGreatest (labels run) i ∧ throughLabel run i = d := by
  rcases domainOfRun_spec run with ⟨hnone, hempty⟩ | ⟨i, hlast, hsome⟩
  · refine iff_of_false (by simp [hnone]) ?_
    rintro ⟨i, hlast, -⟩
    exact absurd hlast.1 (by simp [hempty])
  · rw [hsome, Option.some.injEq]
    constructor
    · exact fun h => ⟨i, hlast, h⟩
    · rintro ⟨j, hlast', rfl⟩
      rw [hlast.unique hlast']

theorem generic_nil : generic [] = none := rfl

theorem generic_append_cons (hrun : ∀ c ∈ run, isHostChar c = true) (hc : isHostChar c = false)
    (text : List Char) : generic (run ++ c :: text) = (domainOfRun run).or (generic text) := by
  have hsplit : (run ++ c :: text).splitOnP (fun c => !isHostChar c) =
      run :: text.splitOnP (fun c => !isHostChar c) :=
    List.splitOnP_append_cons_of_forall_mem (fun c hmem => by simp [hrun c hmem]) c
      (by simp [hc]) text
  rw [generic, hsplit, List.findSome?_cons]
  cases domainOfRun run <;> rfl

theorem generic_cons (hc : isHostChar c = false) (text : List Char) :
    generic (c :: text) = generic text := by
  have hnil : ∀ c ∈ ([] : List Char), isHostChar c = true := by simp
  exact generic_append_cons hnil hc text

theorem generic_append (hrun : ∀ c ∈ run, isHostChar c = true) (hafter : StartsOff after) :
    generic (run ++ after) = (domainOfRun run).or (generic after) := by
  cases after with
  | nil =>
      have hsplit : run.splitOnP (fun c => !isHostChar c) = [run] :=
        List.splitOnP_eq_singleton fun c hmem => by simp [hrun c hmem]
      rw [List.append_nil, generic, hsplit, generic_nil, Option.or_none, List.findSome?_singleton]
  | cons c text =>
      have hc := hafter c rfl
      rw [generic_append_cons hrun hc, generic_cons hc]

theorem generic_of_isHost (h : IsHost run) : generic run = domainOfRun run := by
  have hend : StartsOff [] := nofun
  have halone := generic_append h.2 hend
  rwa [List.append_nil, generic_nil, Option.or_none] at halone

theorem generic_skip (h : ∀ c ∈ before, isHostChar c = false) (text : List Char) :
    generic (before ++ text) = generic text := by
  induction before with
  | nil => rfl
  | cons c before ih =>
      obtain ⟨hc, hrest⟩ := List.forall_mem_cons.mp h
      rw [List.cons_append, generic_cons hc, ih hrest]

-- Where no run goes on, the search in a line is one in its first part and then in the rest
theorem generic_append_of_startsOff (line : List Char) (hafter : StartsOff after) :
    generic (line ++ after) = (generic line).or (generic after) := by
  induction line using runs_induction with
  | nil => rw [generic_nil, Option.none_or, List.nil_append]
  | skip c text hc ih => rw [List.cons_append, generic_cons hc, generic_cons hc, ih]
  | run run rest hrun hrest ih =>
      have hgoesOn : StartsOff (rest ++ after) := by
        cases rest with
        | nil => exact hafter
        | cons c rest => exact startsOff_cons (hrest c rfl)
      rw [List.append_assoc, generic_append hrun.2 hgoesOn, generic_append hrun.2 hrest, ih,
        Option.or_assoc]

-- The first run that has a label
structure IsFirst (line before run after : List Char) : Prop where
  isRun : IsRun line before run after
  first : ∀ before' run' after', IsRun line before' run' after' → labels run' ≠ ∅ →
    before.length ≤ before'.length

-- By induction on the runs of the line: a first run with a label is the first, and else it
-- is the first of the rest
theorem generic_spec (line : List Char) :
    (generic line = none ∧ ∀ before run after, IsRun line before run after → labels run = ∅) ∨
    ∃ before run after i, IsFirst line before run after ∧ IsGreatest (labels run) i ∧
      generic line = some (throughLabel run i) := by
  induction line using runs_induction with
  | nil =>
      refine .inl ⟨generic_nil, fun before run after h => ?_⟩
      simpa [h.host.1] using h.split
  | skip c text hc ih =>
      rw [generic_cons hc]
      rcases ih with ⟨hnone, hno⟩ | ⟨before, run, after, i, hfirst, hlast, hsome⟩
      · refine .inl ⟨hnone, fun before run after h => ?_⟩
        obtain ⟨b, -, hrest⟩ := h.of_cons hc
        exact hno b run after hrest
      · refine .inr ⟨c :: before, run, after, i, ⟨hfirst.isRun.cons hc, ?_⟩, hlast, hsome⟩
        intro before' run' after' h hlabels
        obtain ⟨b, rfl, hrest⟩ := h.of_cons hc
        exact Nat.succ_le_succ (hfirst.first b run' after' hrest hlabels)
  | run first text hhost htext ih =>
      rw [generic_append hhost.2 htext]
      rcases domainOfRun_spec first with ⟨hnone, hempty⟩ | ⟨i, hlast, hsome⟩
      · rw [hnone, Option.none_or]
        rcases ih with ⟨hnone, hno⟩ | ⟨before, run, after, i, hfirst, hlast, hsome⟩
        · refine .inl ⟨hnone, fun before run after h => ?_⟩
          rcases h.of_append hhost htext with ⟨-, rfl⟩ | ⟨b, -, hrest⟩
          · exact hempty
          · exact hno b run after hrest
        · refine .inr ⟨first ++ before, run, after, i, ⟨hfirst.isRun.append htext, ?_⟩, hlast,
            hsome⟩
          intro before' run' after' h hlabels
          rcases h.of_append hhost htext with ⟨-, rfl⟩ | ⟨b, rfl, hrest⟩
          · exact absurd hempty hlabels
          · have := hfirst.first b run' after' hrest hlabels
            simp only [List.length_append]
            omega
      · rw [hsome, Option.some_or]
        refine .inr ⟨[], first, text, i, ⟨isRun_append hhost htext, ?_⟩, hlast, rfl⟩
        exact fun _ _ _ _ _ => Nat.zero_le _

theorem generic_eq_none : generic line = none ↔
    ∀ before run after, IsRun line before run after → labels run = ∅ := by
  rcases generic_spec line with ⟨hnone, hno⟩ | ⟨before, run, after, i, hfirst, hlast, hsome⟩
  · exact iff_of_true hnone hno
  · refine iff_of_false (by simp [hsome]) fun hno => ?_
    exact absurd hlast.1 (by simp [hno before run after hfirst.isRun])

theorem generic_eq_some : generic line = some d ↔ ∃ before run after i,
    IsFirst line before run after ∧ IsGreatest (labels run) i ∧ d = throughLabel run i := by
  constructor
  · intro h
    rcases generic_spec line with ⟨hnone, -⟩ | ⟨before, run, after, i, hfirst, hlast, hsome⟩
    · rw [hnone] at h
      cases h
    · exact ⟨before, run, after, i, hfirst, hlast, Option.some.inj (h.symm.trans hsome)⟩
  · rintro ⟨before, run, after, i, hfirst, hlast, rfl⟩
    rcases generic_spec line with ⟨-, hno⟩ | ⟨before', run', after', i', hfirst', hlast', hsome⟩
    · exact absurd hlast.1 (by simp [hno before run after hfirst.isRun])
    · have hlength : before.length = before'.length :=
        Nat.le_antisymm (hfirst.first _ _ _ hfirst'.isRun (Set.nonempty_of_mem hlast'.1).ne_empty)
          (hfirst'.first _ _ _ hfirst.isRun (Set.nonempty_of_mem hlast.1).ne_empty)
      obtain rfl := hfirst.isRun.eq hfirst'.isRun hlength
      rw [hsome, hlast.unique hlast']

-- Hosts files say it to the very end of the line, anchors leftmost, cosmetic filters from the
-- start of the line, and anything else by its first run that looks like a domain
theorem matchers_find_what_stands_there (line d : List Char) :
    (hosts line = some d ↔ ∃ address blanks,
      (address = "0.0.0.0".toList ∨ address = "127.0.0.1".toList) ∧
      blanks ≠ [] ∧ (∀ c ∈ blanks, isBlank c = true) ∧ IsHost d ∧
      line = address ++ (blanks ++ d)) ∧
    (anchor line = some d ↔ ∃ before, AnchorAt line before d ∧
      ∀ before' d', AnchorAt line before' d' → before.length ≤ before'.length) ∧
    (cosmetic line = some d ↔ ∃ c rest,
      IsRun line [] d ('#' :: '#' :: '#' :: c :: rest) ∧ c ≠ '#') ∧
    (generic line = some d ↔ ∃ before run after i, IsFirst line before run after ∧
      IsGreatest (labels run) i ∧ d = throughLabel run i) ∧
    (generic line = none ↔ ∀ before run after, IsRun line before run after → labels run = ∅) := by
  refine ⟨?_, anchor_eq_some, cosmetic_eq_some, generic_eq_some, generic_eq_none⟩
  simp only [hosts_eq_some, sinkAddresses, List.mem_cons, List.not_mem_nil, or_false]

-- A line end does not belong to a host, a bar may come before an anchor, and a label is of
-- letters only as far as it is taken
example : hosts "0.0.0.0 a.bc\n".toList = none ∧
    anchor "|||a.b^".toList = some "a.b".toList ∧
    generic "a.b.c1".toList = none ∧ generic "-..com7".toList = some "-..com".toList := by decide

end Blocklist.Domain.Matcher
