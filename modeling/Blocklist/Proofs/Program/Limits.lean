import Mathlib.Algebra.Ring.Nat
import Blocklist.Proofs.Fetch.Served
import Blocklist.Proofs.Pool.Limit
import Blocklist.Proofs.Program.Course
import Blocklist.Proofs.Rules.Build
import Blocklist.Proofs.Settings.Verbosity
-- Limits of the machine, and which runs pass one of them. A run that passes none ends with
-- success, with a failure, or because its settings are wrong.
namespace Blocklist.Program

open Blocklist.Fetch Blocklist.Files Blocklist.Log Blocklist.Settings

variable {σ κ : Type} {fs : FileSystem σ κ} {world : World} {i : Invocation} {s left : σ}
  {a : Arguments} {filter : Filter} {settings : Settings} {p q : Plan} {ending : Ending}

-- The domains that are collected for up to `limit` rules
def Plan.domainsUpTo (p : Plan) (world : World) (limit : Nat) : List String :=
  (p.collected world limit).domains

-- The domains that a run collects
def Plan.domains (p : Plan) (world : World) : List String :=
  p.domainsUpTo world p.settings.limit

-- What a one-shot run may ask too much of: the byte that the level of its log lines is counted
-- in, a span of time, its threads, the permits of a batch, and the identifiers of rules
inductive PassesLimit (fs : FileSystem σ κ) (world : World) (i : Invocation) (s : σ)
    (a : Arguments) : Prop
  | level (unset : i.logText = none) (overflows : a.settings.verbosity.Overflows)
  | deadline (beyond : (loadSettings fs.disk a s).1 = .error .beyond)
  | threads {settings : Settings} (loaded : (loadSettings fs.disk a s).1 = .ok settings)
      (none : settings.threads = some 0)
  | ceiling {settings : Settings} {p : Plan} (loaded : (loadSettings fs.disk a s).1 = .ok settings)
      (plans : Plans fs s settings p) (above : 2 ^ 61 - 1 < settings.maxConcurrency)
  | identifiers {settings : Settings} {p : Plan}
      (loaded : (loadSettings fs.disk a s).1 = .ok settings) (plans : Plans fs s settings p)
      (above : 2 ^ 32 - 2002 < (p.domains world).length)

theorem filterOf_eq_error_iff {v : Verbosity} :
    (∃ e, filterOf i v = .error e) ↔ i.logText = none ∧ v.Overflows := by
  rw [← Verbosity.level_eq_error_iff]
  unfold filterOf
  cases i.logText with
  | none => cases v.level <;> simp [Except.map]
  | some text => simp

theorem isPossible_iff (settings : Settings) :
    settings.generator.isPossible = true ↔ settings.maxConcurrency ≤ 2 ^ 61 - 1 := by
  have hmax : Pool.maxCeiling = 2 ^ 61 - 1 := by decide
  have hfallback : Pool.fallbackCeiling = 4 := rfl
  simp only [Settings.generator, Pool.Generator.isPossible, decide_eq_true_eq, hmax]
  unfold Pool.effectiveCeiling
  split <;> omega

-- There are no rules if a batch cannot be had, or if there are more domains than identifiers
theorem generate?_eq_none_iff {limit : Nat} : generate? p world limit = none ↔
    2 ^ 61 - 1 < p.settings.maxConcurrency ∨
      2 ^ 32 - 2002 < (p.domainsUpTo world limit).length := by
  have hpossible := isPossible_iff p.settings
  have hfirst : Rule.firstId = 2000 := rfl
  have hbound : Text.bound32 = 2 ^ 32 := by decide
  simp only [generate?]
  split
  case isTrue hbatch =>
    have hceiling := hpossible.mp hbatch
    rw [Option.map_eq_none_iff, Rule.build?_eq, ite_eq_right_iff, hfirst, hbound]
    simp only [Plan.domainsUpTo, reduceCtorEq, imp_false]
    omega
  case isFalse hbatch =>
    have hceiling := hpossible.not.mp hbatch
    simp only [true_iff]
    omega

-- There is one plan at most
theorem Plans.eq (h : Plans fs s settings p) (g : Plans fs s settings q) : q = p := by
  have hdataset : p.dataset = q.dataset := Except.ok.inj (h.dataset.symm.trans g.dataset)
  have hcreated := g.created
  rw [← hdataset, h.created] at hcreated
  exact (Except.ok.inj hcreated).symm

-- A run that goes as far as its plans passes a limit only while it generates rules
theorem Starts.not_passesLimit (starts : Starts fs i s a filter settings)
    (hrules : ∀ p, Plans fs s settings p → generate? p world p.settings.limit ≠ none) :
    ¬ PassesLimit fs world i s a := by
  intro passes
  cases passes with
  | level unset overflows =>
      obtain ⟨e, herror⟩ := filterOf_eq_error_iff.mpr ⟨unset, overflows⟩
      cases starts.level.symm.trans herror
  | deadline beyond => cases starts.loaded.symm.trans beyond
  | threads loaded none =>
      cases starts.loaded.symm.trans loaded
      exact starts.threads none
  | @ceiling _ p loaded plans above =>
      cases starts.loaded.symm.trans loaded
      rw [← plans.settings_eq] at above
      exact hrules p plans (generate?_eq_none_iff.mpr (.inl above))
  | @identifiers _ p loaded plans above =>
      cases starts.loaded.symm.trans loaded
      exact hrules p plans (generate?_eq_none_iff.mpr (.inr above))

-- How a one-shot run ends
structure Ends (fs : FileSystem σ κ) (world : World) (i : Invocation) (s : σ) (a : Arguments)
    (exit : Exit) : Prop where
  crash : exit = .crash ↔ PassesLimit fs world i s a
  regular : exit ≠ .crash → exit.code = 0 ∨ exit.code = 1 ∨ exit.code = 3

theorem ends_crash (h : PassesLimit fs world i s a) : Ends fs world i s a .crash :=
  ⟨⟨fun _ => h, fun _ => rfl⟩, fun hexit => absurd rfl hexit⟩

theorem Starts.ends {exit : Exit} (starts : Starts fs i s a filter settings)
    (hrules : ∀ p, Plans fs s settings p → generate? p world p.settings.limit ≠ none)
    (hexit : exit = .success ∨ exit = .failure) : Ends fs world i s a exit where
  crash := by
    refine ⟨fun hcrash => ?_, fun passes => absurd passes (starts.not_passesLimit hrules)⟩
    rcases hexit with rfl | rfl <;> cases hcrash
  regular _ := by
    rcases hexit with rfl | rfl
    · exact .inl rfl
    · exact .inr (.inl rfl)

-- Each course ends, and with a crash just if it passes a limit
theorem Course.ends (c : Course fs world i s ending left)
    (hargs : readArguments i.address i.arguments = .ok a) (honce : a.runs = .generate) :
    ∃ r, ending = .done r ∧ Ends fs world i s a r.exit := by
  cases c with
  | stopped arguments => cases hargs.symm.trans arguments
  | noLevel arguments level =>
      cases hargs.symm.trans arguments
      obtain ⟨unset, overflows⟩ := filterOf_eq_error_iff.mp ⟨_, level⟩
      exact ⟨_, rfl, ends_crash (.level unset overflows)⟩
  | beyond arguments level bad =>
      cases hargs.symm.trans arguments
      exact ⟨_, rfl, ends_crash (.deadline bad)⟩
  | badSettings arguments level bad within =>
      cases hargs.symm.trans arguments
      refine ⟨_, rfl, ⟨nofun, fun passes => ?_⟩, fun _ => .inr (.inr rfl)⟩
      cases passes with
      | level unset overflows =>
          obtain ⟨e, herror⟩ := filterOf_eq_error_iff.mpr ⟨unset, overflows⟩
          cases level.symm.trans herror
      | deadline beyond => exact absurd (Except.error.inj (bad.symm.trans beyond)) within
      | threads loaded => cases bad.symm.trans loaded
      | ceiling loaded => cases bad.symm.trans loaded
      | identifiers loaded => cases bad.symm.trans loaded
  | noThreads arguments level loaded none =>
      cases hargs.symm.trans arguments
      exact ⟨_, rfl, ends_crash (.threads loaded none)⟩
  | noDataset f starts unreadable =>
      cases hargs.symm.trans starts.arguments
      refine ⟨_, rfl, starts.ends (fun p plans => ?_) (.inr rfl)⟩
      cases plans.dataset.symm.trans unreadable
  | noClient starts dataset unfit =>
      cases hargs.symm.trans starts.arguments
      refine ⟨_, rfl, starts.ends (fun p plans => ?_) (.inr rfl)⟩
      cases dataset.symm.trans plans.dataset
      cases unfit.symm.trans plans.created
  | serves starts plans command =>
      cases hargs.symm.trans starts.arguments
      cases honce.symm.trans command
  | noRules starts plans command none =>
      cases hargs.symm.trans starts.arguments
      refine ⟨_, rfl, ends_crash ?_⟩
      rcases generate?_eq_none_iff.mp none with habove | habove
      · exact .ceiling starts.loaded plans (plans.settings_eq ▸ habove)
      · exact .identifiers starts.loaded plans habove
  | unwritten starts plans command rules refused =>
      cases hargs.symm.trans starts.arguments
      refine ⟨_, rfl, starts.ends (fun q others => ?_) (.inr rfl)⟩
      rw [plans.eq others, rules]
      nofun
  | written starts plans command rules done =>
      cases hargs.symm.trans starts.arguments
      refine ⟨_, rfl, starts.ends (fun q others => ?_) (.inl rfl)⟩
      rw [plans.eq others, rules]
      nofun

-- A one-shot run always ends. It crashes if it passes a limit and in no other case, and ends
-- with one of three codes otherwise.
theorem one_shot_crashes_iff (fs : FileSystem σ κ) (world : World) (i : Invocation) (s : σ)
    (a : Arguments) (hargs : readArguments i.address i.arguments = .ok a)
    (honce : a.runs = .generate) :
    ∃ r left, run fs.disk world i s = (.done r, left) ∧
      (r.exit = .crash ↔ PassesLimit fs world i s a) ∧
      (r.exit ≠ .crash → r.exit.code = 0 ∨ r.exit.code = 1 ∨ r.exit.code = 3) := by
  obtain ⟨r, hending, hends⟩ := (run_course fs world i s).ends hargs honce
  exact ⟨r, _, Prod.ext hending rfl, hends.crash, hends.regular⟩

-- A batch with more permits than there can be
def manyPermits : Invocation :=
  ⟨["-d", "lists.csv", "--max-concurrency", "2305843009213693952"], none, none⟩

def manyPermitsPlan : Plan where
  settings := { Settings.standard with
    dataset := "lists.csv", maxConcurrency := 2305843009213693952 }
  dataset := ⟨[], 0⟩
  client := ⟨Client.standardAgent, isHeaderText_standardAgent, 12000, Client.standardMaxBody⟩

theorem one_shot_crashes_iff_permits :
    ∃ a, readArguments manyPermits.address manyPermits.arguments = .ok a ∧ a.runs = .generate ∧
      ∃ r left, runOn bareTree World.offline manyPermits = (.done r, left) ∧
        r.exit = .crash := by
  have hargs : readArguments manyPermits.address manyPermits.arguments =
      .ok ⟨none, none, manyPermitsPlan.settings⟩ := rfl
  have plans : Plans Tree.fileSystem bareTree manyPermitsPlan.settings manyPermitsPlan :=
    ⟨rfl, rfl⟩
  obtain ⟨r, left, hrun, hcrash, -⟩ :=
    one_shot_crashes_iff Tree.fileSystem World.offline manyPermits bareTree _ hargs rfl
  exact ⟨_, hargs, rfl, r, left, hrun, hcrash.mpr (.ceiling rfl plans (by decide))⟩

-- A run that is told 126 times to log more
def manyWishes : Invocation :=
  ⟨["-d", "lists.csv", "-o", "rules.json"] ++ List.replicate 126 "-v", none, none⟩

def manyWishesSettings : Settings :=
  { Settings.standard with dataset := "lists.csv", output := "rules.json", verbosity := ⟨126, 0⟩ }

-- Arguments that are accepted, settings that are valid and few domains are no guarantee
theorem not_every_run_ends_regularly :
    ¬ ∀ (tree : Tree) (world : World) (i : Invocation) (a : Arguments) (settings : Settings),
      readArguments i.address i.arguments = .ok a → a.runs = .generate →
      (loadSettings Tree.disk a tree).1 = .ok settings →
      (∀ p, Plans Tree.fileSystem tree settings p →
        (p.domains world).length < 2 ^ 32 - 2002) →
      ∃ r left, runOn tree world i = (.done r, left) ∧
        (r.exit.code = 0 ∨ r.exit.code = 1 ∨ r.exit.code = 3) := by
  intro hregular
  have hargs : readArguments manyWishes.address manyWishes.arguments =
      .ok ⟨none, none, manyWishesSettings⟩ := by decide +kernel
  have hfew : ∀ p, Plans Tree.fileSystem bareTree manyWishesSettings p →
      (p.domains World.offline).length < 2 ^ 32 - 2002 := by
    intro p plans
    have hlimit : p.settings.limit = 400 := by rw [plans.settings_eq]; rfl
    have hlength := Pool.Generator.length_collectDomains_le p.settings.generator
      (p.script World.offline.network) p.urls p.settings.limit
      (Pool.effectiveCeiling_pos p.settings.maxConcurrency)
    rw [Plan.domains, Plan.domainsUpTo, Plan.collected]
    omega
  obtain ⟨r, left, hrun, hcode⟩ :=
    hregular bareTree World.offline manyWishes _ manyWishesSettings hargs rfl rfl hfew
  have hcourse := run_course Tree.fileSystem World.offline manyWishes bareTree
  obtain ⟨q, hending, hends⟩ := hcourse.ends hargs rfl
  obtain rfl : r = q := Ending.done.inj ((congrArg Prod.fst hrun).symm.trans hending)
  have hoverflows : Verbosity.Overflows ⟨126, 0⟩ :=
    (Verbosity.overflows_more_iff (by decide)).mpr (by decide)
  rw [hends.crash.mpr (.level rfl hoverflows)] at hcode
  exact absurd hcode (by decide)

end Blocklist.Program
