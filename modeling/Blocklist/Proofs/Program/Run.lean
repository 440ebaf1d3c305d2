import Blocklist.Proofs.Program.Course
import Blocklist.Proofs.Settings.Verbosity
-- What runs on a tree of files come to, stage by stage.
namespace Blocklist.Program

open Blocklist.Fetch Blocklist.Files Blocklist.Log Blocklist.Settings

-- A run is told to carry out a command, and finds the settings and the dataset of a plan
structure Prepares (tree : Tree) (i : Invocation) (c : Command) (p : Plan) : Prop where
  settings : ∃ a, readArguments i.address i.arguments = .ok a ∧ a.runs = c ∧
    (loadSettings Tree.disk a tree).1 = .ok p.settings
  dataset : Dataset.ofOpened p.settings.dataset (tree.opened p.settings.dataset) = .ok p.dataset
  client : Plan.create p.settings p.dataset = .ok p

variable {tree after : Tree} {world : World} {i : Invocation} {a : Arguments} {p q : Plan}
  {filter : Filter} {settings : Settings} {r : Report} {c : Command} {ending : Ending}

-- The plan for a dataset of these bytes, under settings with a name that is fit for a header
def Plan.ofBytes (settings : Settings) (bytes : List UInt8)
    (hagent : isHeaderText settings.userAgent = true) : Plan :=
  ⟨settings, Dataset.ofBytes bytes,
    ⟨settings.userAgent, hagent, settings.timeout * 1000, Client.standardMaxBody⟩⟩

theorem prepares_ofBytes {bytes : List UInt8}
    (hsettings : ∃ a, readArguments i.address i.arguments = .ok a ∧ a.runs = c ∧
      (loadSettings Tree.disk a tree).1 = .ok settings)
    (hopened : tree.opened settings.dataset = .ok (.bytes bytes))
    (hagent : isHeaderText settings.userAgent = true) :
    Prepares tree i c (.ofBytes settings bytes hagent) where
  settings := hsettings
  dataset := by
    simp only [Plan.ofBytes]
    rw [hopened, Dataset.ofOpened]
  client := by simp [Plan.ofBytes, Plan.create, Client.create, hagent]

-- To look at files does not change them
theorem loadSettings_snd (tree : Tree) (a : Arguments) :
    (loadSettings Tree.disk a tree).2 = tree :=
  congrArg Prod.snd (loadSettings_keeps Tree.fileSystem a tree)

theorem filterOf_of_level {v : Verbosity} {level : Log.Level} (h : i.logText = none)
    (hlevel : v.level = .ok level) : filterOf i v = .ok (Filter.ofLevel level) := by
  simp only [filterOf, h, hlevel]
  rfl

-- Unless told otherwise, lines from information on are logged
theorem filterOf_standard (h : i.logText = none) :
    filterOf i Verbosity.standard = .ok (Filter.ofLevel .info) :=
  filterOf_of_level h Verbosity.level_standard

theorem runOn_of_settings (world : World)
    (hargs : readArguments i.address i.arguments = .ok a)
    (hsettings : (loadSettings Tree.disk a tree).1 = .ok settings)
    (hfilter : filterOf i a.settings.verbosity = .ok filter)
    (hthreads : settings.threads ≠ some 0) :
    runOn tree world i = runCommand Tree.disk world filter a.runs settings tree := by
  have hload : loadSettings Tree.disk a tree = (.ok settings, tree) :=
    Prod.ext hsettings (loadSettings_snd tree a)
  simp only [runOn, run, hargs, hfilter, bind, StateT.bind, hload, if_neg hthreads]

-- A run that is prepared crashes or carries out its command
theorem Prepares.runOn (h : Prepares tree i c p) (world : World) :
    runOn tree world i = (.done (.crashed world "" []), tree) ∨
      ∃ filter, Program.runOn tree world i =
        runCommand Tree.disk world filter c p.settings tree := by
  obtain ⟨a, hargs, rfl, hsettings⟩ := h.settings
  cases hfilter : filterOf i a.settings.verbosity with
  | error e =>
      refine .inl ?_
      simp only [Program.runOn, run, hargs, hfilter]
      rfl
  | ok filter =>
      by_cases hthreads : p.settings.threads = some 0
      · have hload : loadSettings Tree.disk a tree = (.ok p.settings, tree) :=
          Prod.ext hsettings (loadSettings_snd tree a)
        refine .inl ?_
        simp only [Program.runOn, run, hargs, hfilter, bind, StateT.bind, hload, hthreads]
        rfl
      · exact .inr ⟨filter, runOn_of_settings world hargs hsettings hfilter hthreads⟩

theorem Prepares.runCommand_generate (h : Prepares tree i c p) (world : World)
    (filter : Filter) :
    runCommand Tree.disk world filter .generate p.settings tree =
      ((.done (runGenerate Tree.disk world filter p tree).1 : Ending),
        (runGenerate Tree.disk world filter p tree).2) := by
  simp only [runCommand, Tree.disk, bind, StateT.bind, h.dataset, h.client]
  rfl

theorem Prepares.runCommand_serve (h : Prepares tree i c p) (world : World)
    (filter : Filter) :
    runCommand Tree.disk world filter .serve p.settings tree = (runServe world filter p, tree) := by
  simp only [runCommand, Tree.disk, bind, StateT.bind, h.dataset, h.client]
  rfl

-- Rules are written when the folders on the way to them are there
theorem of_writeRules_ok {output : Path} {rules : List Rule}
    (h : writeRules Tree.disk output rules tree = (.ok (), after)) :
    ∃ made : Tree, made.write output (Text.encode (Rule.writeAll .indented rules).toList) =
      .ok after := by
  have hwrites := writeRules_writes Tree.fileSystem output rules tree
  have hsame : writeRules Tree.fileSystem.disk output rules tree = (.ok (), after) := h
  rw [hsame] at hwrites
  generalize hresult : (Except.ok () : Except Failure Unit) = result at hwrites
  cases hwrites with
  | noFolder => cases hresult
  | @ends made _ written told keeps writes =>
      refine ⟨made, ?_⟩
      simp only [Tree.fileSystem, Tree.disk] at writes
      split at writes
      case h_1 left hwrite =>
        cases writes
        exact hwrite
      case h_2 e hwrite =>
        cases writes
        cases hresult

-- A run that succeeds has generated rules and written them
theorem of_runGenerate_success (h : runGenerate Tree.disk world filter p tree = (r, after))
    (hexit : r.exit = .success) :
    ∃ g, generate? p world p.settings.limit = some g ∧
      writeRules Tree.disk p.settings.output g.rules tree = (.ok (), after) := by
  unfold runGenerate at h
  cases hgenerate : generate? p world p.settings.limit with
  | none =>
      rw [hgenerate] at h
      cases h
      cases hexit
  | some g =>
      refine ⟨g, rfl, ?_⟩
      cases hwritten : writeRules Tree.disk p.settings.output g.rules tree with
      | mk result left =>
          simp only [hgenerate, bind, StateT.bind, hwritten] at h
          cases result with
          | error f =>
              cases h
              cases hexit
          | ok done =>
              have hleft : left = after := congrArg Prod.snd h
              rw [hleft]

theorem runGenerate_of_written (filter : Filter) {g : Generation}
    (hg : generate? p world p.settings.limit = some g)
    (hwritten : writeRules Tree.disk p.settings.output g.rules tree = (.ok (), after)) :
    ∃ r, runGenerate Tree.disk world filter p tree = (r, after) ∧ r.exit = .success := by
  simp only [runGenerate, hg, bind, StateT.bind, hwritten]
  exact ⟨_, rfl, rfl⟩

theorem Prepares.generates (h : Prepares tree i .generate p)
    (hrun : Program.runOn tree world i = (.done r, after)) (hexit : r.exit = .success) :
    ∃ g, generate? p world p.settings.limit = some g ∧
      writeRules Tree.disk p.settings.output g.rules tree = (.ok (), after) := by
  rcases h.runOn world with hcrash | ⟨filter, hcommand⟩
  · cases hrun.symm.trans hcrash
    cases hexit
  · have hboth := (hrun.symm.trans hcommand).trans (h.runCommand_generate world filter)
    obtain ⟨hr, hafter⟩ := Prod.mk.inj hboth
    have hreport : runGenerate Tree.disk world filter p tree = (r, after) :=
      Prod.ext (Ending.done.inj hr).symm hafter.symm
    exact of_runGenerate_success hreport hexit

theorem Prepares.serves (h : Prepares tree i .serve p) {errors : String}
    (hrun : Program.runOn tree world i = (.serving q filter errors, after)) : q = p := by
  rcases h.runOn world with hcrash | ⟨own, hcommand⟩
  · cases hrun.symm.trans hcrash
  · have hboth := (hrun.symm.trans hcommand).trans (h.runCommand_serve world own)
    have hserve := (Prod.mk.inj hboth).1
    unfold runServe at hserve
    split at hserve <;> cases hserve
    rfl

end Blocklist.Program
