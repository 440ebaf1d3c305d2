import Blocklist.Program.Run
import Blocklist.Proofs.Files.System
-- The courses that a run may take on a file system, from its command line to its end. Each
-- stage begins when all before it went well.
namespace Blocklist.Program

open Blocklist.Fetch Blocklist.Files Blocklist.Log Blocklist.Settings

variable {σ κ : Type} {fs : FileSystem σ κ} {world : World} {i : Invocation} {s left : σ}
  {a : Arguments} {filter : Filter} {settings : Settings} {p : Plan} {g : Generation}
  {ending : Ending} {r : Report}

-- The command line and the settings lead to a run
structure Starts (fs : FileSystem σ κ) (i : Invocation) (s : σ) (a : Arguments) (filter : Filter)
    (settings : Settings) : Prop where
  arguments : readArguments i.address i.arguments = .ok a
  level : filterOf i a.settings.verbosity = .ok filter
  loaded : (loadSettings fs.disk a s).1 = .ok settings
  threads : settings.threads ≠ some 0

-- The settings lead to a plan: there is a dataset, and a client that may fetch its lists
structure Plans (fs : FileSystem σ κ) (s : σ) (settings : Settings) (p : Plan) : Prop where
  dataset : Dataset.ofOpened settings.dataset (fs.disk.opened settings.dataset s).1 =
    .ok p.dataset
  created : Plan.create settings p.dataset = .ok p

def successText (p : Plan) (g : Generation) : String :=
  "Generated " ++ toString g.rules.length ++ " rules -> " ++ p.settings.output ++ "\n"

-- How a run goes, what it comes to, and the file system that it leaves
inductive Course (fs : FileSystem σ κ) (world : World) (i : Invocation) (s : σ) :
    Ending → σ → Prop
  | stopped {stop : Stop} (arguments : readArguments i.address i.arguments = .error stop) :
      Course fs world i s (.done (.ofStop world stop)) s
  | noLevel {a : Arguments} {e : RankOverflow}
      (arguments : readArguments i.address i.arguments = .ok a)
      (level : filterOf i a.settings.verbosity = .error e) :
      Course fs world i s (.done (.crashed world "" [])) s
  | beyond {a : Arguments} {filter : Filter}
      (arguments : readArguments i.address i.arguments = .ok a)
      (level : filterOf i a.settings.verbosity = .ok filter)
      (bad : (loadSettings fs.disk a s).1 = .error .beyond) :
      Course fs world i s (.done (.crashed world "" [])) s
  | badSettings {a : Arguments} {filter : Filter} {e : DocumentError}
      (arguments : readArguments i.address i.arguments = .ok a)
      (level : filterOf i a.settings.verbosity = .ok filter)
      (bad : (loadSettings fs.disk a s).1 = .error e) (within : e ≠ .beyond) :
      Course fs world i s
        (.done ⟨.settings, "", filter.display [settingsLine world a.config], []⟩) s
  | noThreads {a : Arguments} {filter : Filter} {settings : Settings}
      (arguments : readArguments i.address i.arguments = .ok a)
      (level : filterOf i a.settings.verbosity = .ok filter)
      (loaded : (loadSettings fs.disk a s).1 = .ok settings)
      (none : settings.threads = some 0) :
      Course fs world i s (.done (.crashed world "" [])) s
  | noDataset {a : Arguments} {filter : Filter} {settings : Settings} {e : FetchError} (f : Failure)
      (starts : Starts fs i s a filter settings)
      (unreadable : Dataset.ofOpened settings.dataset (fs.disk.opened settings.dataset s).1 =
        .error e) :
      Course fs world i s (.done (.failed filter [] f [])) s
  | noClient {a : Arguments} {filter : Filter} {settings : Settings} {d : Dataset} {f : Failure}
      (starts : Starts fs i s a filter settings)
      (dataset : Dataset.ofOpened settings.dataset (fs.disk.opened settings.dataset s).1 = .ok d)
      (unfit : Plan.create settings d = .error f) :
      Course fs world i s (.done (.failed filter (loadLines world d) f [])) s
  | serves {a : Arguments} {filter : Filter} {settings : Settings} {p : Plan}
      (starts : Starts fs i s a filter settings) (plans : Plans fs s settings p)
      (command : a.runs = .serve) :
      Course fs world i s (runServe world filter p) s
  | noRules {a : Arguments} {filter : Filter} {settings : Settings} {p : Plan}
      (starts : Starts fs i s a filter settings) (plans : Plans fs s settings p)
      (command : a.runs = .generate) (none : generate? p world p.settings.limit = none) :
      Course fs world i s (.done (.crashed world (filter.display (generateLines p world))
        (p.requests world p.settings.limit))) s
  | unwritten {a : Arguments} {filter : Filter} {settings : Settings} {p : Plan} {g : Generation}
      {f : Failure} {left : σ}
      (starts : Starts fs i s a filter settings) (plans : Plans fs s settings p)
      (command : a.runs = .generate) (rules : generate? p world p.settings.limit = some g)
      (refused : writeRules fs.disk p.settings.output g.rules s = (.error f, left)) :
      Course fs world i s (.done (.failed filter (generateLines p world) f g.requests)) left
  | written {a : Arguments} {filter : Filter} {settings : Settings} {p : Plan} {g : Generation}
      {left : σ}
      (starts : Starts fs i s a filter settings) (plans : Plans fs s settings p)
      (command : a.runs = .generate) (rules : generate? p world p.settings.limit = some g)
      (done : writeRules fs.disk p.settings.output g.rules s = (.ok (), left)) :
      Course fs world i s
        (.done ⟨.success, successText p g, filter.display (generateLines p world), g.requests⟩)
        left

-- How the writing of rules goes. Folders may be made before it fails, and a file only at its end.
inductive Writes (fs : FileSystem σ κ) (output : Path) (rules : List Rule) (s : σ) :
    Except Failure Unit → σ → Prop
  | noFolder {f : Failure} {made : σ} (keeps : ∀ key, fs.file? made key = fs.file? s key) :
      Writes fs output rules s (.error f) made
  | ends {made left : σ} {written : Except FileError Unit} (told : FileError → Failure)
      (keeps : ∀ key, fs.file? made key = fs.file? s key)
      (writes : fs.disk.write output (Text.encode (Rule.writeAll .indented rules).toList) made =
        (written, left)) :
      Writes fs output rules s (written.mapError told) left

theorem writeRules_writes (fs : FileSystem σ κ) (output : Path) (rules : List Rule) (s : σ) :
    Writes fs output rules s (writeRules fs.disk output rules s).1
      (writeRules fs.disk output rules s).2 := by
  cases hparent : output.parent? with
  | none =>
      simp only [writeRules, hparent, pure_bind]
      exact .ends _ (fun _ => rfl) rfl
  | some parent =>
      by_cases hhere : parent = ""
      · simp only [writeRules, hparent, hhere, pure_bind]
        exact .ends _ (fun _ => rfl) rfl
      · have hkeeps := fs.makeFolders_keeps parent s
        simp only [writeRules, hparent]
        cases hfolders : fs.disk.makeFolders parent s with
        | mk result made =>
            rw [hfolders] at hkeeps
            simp only [bind, StateT.bind, hfolders]
            cases result with
            | error e => exact .noFolder hkeeps
            | ok done => exact .ends _ hkeeps rfl

-- To look at files does not change them
theorem loadSettings_keeps (fs : FileSystem σ κ) (a : Arguments) (s : σ) :
    loadSettings fs.disk a s = ((loadSettings fs.disk a s).1, s) := by
  refine Prod.ext rfl ?_
  unfold loadSettings
  cases a.config with
  | some path => exact fs.opened_keeps path s
  | none =>
      have hfile := fs.isFile_keeps Settings.standardFile s
      cases hlook : fs.disk.isFile Settings.standardFile s with
      | mk isThere after =>
          obtain rfl : after = s := by
            rw [hlook] at hfile
            exact hfile
          simp only [bind, StateT.bind, hlook]
          cases isThere with
          | true => exact fs.opened_keeps Settings.standardFile after
          | false => rfl

-- A plan has the settings and the dataset that it was made from
theorem of_create {d : Dataset} (h : Plan.create settings d = .ok p) :
    p.settings = settings ∧ p.dataset = d := by
  unfold Plan.create at h
  split at h
  case h_1 =>
    cases h
    exact ⟨rfl, rfl⟩
  case h_2 => cases h

theorem Plans.settings_eq (h : Plans fs s settings p) : p.settings = settings :=
  (of_create h.created).1

theorem runGenerate_course (world : World) (starts : Starts fs i s a filter settings)
    (plans : Plans fs s settings p) (command : a.runs = .generate) :
    Course fs world i s (.done (runGenerate fs.disk world filter p s).1)
      (runGenerate fs.disk world filter p s).2 := by
  unfold runGenerate
  cases hrules : generate? p world p.settings.limit with
  | none => exact .noRules starts plans command hrules
  | some g =>
      cases hwritten : writeRules fs.disk p.settings.output g.rules s with
      | mk result left =>
          simp only [bind, StateT.bind, hwritten]
          cases result with
          | error f => exact .unwritten starts plans command hrules hwritten
          | ok done => exact .written starts plans command hrules hwritten

theorem runCommand_course (world : World) (starts : Starts fs i s a filter settings) :
    Course fs world i s (runCommand fs.disk world filter a.runs settings s).1
      (runCommand fs.disk world filter a.runs settings s).2 := by
  have hopened : fs.disk.opened settings.dataset s =
      ((fs.disk.opened settings.dataset s).1, s) :=
    Prod.ext rfl (fs.opened_keeps settings.dataset s)
  unfold runCommand
  simp only [bind, StateT.bind]
  rw [hopened]
  cases hdataset : Dataset.ofOpened settings.dataset (fs.disk.opened settings.dataset s).1 with
  | error e =>
      simp only [hdataset]
      exact .noDataset _ starts hdataset
  | ok d =>
      cases hplan : Plan.create settings d with
      | error f =>
          simp only [hdataset, hplan]
          exact .noClient starts hdataset hplan
      | ok p =>
          obtain ⟨-, rfl⟩ := of_create hplan
          have plans : Plans fs s settings p := ⟨hdataset, hplan⟩
          cases command : a.runs with
          | generate =>
              simp only [hdataset, hplan]
              exact runGenerate_course world starts plans command
          | serve =>
              simp only [hdataset, hplan]
              exact .serves starts plans command

-- Every run takes one of the courses
theorem run_course (fs : FileSystem σ κ) (world : World) (i : Invocation) (s : σ) :
    Course fs world i s (run fs.disk world i s).1 (run fs.disk world i s).2 := by
  unfold run
  cases arguments : readArguments i.address i.arguments with
  | error stop => exact .stopped arguments
  | ok a =>
      cases level : filterOf i a.settings.verbosity with
      | error e =>
          simp only [level]
          exact .noLevel arguments level
      | ok filter =>
          simp only [level, bind, StateT.bind]
          rw [loadSettings_keeps fs a s]
          cases loaded : (loadSettings fs.disk a s).1 with
          | error e =>
              cases e with
              | beyond => exact .beyond arguments level loaded
              | _ => exact .badSettings arguments level loaded nofun
          | ok settings =>
              by_cases hnone : settings.threads = some 0
              · simp only [hnone, if_true]
                exact .noThreads arguments level loaded hnone
              · simp only [hnone, if_false]
                exact runCommand_course world ⟨arguments, level, loaded, hnone⟩

-- A dataset without records, and no other file
def bareTree : Tree := ⟨[(["lists.csv"], .file [])], []⟩

end Blocklist.Program
