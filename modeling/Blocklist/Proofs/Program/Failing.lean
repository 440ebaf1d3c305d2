import Blocklist.Proofs.Program.Course
-- Runs that fail. They leave the regular files of the file system as they were, and those that
-- fail before they have a plan leave all of it as it was and ask nobody for anything.
namespace Blocklist.Program

open Blocklist.Fetch Blocklist.Files Blocklist.Log Blocklist.Settings

variable {σ κ : Type} {fs : FileSystem σ κ} {world : World} {i : Invocation} {s left : σ}
  {a : Arguments} {filter : Filter} {settings : Settings} {p : Plan} {r : Report}

-- A run has arguments but settings that cannot be read, no dataset, or a name that is not fit
-- for a header
inductive Refused (fs : FileSystem σ κ) (i : Invocation) (s : σ) : Prop
  | settings {a : Arguments} {e : DocumentError}
      (arguments : readArguments i.address i.arguments = .ok a)
      (bad : (loadSettings fs.disk a s).1 = .error e)
  | dataset {a : Arguments} {settings : Settings} {e : FetchError}
      (arguments : readArguments i.address i.arguments = .ok a)
      (loaded : (loadSettings fs.disk a s).1 = .ok settings)
      (unreadable : Dataset.ofOpened settings.dataset (fs.disk.opened settings.dataset s).1 =
        .error e)
  | agent {a : Arguments} {settings : Settings}
      (arguments : readArguments i.address i.arguments = .ok a)
      (loaded : (loadSettings fs.disk a s).1 = .ok settings)
      (unfit : isHeaderText settings.userAgent = false)

-- Rules that cannot be written leave folders at most
theorem writeRules_keeps {output : Path} {rules : List Rule} {f : Failure}
    (h : writeRules fs.disk output rules s = (.error f, left)) (key : κ) :
    fs.file? left key = fs.file? s key := by
  have hwrites := writeRules_writes fs output rules s
  rw [h] at hwrites
  generalize hresult : (Except.error f : Except Failure Unit) = result at hwrites
  cases hwrites with
  | noFolder keeps => exact keeps key
  | @ends made _ written told keeps writes =>
      cases written with
      | error e => exact (fs.write_keeps _ _ made e left writes key).trans (keeps key)
      | ok done => cases hresult

-- A plan is made of what can be read and is fit
theorem not_refused (starts : Starts fs i s a filter settings) (plans : Plans fs s settings p) :
    ¬ Refused fs i s := by
  intro refused
  cases refused with
  | settings arguments bad =>
      cases starts.arguments.symm.trans arguments
      cases starts.loaded.symm.trans bad
  | dataset arguments loaded unreadable =>
      cases starts.arguments.symm.trans arguments
      cases starts.loaded.symm.trans loaded
      cases plans.dataset.symm.trans unreadable
  | agent arguments loaded unfit =>
      cases starts.arguments.symm.trans arguments
      cases starts.loaded.symm.trans loaded
      have hcreated := plans.created
      simp [Plan.create, Client.create, unfit] at hcreated

theorem Exit.code_ne_zero_iff {exit : Exit} : exit.code ≠ 0 ↔ exit ≠ .success := by
  cases exit <;> decide

theorem Course.keeps_files {ending : Ending} (c : Course fs world i s ending left)
    (hdone : ending = .done r) (hexit : r.exit ≠ .success) (key : κ) :
    fs.file? left key = fs.file? s key := by
  cases c with
  | unwritten _ _ _ _ refused => exact writeRules_keeps refused key
  | written =>
      cases hdone
      exact absurd rfl hexit
  | _ => rfl

theorem Course.of_refused {ending : Ending} (c : Course fs world i s ending left)
    (refused : Refused fs i s) :
    left = s ∧ ∃ r, ending = .done r ∧ r.exit ≠ .success ∧ r.requests = [] := by
  cases c with
  | stopped arguments =>
      cases refused <;> exact nomatch arguments.symm.trans ‹readArguments _ _ = .ok _›
  | serves starts plans => exact absurd refused (not_refused starts plans)
  | noRules starts plans => exact absurd refused (not_refused starts plans)
  | unwritten starts plans => exact absurd refused (not_refused starts plans)
  | written starts plans => exact absurd refused (not_refused starts plans)
  | _ => exact ⟨rfl, _, rfl, nofun, rfl⟩

-- All or nothing: a run that fails has changed no regular file and made none. If it is refused
-- for its settings, its dataset or its name, nothing has changed and no request has been sent.
theorem failing_runs_keep_files (fs : FileSystem σ κ) (world : World) (i : Invocation) (s : σ) :
    (∀ r left, run fs.disk world i s = (.done r, left) → r.exit.code ≠ 0 →
      ∀ key, fs.file? left key = fs.file? s key) ∧
    (Refused fs i s → ∃ r, run fs.disk world i s = (.done r, s) ∧ r.exit.code ≠ 0 ∧
      r.requests = []) := by
  have hcourse := run_course fs world i s
  constructor
  · intro r left hrun hexit key
    rw [hrun] at hcourse
    exact hcourse.keeps_files rfl (Exit.code_ne_zero_iff.mp hexit) key
  · intro refused
    obtain ⟨hleft, r, hending, hexit, hrequests⟩ := hcourse.of_refused refused
    exact ⟨r, Prod.ext hending hleft, Exit.code_ne_zero_iff.mpr hexit, hrequests⟩

-- Rules for a place that cannot be a file
def toFolder : Invocation := ⟨["-d", "lists.csv", "-o", "made/here/"], none, none⟩

-- A dataset that is not there
def fromNowhere : Invocation := ⟨["-d", "none.csv", "-o", "made/here"], none, none⟩

theorem refused_fromNowhere : Refused Tree.fileSystem fromNowhere bareTree := by
  have hargs : readArguments fromNowhere.address fromNowhere.arguments =
      .ok ⟨none, none, { Settings.standard with dataset := "none.csv", output := "made/here" }⟩ :=
    rfl
  have hdataset : Dataset.ofOpened "none.csv"
      (Tree.fileSystem.disk.opened "none.csv" bareTree).1 =
      .error (.dataset "none.csv" FileError.missing.failure) := rfl
  exact .dataset hargs rfl hdataset

-- The first run makes a folder for its rules before it fails
theorem failing_runs_keep_files_half_done :
    (∃ r left, runOn bareTree World.offline toFolder = (.done r, left) ∧
      r.exit.code = 1 ∧ left.entry? ["made"] = some .folder ∧
      ∀ place, left.fileAt? place = bareTree.fileAt? place) ∧
    Refused Tree.fileSystem fromNowhere bareTree ∧
    ∃ r, runOn bareTree World.offline fromNowhere = (.done r, bareTree) ∧
      r.exit.code ≠ 0 ∧ r.requests = [] := by
  obtain ⟨hfiles, -⟩ :=
    failing_runs_keep_files Tree.fileSystem World.offline toFolder bareTree
  obtain ⟨-, hrefused⟩ :=
    failing_runs_keep_files Tree.fileSystem World.offline fromNowhere bareTree
  have hhalf : ∃ r left, runOn bareTree World.offline toFolder = (.done r, left) ∧
      r.exit.code = 1 ∧ left.entry? ["made"] = some .folder := ⟨_, _, rfl, rfl, rfl⟩
  obtain ⟨r, left, hrun, hexit, hfolder⟩ := hhalf
  have hfailed : r.exit.code ≠ 0 := by
    rw [hexit]
    decide
  exact ⟨⟨r, left, hrun, hexit, hfolder, hfiles r left hrun hfailed⟩, refused_fromNowhere,
    hrefused refused_fromNowhere⟩

end Blocklist.Program
