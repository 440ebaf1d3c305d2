import Blocklist.Proofs.Program.Course
import Blocklist.Proofs.Settings.Setting
-- Which value of a setting is in effect: the one that the command line tells, the one that
-- a file tells, or the standard one.
namespace Blocklist.Program

open Blocklist.Files Blocklist.Settings

variable {σ κ : Type} {fs : FileSystem σ κ} {s : σ} {a : Arguments} {entries : Toml.Entries}
  {settings : Settings}

-- The entries of the file of settings: the one that is told, or else the standard one if it is
-- there. A file that is not there tells nothing.
def settingsEntries? (fs : FileSystem σ κ) (config : Option Path) (s : σ) : Option Toml.Entries :=
  match config with
  | some path => entriesIn? (fs.disk.opened path s).1
  | none =>
    if (fs.disk.isFile Settings.standardFile s).1 then
      entriesIn? (fs.disk.opened Settings.standardFile s).1
    else some []

theorem loadSettings_told {path : Path} (hpath : a.config = some path) (s : σ) :
    (loadSettings fs.disk a s).1 = (ofOpened (fs.disk.opened path s).1).map a.settings.merge := by
  unfold loadSettings
  rw [hpath]
  rfl

theorem loadSettings_untold (hpath : a.config = none) (s : σ) :
    (loadSettings fs.disk a s).1 =
      if (fs.disk.isFile Settings.standardFile s).1 then
        (ofOpened (fs.disk.opened Settings.standardFile s).1).map a.settings.merge
      else .ok a.settings := by
  have hlook : fs.disk.isFile Settings.standardFile s =
      ((fs.disk.isFile Settings.standardFile s).1, s) :=
    Prod.ext rfl (fs.isFile_keeps Settings.standardFile s)
  unfold loadSettings
  rw [hpath]
  simp only [bind, StateT.bind]
  rw [hlook]
  cases (fs.disk.isFile Settings.standardFile s).1 <;> rfl

theorem loadSettings_of_entries (h : settingsEntries? fs a.config s = some entries) :
    (loadSettings fs.disk a s).1 = (ofEntries entries).map a.settings.merge ∧
      entries.Distinct := by
  cases hpath : a.config with
  | some path =>
      rw [hpath] at h
      obtain ⟨hopened, hdistinct⟩ := ofOpened_of_entries h
      rw [loadSettings_told hpath, hopened]
      exact ⟨rfl, hdistinct⟩
  | none =>
      simp only [settingsEntries?, hpath] at h
      rw [loadSettings_untold hpath]
      split at h
      case isTrue hthere =>
        obtain ⟨hopened, hdistinct⟩ := ofOpened_of_entries h
        rw [if_pos hthere, hopened]
        exact ⟨rfl, hdistinct⟩
      case isFalse hthere =>
        cases h
        rw [if_neg hthere, ofEntries_nil, Except.map, merge_standard]
        exact ⟨rfl, List.nodup_nil⟩

theorem settingsEntries?_of_loadSettings (h : (loadSettings fs.disk a s).1 = .ok settings) :
    ∃ entries file, settingsEntries? fs a.config s = some entries ∧
      ofEntries entries = .ok file := by
  have hread : ∀ opened, (ofOpened opened).map a.settings.merge = .ok settings →
      ∃ entries file, entriesIn? opened = some entries ∧ ofEntries entries = .ok file := by
    intro opened hopened
    cases hfile : ofOpened opened with
    | error e =>
        rw [hfile] at hopened
        cases hopened
    | ok file =>
        obtain ⟨entries, hentries, hof⟩ := entriesIn?_of_ofOpened hfile
        exact ⟨entries, file, hentries, hof⟩
  unfold settingsEntries?
  cases hpath : a.config with
  | some path => exact hread _ ((loadSettings_told hpath s).symm.trans h)
  | none =>
      rw [loadSettings_untold hpath] at h
      split at h
      case isTrue hthere =>
        simp only [hthere]
        exact hread _ h
      case isFalse hthere =>
        simp only [hthere]
        exact ⟨[], Settings.standard, rfl, ofEntries_nil⟩

-- A setting has the value that the command line tells, or the environment, if it is told and
-- differs from the standard one. Otherwise it has the value that the file tells, and at last the
-- standard one. Paths of the same steps count as one value; which spelling of the standard one
-- is in effect, the third part says. Verbosity, threads and tags cannot be told their standard
-- values.
theorem settings_in_effect (fs : FileSystem σ κ) (s : σ) (environment : Option String)
    (arguments : List String) (a : Arguments) (entries : Toml.Entries)
    (harguments : readArguments environment arguments = .ok a)
    (hentries : settingsEntries? fs a.config s = some entries) (hfits : Fits entries) :
    ∃ given settings, told arguments = .ok given ∧ (loadSettings fs.disk a s).1 = .ok settings ∧
      (∀ k : Setting,
        let value :=
          (((k.told given environment).filter k.differs).or (k.inFile entries)).getD k.standard
        k.same (k.of settings) value = true ∧
          (k ≠ .dataset → k ≠ .output → k.of settings = value)) ∧
      (∀ k : Setting, k.of settings =
        (((k.told given environment).filter k.differs).or
          ((k.inFile entries).filter k.differs)).getD
            ((k.told given environment).getD k.standard)) ∧
      ∀ k ∈ [Setting.verbosity, .threads, .interest],
        k.told given environment ≠ some k.standard := by
  obtain ⟨given, htold, -, hsettings⟩ := told_of_readArguments harguments
  obtain ⟨file, hof⟩ := ofEntries_isOk_iff.mpr hfits
  obtain ⟨hload, hdistinct⟩ := loadSettings_of_entries hentries
  have hvalue (k : Setting) : k.of (a.settings.merge file) =
      (((k.told given environment).filter k.differs).or
        ((k.inFile entries).filter k.differs)).getD ((k.told given environment).getD k.standard) := by
    rw [hsettings, Setting.of_merge, Setting.of_settings, of_ofEntries hdistinct hof,
      Setting.unlessStandard_getD]
  have hsame (k : Setting) : k.same (k.of (a.settings.merge file))
      ((((k.told given environment).filter k.differs).or (k.inFile entries)).getD k.standard) =
        true := by
    rw [hvalue]
    exact k.same_getD _ _
  refine ⟨given, a.settings.merge file, htold, ?_,
    fun k => ⟨hsame k, fun hdataset houtput => ?_⟩, hvalue, ?_⟩
  · rw [hload, hof]
    rfl
  · exact (Setting.same_iff_eq hdataset houtput).mp (hsame k)
  · exact Setting.told_ne_standard (told_interested htold) environment

-- Three settings that are told, two of them with their standard values, of which one is another
-- spelling, and a file that tells all of them
def toldThree : List String := ["-l", "400", "-t", "5", "-d", "dataset//./Add_Block_data.csv"]

def toldThreeGiven : Given :=
  { Given.nothing with
    limit := some 400, timeout := some 5, dataset := some "dataset//./Add_Block_data.csv" }

def toldThreeText : String := "limit=99\ntimeout=7\ndataset='x.csv'"

def toldThreeTree : Tree :=
  ⟨[(["shieldgen.toml"], .file (Text.encode toldThreeText.toList))], []⟩

-- Entries that the text leads to, and what they tell
structure ToldThree (entries : Toml.Entries) : Prop where
  read : settingsEntries? Tree.fileSystem none toldThreeTree = some entries
  fits : Fits entries
  limit : Setting.limit.inFile entries = some (99 : Nat)
  timeout : Setting.timeout.inFile entries = some (7 : Nat)
  dataset : Setting.dataset.inFile entries = some ("x.csv" : Path)
  address : Setting.address.inFile entries = none
  output : Setting.output.inFile entries = none

theorem exists_toldThree : ∃ entries, ToldThree entries := by
  have hthere : (Tree.fileSystem.disk.isFile Settings.standardFile toldThreeTree).1 = true := rfl
  have hopened : (Tree.fileSystem.disk.opened Settings.standardFile toldThreeTree).1 =
      .ok (.bytes (Text.encode toldThreeText.toList)) := rfl
  have hread : ∃ entries ∈ Toml.read? toldThreeText,
      (putAll Settings.standard entries).isOk = true ∧
        ((entries.lookup "limit").bind fun v => (wordOf v).toOption) = some 99 ∧
        ((entries.lookup "timeout").bind fun v => (wordOf v).toOption) = some 7 ∧
        ((entries.lookup "dataset").bind fun v => (textOf v).toOption) = some "x.csv" ∧
        ((entries.lookup "address").bind fun v => (textOf v).toOption) = none ∧
        ((entries.lookup "output").bind fun v => (textOf v).toOption) = none := by
    decide +kernel
  obtain ⟨entries, hentries, hok, hlimit, htimeout, hdataset, haddress, houtput⟩ := hread
  refine ⟨entries, ?_, ?_, hlimit, htimeout, hdataset, haddress, houtput⟩
  · rw [settingsEntries?, if_pos hthere, hopened, entriesIn?_encode]
    exact hentries
  · cases hput : putAll Settings.standard entries with
    | error e =>
        rw [hput] at hok
        cases hok
    | ok settings => exact putAll_isOk_iff.mp ⟨settings, hput⟩

theorem settings_in_effect_three :
    ∃ a entries settings, readArguments (some "[::1]:80") toldThree = .ok a ∧
      settingsEntries? Tree.fileSystem a.config toldThreeTree = some entries ∧ Fits entries ∧
      (loadSettings Tree.disk a toldThreeTree).1 = .ok settings ∧ settings.limit = 99 ∧
      settings.timeout = 5 ∧ settings.dataset = "x.csv" ∧ settings.address = "[::1]:80" ∧
      settings.output = Settings.standardOutput := by
  have harguments : readArguments (some "[::1]:80") toldThree =
      .ok ⟨none, none, toldThreeGiven.settings (some "[::1]:80")⟩ := rfl
  obtain ⟨entries, htold⟩ := exists_toldThree
  obtain ⟨given, settings, hgiven, hload, -, hvalues, -⟩ :=
    settings_in_effect Tree.fileSystem toldThreeTree (some "[::1]:80") toldThree _ entries
      harguments htold.read htold.fits
  obtain rfl : toldThreeGiven = given := Except.ok.inj hgiven
  have hlimit := hvalues .limit
  have htimeout := hvalues .timeout
  have hdataset := hvalues .dataset
  have haddress := hvalues .address
  have houtput := hvalues .output
  rw [htold.limit] at hlimit
  rw [htold.timeout] at htimeout
  rw [htold.dataset] at hdataset
  rw [htold.address] at haddress
  rw [htold.output] at houtput
  exact ⟨_, entries, settings, harguments, htold.read, htold.fits, hload, hlimit, htimeout,
    hdataset, haddress, houtput⟩

-- To tell a setting is not enough: its standard value does not count before the file
theorem not_all_that_is_told_counts :
    ¬ ∀ (environment : Option String) (arguments : List String) (a : Arguments) (tree : Tree)
      (entries : Toml.Entries) (given : Given) (settings : Settings),
      readArguments environment arguments = .ok a → told arguments = .ok given →
      settingsEntries? Tree.fileSystem a.config tree = some entries → Fits entries →
      (loadSettings Tree.disk a tree).1 = .ok settings →
      ∀ k : Setting, k.same (k.of settings)
        (((k.told given environment).or (k.inFile entries)).getD k.standard) = true := by
  intro hcounts
  have harguments : readArguments none toldThree =
      .ok ⟨none, none, toldThreeGiven.settings none⟩ := rfl
  obtain ⟨entries, htold⟩ := exists_toldThree
  obtain ⟨file, hof⟩ := ofEntries_isOk_iff.mpr htold.fits
  obtain ⟨hload, hdistinct⟩ :=
    loadSettings_of_entries (a := ⟨none, none, toldThreeGiven.settings none⟩) htold.read
  rw [hof] at hload
  have hlimit := hcounts none toldThree _ toldThreeTree entries toldThreeGiven _ harguments rfl
    htold.read htold.fits hload .limit
  rw [Setting.of_merge, Setting.of_settings, of_ofEntries hdistinct hof, htold.limit] at hlimit
  exact absurd hlimit (by decide)

end Blocklist.Program
