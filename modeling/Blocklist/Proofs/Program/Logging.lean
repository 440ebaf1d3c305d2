import Blocklist.Proofs.Log.Filter
import Blocklist.Proofs.Program.Precedence
import Blocklist.Proofs.Program.Run
import Blocklist.Service.Basic
-- Which lines of a run are shown. The filter is made of what the command line tells, before
-- a file of settings is read.
namespace Blocklist.Program

open Blocklist.Fetch Blocklist.Files Blocklist.Log Blocklist.Settings

variable {σ κ : Type} {fs : FileSystem σ κ} {world : World} {i : Invocation} {s left : σ}
  {a b : Arguments} {filter other : Filter} {settings file : Settings} {p : Plan}
  {ending : Ending} {level : Log.Level}

-- What a command has to say, whichever of it is shown
def said (fs : FileSystem σ κ) (world : World) (c : Command) (settings : Settings) (s : σ) :
    List Line :=
  match Dataset.ofOpened settings.dataset (fs.disk.opened settings.dataset s).1 with
  | .error _ => []
  | .ok d =>
    match Plan.create settings d, c with
    | .error _, _ => loadLines world d
    | .ok p, .generate => generateLines p world
    | .ok _, .serve =>
      match listen world settings.address with
      | .error _ => loadLines world d
      | .ok address => loadLines world d ++ [listenLine address]

def Ending.errors : Ending → String
  | .done r => r.errors
  | .serving _ _ errors => errors

-- All lines are lines of this program

theorem isOwn_loadLines (world : World) (d : Dataset) :
    ∀ l ∈ loadLines world d, l.isOwn = true := by
  simp only [loadLines, List.forall_mem_append, List.forall_mem_map, List.forall_mem_singleton]
  exact ⟨fun _ _ => isOwn_ownLine _ _ _, isOwn_ownLine _ _ _⟩

theorem isOwn_outcomeLines (r : Pool.Run) : ∀ l ∈ Plan.outcomeLines r, l.isOwn = true := by
  simp only [Plan.outcomeLines, List.forall_mem_append, List.forall_mem_map]
  refine ⟨fun _ _ => isOwn_ownLine _ _ _, ?_⟩
  split
  case isTrue => exact List.forall_mem_singleton.mpr (isOwn_ownLine _ _ _)
  case isFalse => exact List.forall_mem_nil _

theorem isOwn_lines (p : Plan) (world : World) (limit : Nat) :
    ∀ l ∈ p.lines world limit, l.isOwn = true := by
  simp only [Plan.lines]
  split
  case isFalse => exact List.forall_mem_singleton.mpr (isOwn_ownLine _ _ _)
  case isTrue =>
    simp only [List.cons_append, List.forall_mem_cons, List.forall_mem_append,
      List.forall_mem_flatMap]
    exact ⟨isOwn_ownLine _ _ _, fun r _ => isOwn_outcomeLines r, isOwn_ownLine _ _ _,
      List.forall_mem_nil _⟩

theorem isOwn_submissionStrand (world : World) (r : Pool.Run) :
    ∀ l ∈ (Plan.submissionStrand world r).early ++ (Plan.submissionStrand world r).late,
      l.isOwn = true := by
  have hcrashes (crashes : List Pool.Crash) : ∀ l ∈ Plan.crashLines world crashes,
      l.isOwn = true :=
    List.forall_mem_map.mpr fun _ _ => isOwn_ownLine _ _ _
  have hstopped (text : String) : ∀ l ∈ (if r.timeline.batch.queue.isEmpty then []
      else [poolLine .debug text]), l.isOwn = true := by
    split
    case isTrue => exact List.forall_mem_nil _
    case isFalse => exact List.forall_mem_singleton.mpr (isOwn_ownLine _ _ _)
  simp only [Plan.submissionStrand]
  split
  case isTrue =>
    simp only [List.forall_mem_append]
    exact ⟨⟨hstopped _, hcrashes _⟩, hcrashes _⟩
  case isFalse =>
    simp only [List.nil_append, List.forall_mem_append]
    exact ⟨hstopped _, hcrashes _⟩

theorem isOwn_deadlineStrand (p : Plan) (r : Pool.Run) :
    ∀ l ∈ (p.deadlineStrand r).early ++ (p.deadlineStrand r).late, l.isOwn = true := by
  simp only [Plan.deadlineStrand, List.append_nil]
  split
  case isTrue => exact List.forall_mem_singleton.mpr (isOwn_ownLine _ _ _)
  case isFalse => exact List.forall_mem_nil _

theorem isOwn_fetchStrand (p : Plan) (world : World) (r : Pool.Run) (f : Pool.Flight) :
    ∀ l ∈ (p.fetchStrand world r f).early ++ (p.fetchStrand world r f).late,
      l.isOwn = true := by
  have hcut : ∀ l ∈ (if (p.client.fetch world.network f.url).truncated
      then [clientLine (p.client.cutRemark f.url)] else []), l.isOwn = true := by
    split
    case isTrue => exact List.forall_mem_singleton.mpr (isOwn_ownLine _ _ _)
    case isFalse => exact List.forall_mem_nil _
  simp only [Plan.fetchStrand]
  split
  case isTrue =>
    simp only [List.forall_mem_append, List.forall_mem_singleton]
    exact ⟨isOwn_ownLine _ _ _, hcut⟩
  case isFalse =>
    simp only [List.append_nil, List.forall_mem_append, List.forall_mem_singleton]
    exact ⟨isOwn_ownLine _ _ _, hcut⟩

theorem isOwn_strands (p : Plan) (world : World) (limit : Nat) :
    ∀ strand ∈ p.strands world limit, ∀ l ∈ strand.early ++ strand.late, l.isOwn = true := by
  simp only [Plan.strands]
  split
  case isFalse => exact List.forall_mem_nil _
  case isTrue =>
    split
    case h_1 => exact List.forall_mem_singleton.mpr (isOwn_submissionStrand world _)
    case h_2 r _ =>
      simp only [List.forall_mem_cons, List.forall_mem_map]
      exact ⟨isOwn_deadlineStrand p r, isOwn_submissionStrand world r,
        fun f _ => isOwn_fetchStrand p world r f⟩

-- So are those that come out of the run and of the tasks beside it
theorem isOwn_weave {own : List Line} (hown : ∀ l ∈ own, l.isOwn = true) (p : Plan)
    (world : World) (limit : Nat) :
    ∀ l ∈ world.weave.lines own (p.strands world limit), l.isOwn = true := by
  intro l hl
  rcases Weave.mem_lines hl with hl | ⟨strand, hstrand, hl⟩
  · exact hown l hl
  · exact isOwn_strands p world limit strand hstrand l hl

theorem isOwn_generateLines (p : Plan) (world : World) :
    ∀ l ∈ generateLines p world, l.isOwn = true := by
  unfold generateLines
  simp only [List.forall_mem_append]
  refine ⟨isOwn_loadLines world p.dataset, isOwn_weave ?_ p world _⟩
  simp only [List.forall_mem_cons, List.forall_mem_append, List.cons_append]
  refine ⟨isOwn_ownLine _ _ _, isOwn_lines p world _, ?_⟩
  cases generate? p world p.settings.limit with
  | none => exact List.forall_mem_nil _
  | some g => exact List.forall_mem_singleton.mpr (isOwn_ownLine _ _ _)

theorem isOwn_requestLines (p : Plan) (world : World) (r : Service.Request) :
    ∀ l ∈ Service.requestLines p world r, l.isOwn = true := by
  unfold Service.requestLines
  split
  case h_1 => exact List.forall_mem_nil _
  case h_2 limit _ =>
    refine isOwn_weave ?_ p world limit
    exact List.forall_mem_cons.mpr ⟨isOwn_ownLine _ _ _, isOwn_lines p world limit⟩

theorem isOwn_said (fs : FileSystem σ κ) (world : World) (c : Command) (settings : Settings)
    (s : σ) : ∀ l ∈ said fs world c settings s, l.isOwn = true := by
  unfold said
  split
  case h_1 => exact List.forall_mem_nil _
  case h_2 d _ =>
    split
    case h_1 => exact isOwn_loadLines world d
    case h_2 p _ => exact isOwn_generateLines p world
    case h_3 =>
      split
      case h_1 => exact isOwn_loadLines world d
      case h_2 =>
        simp only [List.forall_mem_append, List.forall_mem_singleton]
        exact ⟨isOwn_loadLines world d, isOwn_ownLine _ _ _⟩

theorem Starts.unique (h : Starts fs i s a filter settings) (g : Starts fs i s b other file) :
    b = a ∧ other = filter ∧ file = settings := by
  obtain rfl := Except.ok.inj (g.arguments.symm.trans h.arguments)
  exact ⟨rfl, Except.ok.inj (g.level.symm.trans h.level),
    Except.ok.inj (g.loaded.symm.trans h.loaded)⟩

-- From now on lines are shown to a level: those of requests, also of requests that get no
-- answer, and the one at the end
structure Serves (world : World) (p : Plan) (filter : Filter) (level : Log.Level) : Prop where
  request : ∀ r, filter.display (Service.requestLines p world r) =
    shownUpTo level (Service.requestLines p world r)
  answer : ∀ r response, Service.answer? p world r = some response →
    response.lines = Service.requestLines p world r
  last : ∀ trouble, filter.display [Service.endLine trouble] =
    shownUpTo level [Service.endLine trouble]

-- Lines are shown to a level, and after them a failure is told or a crash at most. So are the
-- lines that are still to come.
structure Prints (world : World) (ending : Ending) (level : Log.Level) (lines : List Line) :
    Prop where
  errors : ∃ rest, ending.errors = shownUpTo level lines ++ rest ∧
    (rest = "" ∨ (∃ f : Failure, rest = f.display) ∨ rest = world.crashText)
  later : ∀ p filter errors, ending = .serving p filter errors → Serves world p filter level

theorem lines_of_answerGenerate? {query : List Char} {response : Service.Response}
    (h : Service.answerGenerate? p world query = some response) :
    response.lines = match Service.limitOf? p.settings.limit query with
      | none => []
      | some limit => Service.generationLines p world limit := by
  unfold Service.answerGenerate? at h
  cases hlimit : Service.limitOf? p.settings.limit query with
  | none =>
      rw [hlimit] at h
      cases h
      rfl
  | some limit =>
      rw [hlimit] at h
      obtain ⟨g, -, rfl⟩ := Option.map_eq_some_iff.mp h
      rfl

theorem lines_of_answer? {r : Service.Request} {response : Service.Response}
    (h : Service.answer? p world r = some response) :
    response.lines = Service.requestLines p world r := by
  obtain ⟨method, target⟩ := r
  cases hsplit : Service.splitTarget target with
  | mk path query =>
      simp only [Service.answer?, hsplit] at h
      simp only [Service.requestLines, Service.requestLimit?, hsplit]
      cases hpage : Service.page? path with
      | none =>
          rw [hpage] at h
          cases h
          rfl
      | some page =>
          simp only [hpage] at h
          cases page with
          | health =>
              rw [if_neg (fun hboth => nomatch hboth.1)]
              split at h <;> cases h <;> rfl
          | generate =>
              split at h
              case h_1 =>
                rw [if_pos ⟨rfl, .inl rfl⟩]
                exact lines_of_answerGenerate? h
              case h_2 =>
                rw [if_pos ⟨rfl, .inr rfl⟩]
                obtain ⟨full, hfull, rfl⟩ := Option.map_eq_some_iff.mp h
                have hlines : full.lines = _ := lines_of_answerGenerate? hfull
                exact hlines
              case h_3 hget hhead =>
                rw [if_neg (fun hboth => hboth.2.elim hget hhead)]
                cases h
                rfl

theorem serves_ofLevel (world : World) (p : Plan) (level : Log.Level) :
    Serves world p (Filter.ofLevel level) level where
  request r := Filter.display_ofLevel level (isOwn_requestLines p world r)
  answer _ _ := lines_of_answer?
  last trouble := by
    refine Filter.display_ofLevel level (List.forall_mem_singleton.mpr ?_)
    cases trouble <;> exact isOwn_ownLine _ _ _

theorem prints_failed {lines : List Line} (hown : ∀ l ∈ lines, l.isOwn = true)
    (level : Log.Level) (f : Failure) (requests : List String) :
    Prints world (.done (.failed (Filter.ofLevel level) lines f requests)) level lines := by
  refine ⟨⟨f.display, ?_, .inr (.inl ⟨f, rfl⟩)⟩, nofun⟩
  rw [← Filter.display_ofLevel level hown]
  rfl

theorem prints_runServe (world : World) (level : Log.Level) (p : Plan) :
    Prints world (runServe world (Filter.ofLevel level) p) level
      (match listen world p.settings.address with
        | .error _ => loadLines world p.dataset
        | .ok address => loadLines world p.dataset ++ [listenLine address]) := by
  have hload := isOwn_loadLines world p.dataset
  unfold runServe
  cases listen world p.settings.address with
  | error f => exact prints_failed hload level f []
  | ok address =>
      have hown : ∀ l ∈ loadLines world p.dataset ++ [listenLine address], l.isOwn = true := by
        simp only [List.forall_mem_append, List.forall_mem_singleton]
        exact ⟨hload, isOwn_ownLine _ _ _⟩
      refine ⟨⟨"", ?_, .inl rfl⟩, fun q other errors h => ?_⟩
      · rw [← Filter.display_ofLevel level hown, String.append_empty]
        rfl
      · cases h
        exact serves_ofLevel world p level

theorem Course.prints (course : Course fs world i s ending left)
    (starts : Starts fs i s a (Filter.ofLevel level) settings) :
    Prints world ending level (said fs world a.runs settings s) := by
  cases course with
  | stopped arguments => cases starts.arguments.symm.trans arguments
  | noLevel arguments bad =>
      cases starts.arguments.symm.trans arguments
      cases starts.level.symm.trans bad
  | beyond arguments _ bad =>
      cases starts.arguments.symm.trans arguments
      cases starts.loaded.symm.trans bad
  | badSettings arguments _ bad =>
      cases starts.arguments.symm.trans arguments
      cases starts.loaded.symm.trans bad
  | noThreads arguments _ loaded none =>
      cases starts.arguments.symm.trans arguments
      cases starts.loaded.symm.trans loaded
      exact absurd none starts.threads
  | noDataset f own unreadable =>
      obtain ⟨rfl, rfl, rfl⟩ := starts.unique own
      simp only [said, unreadable]
      exact prints_failed (List.forall_mem_nil _) level f []
  | noClient own dataset unfit =>
      obtain ⟨rfl, rfl, rfl⟩ := starts.unique own
      simp only [said, dataset, unfit]
      exact prints_failed (isOwn_loadLines world _) level _ []
  | serves own plans command =>
      obtain ⟨rfl, rfl, rfl⟩ := starts.unique own
      simp only [said, plans.dataset, plans.created, command]
      rw [← plans.settings_eq]
      exact prints_runServe world level _
  | @noRules _ _ _ p own plans command none =>
      obtain ⟨rfl, rfl, rfl⟩ := starts.unique own
      simp only [said, plans.dataset, plans.created, command]
      refine ⟨⟨world.crashText, ?_, .inr (.inr rfl)⟩, nofun⟩
      rw [← Filter.display_ofLevel level (isOwn_generateLines p world)]
      rfl
  | @unwritten _ _ _ p _ _ _ own plans command rules refused =>
      obtain ⟨rfl, rfl, rfl⟩ := starts.unique own
      simp only [said, plans.dataset, plans.created, command]
      exact prints_failed (isOwn_generateLines p world) level _ _
  | @written _ _ _ p _ _ own plans command rules done =>
      obtain ⟨rfl, rfl, rfl⟩ := starts.unique own
      simp only [said, plans.dataset, plans.created, command]
      refine ⟨⟨"", ?_, .inl rfl⟩, nofun⟩
      rw [← Filter.display_ofLevel level (isOwn_generateLines p world), String.append_empty]
      rfl

-- Where the standard verbosity is told, the one of the file counts
theorem unlessStandard_standard (v : Verbosity) :
    Settings.unlessStandard (· == ·) Verbosity.standard Verbosity.standard v = v := by
  by_cases h : v = Verbosity.standard <;> simp [Settings.unlessStandard, h]

-- The level in effect is the one that is told, unless it is not told and a file tells another
theorem exists_level_in_effect (hloaded : (loadSettings fs.disk a s).1 = .ok settings)
    (htold : a.settings.verbosity.level = .ok level) :
    ∃ inEffect, settings.verbosity.level = .ok inEffect ∧
      (level = inEffect ↔ (a.settings.verbosity = Verbosity.standard → inEffect = .info)) := by
  obtain ⟨entries, file, hentries, hof⟩ := settingsEntries?_of_loadSettings hloaded
  obtain ⟨hload, hdistinct⟩ := loadSettings_of_entries hentries
  rw [hof, hloaded] at hload
  obtain rfl : settings = a.settings.merge file := Except.ok.inj hload
  obtain ⟨inFile, hfile⟩ := exists_level_of_ofEntries hdistinct hof
  have hmerged : (a.settings.merge file).verbosity = Settings.unlessStandard (· == ·)
      Verbosity.standard a.settings.verbosity file.verbosity := rfl
  rw [hmerged, hfile]
  by_cases hstandard : a.settings.verbosity = Verbosity.standard
  · rw [hstandard, Verbosity.level_standard] at htold
    rw [hstandard, unlessStandard_standard]
    refine ⟨inFile, Verbosity.level_ofLevel inFile, ?_⟩
    rw [← Except.ok.inj htold]
    exact ⟨fun h _ => h.symm, fun h => (h rfl).symm⟩
  · rw [Settings.unlessStandard, beq_false_of_ne hstandard]
    exact ⟨level, htold, fun _ h => absurd h hstandard, fun _ => rfl⟩

-- The lines of a run are shown up to the level that the command line tells. It is the level
-- in effect unless nothing is told there and the file tells another than the standard one.
theorem lines_are_shown_to_the_level_told (fs : FileSystem σ κ) (world : World)
    (i : Invocation) (s : σ) (a : Arguments) (filter : Filter) (settings : Settings)
    (hunset : i.logText = none) (starts : Starts fs i s a filter settings) :
    ∃ told inEffect, a.settings.verbosity.level = .ok told ∧
      settings.verbosity.level = .ok inEffect ∧ filter = Filter.ofLevel told ∧
      (∀ l : Line, l.isOwn = true → (filter.shows l = true ↔ l.level.rank ≤ told.rank)) ∧
      (∀ l ∈ said fs world a.runs settings s, l.isOwn = true) ∧
      Prints world (run fs.disk world i s).1 told (said fs world a.runs settings s) ∧
      (told = inEffect ↔ (a.settings.verbosity = Verbosity.standard → inEffect = .info)) := by
  have hfilter := starts.level
  simp only [filterOf, hunset] at hfilter
  cases htold : a.settings.verbosity.level with
  | error e =>
      rw [htold] at hfilter
      cases hfilter
  | ok told =>
      rw [htold] at hfilter
      obtain rfl : Filter.ofLevel told = filter := Except.ok.inj hfilter
      obtain ⟨inEffect, heffect, hsame⟩ := exists_level_in_effect starts.loaded htold
      refine ⟨told, inEffect, rfl, heffect, rfl, fun l hl => ?_,
        isOwn_said fs world a.runs settings s, (run_course fs world i s).prints starts, hsame⟩
      rw [Filter.shows_ofLevel told hl, decide_eq_true_eq]

-- A file of settings that wants errors only, beside a dataset
def quietText : String := "verbose = \"error\"\n"

def quietTree (data : List UInt8) : Tree :=
  ⟨[(["data.csv"], .file data), (["shieldgen.toml"], .file (Text.encode quietText.toList))], []⟩

def untold : Invocation := ⟨["-d", "data.csv", "-o", "r.json"], none, none⟩

def untoldSettings : Settings :=
  { Settings.standard with dataset := "data.csv", output := "r.json" }

def quietSettings : Settings := { untoldSettings with verbosity := Verbosity.ofLevel .error }

-- A wish for more counts before the file
def wordy : Invocation := ⟨["-d", "data.csv", "-o", "r.json", "-v"], none, none⟩

def wordySettings : Settings := { untoldSettings with verbosity := Verbosity.ofLevel .debug }

theorem settingsEntries?_quietTree (data : List UInt8) :
    settingsEntries? Tree.fileSystem none (quietTree data) = some [("verbose", .text "error")] := by
  have hthere : (Tree.fileSystem.disk.isFile Settings.standardFile (quietTree data)).1 = true := rfl
  have hopened : (Tree.fileSystem.disk.opened Settings.standardFile (quietTree data)).1 =
      .ok (.bytes (Text.encode quietText.toList)) := rfl
  have hread : ∃ entries ∈ Toml.read? quietText, entries.map Prod.fst = ["verbose"] ∧
      entries.map (fun entry => (textOf entry.2).toOption) = [some "error"] := by decide +kernel
  obtain ⟨entries, hentries, hkeys, hvalues⟩ := hread
  rw [settingsEntries?, if_pos hthere, hopened, entriesIn?_encode, hentries]
  obtain ⟨entry, rfl⟩ := List.length_eq_one_iff.mp (by simpa using congrArg List.length hkeys)
  obtain ⟨key, v⟩ := entry
  obtain rfl : key = "verbose" := List.singleton_inj.mp hkeys
  have hv : textOf v = .ok "error" := of_toOption_eq_some (List.singleton_inj.mp hvalues)
  cases v with
  | text name =>
      cases hv
      rfl
  | _ => cases hv

theorem loadSettings_quietTree (data : List UInt8) (given : Settings) :
    (loadSettings Tree.fileSystem.disk ⟨none, none, given⟩ (quietTree data)).1 =
      .ok (given.merge { Settings.standard with verbosity := Verbosity.ofLevel .error }) := by
  have hof : ofEntries [("verbose", .text "error")] =
      .ok { Settings.standard with verbosity := Verbosity.ofLevel .error } := by
    rw [ofEntries, List.mergeSort_singleton]
    rfl
  have hload := (loadSettings_of_entries (a := ⟨none, none, given⟩)
    (settingsEntries?_quietTree data)).1
  rw [hload, hof]
  rfl

theorem starts_untold (data : List UInt8) :
    Starts Tree.fileSystem untold (quietTree data) ⟨none, none, untoldSettings⟩
      (Filter.ofLevel .info) quietSettings where
  arguments := rfl
  level := filterOf_standard rfl
  loaded := by
    rw [loadSettings_quietTree]
    decide
  threads := nofun

theorem starts_wordy (data : List UInt8) :
    Starts Tree.fileSystem wordy (quietTree data) ⟨none, none, wordySettings⟩
      (Filter.ofLevel .debug) wordySettings where
  arguments := rfl
  level := filterOf_of_level rfl (Verbosity.level_ofLevel .debug)
  loaded := by
    rw [loadSettings_quietTree]
    decide
  threads := nofun

def quietLines : List Line :=
  said Tree.fileSystem World.offline .generate quietSettings (quietTree [])

-- Five lines are said, none of them of an error
theorem levels_quietLines : quietLines.map Line.level = List.replicate 5 .info := rfl

-- A dataset with a record that is no text
def brokenBytes : List UInt8 := Text.encode "tagIds\n".toList ++ [0xFF, 0x0A]

def brokenLines : List Line :=
  said Tree.fileSystem World.offline .generate wordySettings (quietTree brokenBytes)

theorem levels_brokenLines : brokenLines.map Line.level = .debug :: List.replicate 5 .info := by
  decide +kernel

-- Lines of information are shown that the file does not want. With a wish for more the line
-- about the record is shown too.
theorem lines_are_shown_to_the_level_told_quiet : untold.logText = none ∧ wordy.logText = none ∧
    Starts Tree.fileSystem untold (quietTree []) ⟨none, none, untoldSettings⟩
      (Filter.ofLevel .info) quietSettings ∧
    Starts Tree.fileSystem wordy (quietTree brokenBytes) ⟨none, none, wordySettings⟩
      (Filter.ofLevel .debug) wordySettings ∧
    (∃ told inEffect, Verbosity.standard.level = .ok told ∧
      quietSettings.verbosity.level = .ok inEffect ∧ inEffect ≠ told ∧
      Prints World.offline (runOn (quietTree []) World.offline untold).1 told quietLines) ∧
    ∃ told, wordySettings.verbosity.level = .ok told ∧
      (∃ l ∈ brokenLines, l.level = .debug ∧ (Filter.ofLevel told).shows l = true) ∧
      Prints World.offline (runOn (quietTree brokenBytes) World.offline wordy).1 told
        brokenLines := by
  obtain ⟨told, inEffect, htold, heffect, -, -, -, hprints, -⟩ :=
    lines_are_shown_to_the_level_told Tree.fileSystem World.offline untold (quietTree []) _ _ _
      rfl (starts_untold [])
  obtain ⟨more, -, hmore, -, hfilter, hshows, hown, hwordy, -⟩ :=
    lines_are_shown_to_the_level_told Tree.fileSystem World.offline wordy (quietTree brokenBytes)
      _ _ _ rfl (starts_wordy brokenBytes)
  refine ⟨rfl, rfl, starts_untold [], starts_wordy brokenBytes,
    ⟨told, inEffect, htold, heffect, ?_, hprints⟩, more, hmore, ?_, hwordy⟩
  · have hstandard := Except.ok.inj (Verbosity.level_standard.symm.trans htold)
    have herror := Except.ok.inj ((Verbosity.level_ofLevel .error).symm.trans heffect)
    rw [← hstandard, ← herror]
    decide
  · have hsaid : Log.Level.debug ∈ brokenLines.map Line.level := by
      rw [levels_brokenLines]
      exact List.mem_cons_self
    obtain ⟨l, hl, hlevel⟩ := List.mem_map.mp hsaid
    have hlast := Except.ok.inj (hmore.symm.trans (Verbosity.level_ofLevel .debug))
    have hrank := Nat.le_of_eq (congrArg Log.Level.rank (hlevel.trans hlast.symm))
    exact ⟨l, hl, hlevel, hfilter ▸ (hshows l (hown l hl)).mpr hrank⟩

-- Lines are told apart from a failure by how they begin
theorem Prints.begins_iff {lines : List Line} (h : Prints World.offline ending level lines) :
    ending.errors.toList.head? = some '[' ↔ ∃ l ∈ lines, l.level.rank ≤ level.rank := by
  obtain ⟨rest, herrors, hrest⟩ := h.errors
  have hother : rest.toList.head? ≠ some '[' := by
    rcases hrest with rfl | ⟨f, rfl⟩ | rfl
    · decide
    · simp [Failure.display]
    · decide
  cases hshown : lines.filter fun l => l.level.rank ≤ level.rank with
  | nil =>
      have hnone : ¬ ∃ l ∈ lines, l.level.rank ≤ level.rank := by
        rintro ⟨l, hl, hrank⟩
        exact List.filter_eq_nil_iff.mp hshown l hl (decide_eq_true hrank)
      simp [herrors, shownUpTo, hshown, hnone, hother]
  | cons l others =>
      have hl : l ∈ lines ∧ l.level.rank ≤ level.rank :=
        (List.mem_filter.mp (hshown ▸ List.mem_cons_self)).imp_right of_decide_eq_true
      simpa [herrors, shownUpTo, hshown, Line.display] using ⟨l, hl⟩

-- A file wants errors only, and the run shows information all the same
theorem not_every_run_prints_to_the_level_in_effect :
    ¬ ∀ (tree : Tree) (world : World) (i : Invocation) (a : Arguments) (filter : Filter)
      (settings : Settings) (inEffect : Log.Level), i.logText = none →
      Starts Tree.fileSystem i tree a filter settings →
      settings.verbosity.level = .ok inEffect →
      Prints world (runOn tree world i).1 inEffect
        (said Tree.fileSystem world a.runs settings tree) := by
  intro hevery
  have hwanted : Prints World.offline (runOn (quietTree []) World.offline untold).1 .error
      quietLines :=
    hevery (quietTree []) World.offline untold _ _ quietSettings .error rfl (starts_untold [])
      (Verbosity.level_ofLevel .error)
  have hshown : Prints World.offline (runOn (quietTree []) World.offline untold).1 .info
      quietLines :=
    (run_course Tree.fileSystem World.offline untold (quietTree [])).prints (starts_untold [])
  have hinfo : .info ∈ quietLines.map Line.level := by
    rw [levels_quietLines]
    decide
  obtain ⟨l, hl, hlevel⟩ := List.mem_map.mp hinfo
  have hbegins := hshown.begins_iff.mpr ⟨l, hl, Nat.le_of_eq (congrArg Log.Level.rank hlevel)⟩
  obtain ⟨grave, hgrave, hrank⟩ := hwanted.begins_iff.mp hbegins
  have hlevels := List.mem_map_of_mem (f := Line.level) hgrave
  rw [levels_quietLines] at hlevels
  rw [List.eq_of_mem_replicate hlevels] at hrank
  exact absurd hrank (by decide)

end Blocklist.Program
