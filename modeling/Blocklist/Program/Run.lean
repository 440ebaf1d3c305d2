import Blocklist.Files.Disk
import Blocklist.Program.Report
import Blocklist.Rules.Json
import Blocklist.Service.Address
import Blocklist.Settings.Document
-- A run of the program: from its command line to what it prints and writes.
namespace Blocklist.Program

open Blocklist.Fetch Blocklist.Files Blocklist.Log Blocklist.Settings

-- What a run was told
structure Invocation where
  arguments : List String
  -- the address that the environment tells
  address : Option String
  -- which log lines the environment wants
  logText : Option String

-- Which lines are logged. The environment counts before the command line.
def filterOf (i : Invocation) (v : Verbosity) : Except RankOverflow Filter :=
  match i.logText with
  | some text => .ok (Filter.ofText text)
  | none => v.level.map Filter.ofLevel

def programLine (part text : String) : Line := ownLine part .info text

-- What is said when the dataset has been read
def loadLines (world : World) (d : Dataset) : List Line :=
  (List.range d.skipped).map
      (fun i => ownLine "_lib::dataset" .debug (Dataset.skipRemark (world.rowFault i))) ++
    [programLine "" ("Loaded " ++ toString d.size ++ " dataset rows")]

def selectedLine (p : Plan) : Line :=
  programLine "::commands::generate"
    ("Selected " ++ toString p.urls.length ++ " of " ++ toString p.dataset.size ++ " dataset rows")

def summaryLine (rules : List Rule) : Line :=
  programLine "::formatters::rules" (Rule.summary rules)

def listenLine (address : String) : Line :=
  programLine "::commands::serve" ("Listening on " ++ address)

-- What is said by a run that generates rules once, as long as it goes well
def generateLines (p : Plan) (world : World) : List Line :=
  let limit := p.settings.limit
  let summary := (generate? p world limit).map fun g => summaryLine g.rules
  loadLines world p.dataset ++ world.weave.lines
    (selectedLine p :: p.lines world limit ++ summary.toList) (p.strands world limit)

section

variable {m : Type → Type} [Monad m]

-- The settings in effect. A file that is told must be there, the standard one need not.
def loadSettings (disk : Disk m) (a : Arguments) : m (Except DocumentError Settings) := do
  let read (path : Path) : m (Except DocumentError Settings) := do
    let opened ← disk.opened path
    pure ((Settings.ofOpened opened).map a.settings.merge)
  match a.config with
  | some path => read path
  | none =>
    let isThere ← disk.isFile Settings.standardFile
    if isThere then read Settings.standardFile else pure (.ok a.settings)

-- Write the rules, and the folders on the way to them
def writeRules (disk : Disk m) (output : Path) (rules : List Rule) :
    m (Except Failure Unit) := do
  let text := Text.encode (Rule.writeAll .indented rules).toList
  let made ← match output.parent? with
    | none => pure (.ok ())
    | some "" => pure (.ok ())
    | some parent => do
      let result ← disk.makeFolders parent
      pure (result.mapError fun e =>
        (⟨"Cannot create output directory `" ++ parent ++ "`", [e.text]⟩ : Failure))
  match made with
  | .error f => pure (.error f)
  | .ok () =>
    let written ← disk.write output text
    pure (written.mapError fun e => ⟨"Cannot write rules to `" ++ output ++ "`", [e.text]⟩)

-- Generate rules once and write them
def runGenerate (disk : Disk m) (world : World) (filter : Filter) (p : Plan) : m Report := do
  let lines := generateLines p world
  match generate? p world p.settings.limit with
  | none =>
    pure (Report.crashed world (filter.display lines) (p.requests world p.settings.limit))
  | some g =>
    let output := p.settings.output
    match ← writeRules disk output g.rules with
    | .error f => pure (Report.failed filter lines f g.requests)
    | .ok () =>
      let told := "Generated " ++ toString g.rules.length ++ " rules -> " ++ output ++ "\n"
      pure ⟨.success, told, filter.display lines, g.requests⟩

def bindFailure (address cause : String) : Failure :=
  ⟨"Cannot bind to `" ++ address ++ "`", [cause]⟩

-- The address that the service listens on
def listen (world : World) (address : String) : Except Failure String :=
  match Service.readAddress address with
  | .error e => .error (bindFailure address e.text)
  | .ok _ => (world.bind address).mapError (bindFailure address)

-- Get ready to answer requests
def runServe (world : World) (filter : Filter) (p : Plan) : Ending :=
  let lines := loadLines world p.dataset
  match listen world p.settings.address with
  | .error f => .done (Report.failed filter lines f [])
  | .ok address => .serving p filter (filter.display (lines ++ [listenLine address]))

-- Run a command under settings. The dataset comes first, then the client.
def runCommand (disk : Disk m) (world : World) (filter : Filter) (c : Command)
    (settings : Settings) : m Ending := do
  let path := settings.dataset
  match Dataset.ofOpened path (← disk.opened path) with
  | .error e =>
    pure (.done (Report.failed filter []
      (Failure.ofFetchError ("Cannot load dataset from `" ++ path ++ "`") e) []))
  | .ok dataset =>
    match Plan.create settings dataset with
    | .error f => pure (.done (Report.failed filter (loadLines world dataset) f []))
    | .ok p =>
      match c with
      | .generate => do pure (.done (← runGenerate disk world filter p))
      | .serve => pure (runServe world filter p)

-- What is said of a file of settings that cannot be read, which was told or is the standard one
def settingsLine (world : World) (config : Option Path) : Line :=
  let file := match config with
    | some path => "configuration file `" ++ path ++ "`"
    | none => "default configuration file `" ++ Settings.standardFile ++ "`"
  ownLine "" .error ("Error while loading config: Cannot load " ++ file ++ ": " ++
    world.settingsFault ++ "\n" ++ programName ++ " " ++ version ++ " reads `" ++
    Settings.standardFile ++ "` from the working directory by default")

def run (disk : Disk m) (world : World) (i : Invocation) : m Ending := do
  match readArguments i.address i.arguments with
  | .error s => pure (.done (Report.ofStop world s))
  | .ok a =>
    match filterOf i a.settings.verbosity with
    | .error _ => pure (.done (Report.crashed world "" []))
    | .ok filter =>
      match ← loadSettings disk a with
      | .error .beyond => pure (.done (Report.crashed world "" []))
      | .error _ =>
        pure (.done ⟨.settings, "", filter.display [settingsLine world a.config], []⟩)
      | .ok settings =>
        if settings.threads = some 0 then pure (.done (Report.crashed world "" []))
        else runCommand disk world filter a.runs settings

end

-- A run on a tree of files
def runOn (tree : Tree) (world : World) (i : Invocation) : Ending × Tree :=
  run Tree.disk world i tree

end Blocklist.Program
