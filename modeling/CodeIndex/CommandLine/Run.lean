import CodeIndex.CommandLine.Table
import CodeIndex.CommandLine.Terminal
import CodeIndex.Decimal.Fixed
import CodeIndex.FileTree.ProjectRoot
import CodeIndex.Service.Http
import CodeIndex.Settings.Load

/-!
# Running commands

What each command does.  Results go to the output, messages and logs to the error stream.
-/

namespace CodeIndex.CommandLine

def loadProject (start : Option Path) : Action Unit := do
  let t ← get
  let root := t.workspace.tree.projectOf (t.here.under (start.getD default))
  let own := root.under { root := "", names := [layout.stateDir, layout.configFile] }
  let sources : Settings.Sources :=
    { everywhere := ← configFile t.everywhere, project := ← configFile own
      environment := t.environment, home := t.workspace.home }
  let settings ← resultOf (Settings.load sources)
  if settings.lacksStore t.workspace.home then crash (Mishap.other Settings.unknownHome).name
  modify fun t => { t with service := Service.ofWorkspace { t.workspace with root, settings } }

def settings : Action Settings := do
  return (← get).workspace.settings

def build (start : Option Path) : Action Unit := do
  loadProject start
  let done ← onWorkspace Workspace.rebuild
  let store := (← get).workspace.storePath.toString
  succeed ("Indexed " ++ Nat.repr done.entities ++ " entities from " ++ Nat.repr done.paths
    ++ " files into " ++ store)

/-! ## Reading records -/

/-- The text of a source with its name; a dash is the input. -/
def readSource (source : Path) : Action (String × String) := do
  let name := source.toString
  if name == "-" then return (← textOf (← get).input, "stdin")
  let tree := (← get).workspace.tree
  let p ← absolute source
  match tree.find? p with
  | some (.file (.bytes bytes) _) => return (← textOf bytes, name)
  | some (.file (.database _) _) => crash Mishap.notText.name
  | _ =>
    let (number, reason) := readFault tree p
    fail ("Cannot read " ++ name ++ ": " ++ Workspace.errnoText number reason name)

def entitiesOf (content name : String) : Action (List Draft) := do
  let batch := Batch.ofText content (some name)
  onWorkspace do
    for m in batch.malformed do
      modify fun (w : Workspace) => { w with logged := Store.malformedEvent m :: w.logged }
    match batch.stopped with
    | some fault => Workspace.mishap (Store.refusal fault)
    | none => return batch.drafts

def ingest (source : Path) (isIncremental : Bool) (start : Option Path) : Action Unit := do
  loadProject start
  let (content, name) ← readSource source
  let records := (← entitiesOf content name).map Record.draft
  let count ← onWorkspace <| Workspace.onStore <|
    if isIncremental then Store.merge records [] else Store.rebuild records
  succeed (Nat.repr count ++ " entities " ++ (if isIncremental then "merged" else "ingested")
    ++ " from " ++ name)

/-! ## Searching -/

def resultColumns : List Column :=
  [{ title := "Score", isRight := true }, { title := "Entity" }, { title := "Location" },
    { title := "Source" }]

def entityLabel (r : Search.Result) : String :=
  r.container ++ "." ++ match r.arity with
    | some arity => r.name.getD "None" ++ "/" ++ Nat.repr arity
    | none => match r.name with
      | none => "?"
      | some "" => "?"
      | some name => name

def resultCells (r : Search.Result) : List String :=
  [Decimal.fixed 1 r.score, entityLabel r, r.path ++ ":" ++ toString r.startLine, r.source.label]

def listResults (results : List Search.Result) : Action Unit := do
  let rows ← results.mapM fun r => (resultCells r).mapM shown
  for line in ({ columns := resultColumns, rows } : Table).lines do
    echo line

def query (q : String) (count : Option Nat) (useFallback isPack isJson : Bool)
    (start : Option Path) : Action Unit := do
  loadProject start
  let limit : Int := count.getD (← settings).search.defaultCount
  if isPack then
    let pack ← onWorkspace (Workspace.pack { query := some q, k := limit } Search.Pack.neighborLimit)
    if isJson then echo (pack.toValue.indentedJson 2)
    else echo (if pack.text == "" then "No entities matched." else pack.text)
  else
    let results ← onWorkspace (Workspace.search q (some limit) (some useFallback))
    if isJson then echo ((Value.list (results.map Search.Result.toValue)).indentedJson 2)
    else if results.isEmpty then say .out ("No results for \x22" ++ q ++ "\x22")
    else listResults results

/-! ## Refreshing -/

def refresh (paths : List Path) (start : Option Path) : Action Unit := do
  loadProject start
  let t ← get
  let place := fun (p : Path) => if p.isAbsolute then p else t.workspace.tree.real (t.here.under p)
  let done ← onWorkspace <|
    if paths.isEmpty then Workspace.rebuild
    else Workspace.update (paths.map fun p => (place p).toString)
  succeed ((if done.isFull then "full" else "incremental") ++ " refresh: "
    ++ Nat.repr done.entities ++ " entities, " ++ Nat.repr done.paths ++ " paths")

/-! ## Status -/

/-- What a daemon says about itself, if it answers well. -/
def daemonStatus : Action (Option Value) := do
  match (← get).daemon with
  | none => return none
  | some reply =>
    if reply.status < 200 || 300 ≤ reply.status then return none
    match Value.ofJson? reply.body with
    | .ok .null => return none
    | .ok v => return some v
    | .error .tooDeep => crash Mishap.nestedTooDeep.name
    | .error _ => return none

/-- The members of a map; anything else cannot be asked for members. -/
def membersOf : Value → Action Value.Members
  | .map m => return m
  | v => crash (Mishap.notAnObject v.typeName).name

def storeLine (s : Store.Status) : String :=
  if !s.connected then "  not available (" ++ s.error.getD "None" ++ "). Run 'cdx build'."
  else if !s.schemaPresent then "  never built. Run 'cdx build'."
  else "  " ++ Nat.repr s.entityCount ++ " entities, " ++ Nat.repr s.edgeCount ++ " edges"

def daemonLine (server : Settings.Server) : Option Value → Action String
  | none => return "Daemon: not running"
  | some v => do
    let scheduler ← membersOf ((Value.Members.get? (← membersOf v) "scheduler").getD (.map []))
    let part := fun (key : String) (default : Value) =>
      ((Value.Members.get? scheduler key).getD default).shown
    return "Daemon: running on " ++ server.host ++ ":" ++ Nat.repr server.port ++ " (scheduler "
      ++ part "state" (.text "unknown") ++ ", " ++ part "cycles" (.int 0) ++ " cycles)"

def status (start : Option Path) (isJson : Bool) : Action Unit := do
  loadProject start
  let store ← onWorkspace Workspace.storeStatus
  let root := (← get).workspace.root.toString
  let daemon ← daemonStatus
  if isJson then
    let state := [("running", .bool daemon.isSome), ("status", daemon.getD .null)]
    echo (Value.map [("root", .text root), ("store", .map store.toMembers), ("daemon", .map state)]).json
  else
    echo ("Project: " ++ root)
    echo ("Index: " ++ store.path)
    echo (storeLine store)
    echo (← daemonLine (← settings).server daemon)

/-! ## Serving -/

def openLog : Log.Target → Action Unit
  | .file p => do
    let tree := (← get).workspace.tree
    if tree.hasFile p.parent then crash "FileExistsError"
    if tree.hasFileAbove p then crash "NotADirectoryError"
    if tree.hasDir p then crash "IsADirectoryError"
    if !tree.hasFile p then
      modify fun t => t.withWorkspace { t.workspace with tree := tree.write p (.bytes []) }
  | _ => return ()

def logTo (setup : Log.Setup) : Action Unit := do
  for o in setup.outputs do
    openLog o.target
  modify fun t => { t with setup }

def serve (s : Served) : Action Unit :=
  modify fun t => { t with served := t.served ++ [s] }

/-- The log of the daemon, which stands beside the store. -/
def logFile (w : Workspace) : Path :=
  w.tree.real (w.storePath.parent.under { root := "", names := [layout.logFile] })

def announce (base name : String) : Service.Action Unit :=
  Service.log .info "endpoint" [("name", .text name), ("url", .text (base ++ "/" ++ name))]

def up (start : Option Path) (port : Option Int) : Action Unit := do
  loadProject start
  let server := (← settings).server
  let port := port.getD server.port
  let base := "http://" ++ server.host ++ ":" ++ toString port
  let w := (← get).workspace
  logTo (.ofSettings w.settings.logging (some (logFile w)) false)
  say .err ("[bold]contextdex[/bold] serving " ++ w.root.toString ++ " on " ++ base)
  onService Service.ensureIndex
  onService do
    modify Service.attach
    Service.publish
    Service.start
    for name in ["mcp", "health", "status"] do
      announce base name
  serve (.http server.host port)
  onService Service.stop

def mcp (start : Option Path) (watches : Bool) : Action Unit := do
  loadProject start
  logTo (.ofSettings (← settings).logging none true)
  onService Service.ensureIndex
  onService do
    Service.publish
    if watches then
      modify Service.attach
      Service.start
    Service.log .info "mcp_server_running"
      [("transport", .text "stdio"), ("watch", .bool watches)]
  serve (.mcp "stdio")
  if watches then onService Service.stop

/-! ## All commands -/

def Command.run : Command → Action Unit
  | .build start => CommandLine.build start
  | .ingest source isIncremental start => CommandLine.ingest source isIncremental start
  | .query q count useFallback isPack isJson start =>
    CommandLine.query q count useFallback isPack isJson start
  | .refresh paths start => CommandLine.refresh paths start
  | .status start isJson => CommandLine.status start isJson
  | .up start port => CommandLine.up start port
  | .mcp start watches => CommandLine.mcp start watches

def Request.run : Request → Action Unit
  | .help g => echo g.usage
  | .version => echo (programName ++ ", version " ++ Service.version)
  | .command c isVerbose => do
    modify fun t => { t with setup := .ofLevel (if isVerbose then "DEBUG" else "WARNING") }
    c.run

def carryOut (arguments : List String) : Action Unit := do
  let t ← get
  match Request.ofArguments { tree := t.workspace.tree, here := t.here } arguments with
  | .ok request => request.run
  | .error refusal => throw (.refusal refusal)

def perform (arguments : List String) (t : Terminal) : Result × Terminal :=
  let (ending, t) := (carryOut arguments).run.run t
  let end? := match ending with
    | .ok () => none
    | .error stop => some stop
  (resultFor end? t, t)

end CodeIndex.CommandLine
