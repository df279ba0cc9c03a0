import CodeIndex.Scheduler.Clock
import CodeIndex.Watch.Mount
import CodeIndex.Workspace.Extraction

/-!
# Services

A workspace that is served: the scheduler keeps its index up to date while a watcher reports changes.
As long as the scheduler is attached, refreshes that callers ask for go through it.
-/

namespace CodeIndex

namespace Workspace

/-- The result of a step on a workspace, and the workspace after it. -/
def perform {α : Type} (act : Action α) (w : Workspace) : Except Trouble α × Workspace :=
  act.run.run w

def scan (s : Scheduler.Scan) : Action (List Record) := do
  let entities ← match s with
    | .all => extractAll
    | .paths keys => extract keys
  return entities.map .draft

def work : Scheduler.Work → Action Nat
  | .merge records paths => onStore (Store.merge records (paths.map .whole))
  | .rebuild records => onStore (Store.rebuild records)
  | .purge path => onStore (Store.purge path)

/-- A workspace as the scheduler sees it; its extractor answers at once. -/
def backend : Scheduler.Backend Workspace :=
  { log := fun e w => { w with logged := e :: w.logged }
    isFile := fun p w => w.tree.hasFile p
    has := fun p w => w.tree.has p
    ask := fun _ w => w
    isOpen := fun _ => true
    answer := fun s w => perform (scan s) w
    perform := fun job w => perform (work job) w }

end Workspace

structure Service where
  machine : Scheduler.Machine Workspace
  /-- Whether callers' refreshes go through the scheduler. -/
  isAttached : Bool := false
  isShutDown : Bool := false
  /-- The identity of the call that is being answered, if there is one. -/
  requestId : Option String := none
  /-- The least level of the events that are written; the log has the others all the same. -/
  logLevel : Log.Level := .debug

namespace Service

abbrev Action (α : Type) := ExceptT Trouble (StateM Service) α

/-- A time in seconds in whole milliseconds. -/
def millis (seconds : Float) : Nat :=
  ((Decimal.truncate? (seconds * 1000.0)).getD 0).toNat

/-- The machine of a workspace whose scheduler was never started. -/
def machineOf (w : Workspace) : Scheduler.Machine Workspace :=
  { world := w, root := w.root, quietSeconds := w.settings.watcher.debounce
    quietTime := millis w.settings.watcher.debounce }

/-- The service of a workspace, without a scheduler at work. -/
def ofWorkspace (w : Workspace) : Service :=
  { machine := machineOf w }

def workspace (s : Service) : Workspace :=
  s.machine.world

def withWorkspace (s : Service) (w : Workspace) : Service :=
  { s with machine := { s.machine with world := w } }

/-- What a step comes to; this never ends early. -/
def attempt {α : Type} (act : Action α) : Action (Except Trouble α) :=
  ExceptT.lift act.run

def onWorkspace {α : Type} (act : Workspace.Action α) : Action α := do
  let s ← get
  let (result, w) := Workspace.perform act s.workspace
  set (s.withWorkspace w)
  match result with
  | .ok a => return a
  | .error t => throw t

def writes (s : Service) (level : Log.Level) : Bool :=
  s.logLevel.number ≤ level.number

def log (level : Log.Level) (name : String) (members : Value.Members) : Action Unit :=
  onWorkspace (Workspace.log level name members)

def setRequestId (id : String) : Action Unit :=
  modify fun s => { s with requestId := some id }

def clearRequestId : Action Unit :=
  modify fun s => { s with requestId := none }

def onMachine (f : Scheduler.Machine Workspace → Scheduler.Machine Workspace) : Action Unit :=
  modify fun s => { s with machine := f s.machine }

/-- How long a caller waits at most, in milliseconds. -/
def patience : Nat := 3600000

def complete (stage : Scheduler.Stage) : Action Scheduler.Outcome := do
  let s ← get
  let (machine, outcome) := s.machine.complete Workspace.backend patience stage
  set { s with machine }
  match outcome with
  | some (.trouble t) => throw t
  | some outcome => return outcome
  | none => return .nothing

/-! ## The scheduler of a service -/

/-- The service with a new scheduler, attached and not yet started. -/
def attach (s : Service) : Service :=
  { machine := machineOf s.workspace, isAttached := true, requestId := s.requestId, logLevel := s.logLevel }

def watchFilter (s : Settings.Index) : Watch.Filter :=
  { extensions := s.extensions, excludedDirs := s.excludedDirs }

def watchMode (w : Workspace) : Value.Members :=
  let isRemote := Watch.isRemote w.root
  [("repo_root", .text w.root.toString), ("mode", .text (if isRemote then "polling" else "native")),
   ("interval", if isRemote then .float w.settings.watcher.pollInterval else .null)]

def start : Action Unit := do
  let w := (← get).workspace
  log .info "server_starting" [("repo_root", .text w.root.toString)]
  onMachine fun m => m.start Workspace.backend
  onMachine fun m => m.startWatcher Workspace.backend (watchFilter w.settings.index) (watchMode w)
  onMachine fun m => m.settle Workspace.backend
  log .info "server_started" []

/-- Stops the watcher and then the scheduler, which is detached. -/
def stop : Action Unit := do
  log .info "server_stopping" []
  discard <| complete .unwatch
  discard <| complete .stop
  modify fun s => { s with isAttached := false, isShutDown := true }
  log .info "server_stopped" []

/-- Builds the index of a workspace that has none. -/
def ensureIndex : Action Unit := do
  let status ← onWorkspace Workspace.storeStatus
  if !status.schemaPresent then
    log .info "index_missing_building" [("db_path", .text status.path)]
    discard <| onWorkspace Workspace.rebuild

/-- Waits until the scheduler has nothing left to do, for at most so many milliseconds. -/
def awaitIdle (time : Nat) : Action Bool := do
  let now := (← get).machine.now
  match ← complete (.idle (now + time)) with
  | .flag b => return b
  | _ => return false

/-- Sees to paths that have changed: the batch that they make, which is logged. -/
def noteBatch (paths : List String) : Action Watch.Batch := do
  let tree := (← get).workspace.tree
  let batch := Watch.Batch.ofPaths tree.hasFile tree.has paths
  if !batch.paths.isEmpty then
    log .info "changes_detected"
      [("count", .nat batch.paths.length), ("summary", .text (Watch.summary batch.paths)),
       ("deleted", .nat batch.deleted.length)]
  return batch

def toMembers (s : Service) : Value.Members :=
  let index := s.workspace.settings.index
  [("accepting", .bool s.machine.scheduler.accepts), ("watching", .bool s.machine.isWatching),
   ("attached", .bool s.isAttached), ("shutdown", .bool s.isShutDown),
   ("extensions", .texts index.extensions), ("excluded_dirs", .texts index.excludedDirs),
   ("scheduler", .map s.machine.scheduler.toMembers)]

end Service

end CodeIndex
