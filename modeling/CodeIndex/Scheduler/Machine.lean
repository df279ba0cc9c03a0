import CodeIndex.Failure.Basic
import CodeIndex.Log.Event
import CodeIndex.Path
import CodeIndex.Record.Batch
import CodeIndex.Scheduler.Basic
import CodeIndex.Watch.Filter

/-!
# The scheduler's machine

The scheduler's work is done by tasks.  A task runs without interruption until it has to wait: for its
turn, for a timer, for the extractor, for a change of the store, or for the end of other tasks.  Changes
of the store are jobs of a single worker, which does them one after another in the order in which they
were handed in.

The machine holds all tasks with what they wait for.  It knows the outside only through a `Backend`: files,
extractor, store and log of some world.
-/

namespace CodeIndex.Scheduler

inductive Scan where
  /-- All files of the project. -/
  | all
  | paths (keys : List String)
  deriving Repr, DecidableEq, Inhabited

inductive Work where
  | merge (entities : List Record) (paths : List String)
  | rebuild (entities : List Record)
  | purge (path : String)

/-- What the scheduler needs of a world: its log, its files, its extractor and its store. -/
structure Backend (σ : Type) where
  log : Log.Event → σ → σ
  /-- Whether a path leads to a file. -/
  isFile : Path → σ → Bool
  /-- Whether a path leads to anything. -/
  has : Path → σ → Bool
  /-- Asks the extractor. -/
  ask : Scan → σ → σ
  /-- Whether the extractor answers at once. -/
  isOpen : σ → Bool
  /-- The extractor's answer. -/
  answer : Scan → σ → Except Trouble (List Record) × σ
  /-- Changes the store; the result is the number of entities written or removed. -/
  perform : Work → σ → Except Trouble Nat × σ

abbrev TaskId := Nat

inductive Notice where
  | change (path : String)
  | delete (path : String)
  /-- A change if the path leads to something, otherwise a deletion. -/
  | either (path : String)
  deriving Repr, DecidableEq, Inhabited

inductive Follow where
  | finish
  | watch
  deriving Repr, DecidableEq, Inhabited

/-- What ends with a drain: a cycle, or a rebuild with its result. -/
inductive Ending where
  | cycle
  | rebuild (result : Except Trouble Nat)

inductive Stage where
  /-- To wait for the quiet time. -/
  | quiet
  /-- The quiet time is over. -/
  | quietOver
  /-- To begin a cycle. -/
  | cycle
  /-- The extractor answers a cycle. -/
  | cycleAnswered (batch : List String)
  /-- The entities of a cycle are merged. -/
  | cycleMerged (batch : List String)
  /-- To begin a full rebuild. -/
  | rebuild
  | rebuildAnswered
  | rebuildStored
  /-- A deferred deletion is purged; `rest` is still deferred. -/
  | drained (path : String) (rest : List (String × Operation)) (ending : Ending)
  /-- To give notices. -/
  | notices (todo : List Notice) (follow : Follow)
  /-- A deletion is purged; `todo` are further notices. -/
  | purged (path : String) (todo : List Notice) (follow : Follow)
  /-- To stop the scheduler. -/
  | stop
  /-- No quiet time is waited for any more. -/
  | stopQuiet
  /-- No cycle runs any more. -/
  | stopCycle
  /-- To wait until nothing is left to do, or until the deadline. -/
  | idle (deadline : Nat)
  /-- To wait for the next message of the watcher. -/
  | watch
  /-- To stop the watcher. -/
  | unwatch
  /-- The watcher has stopped. -/
  | unwatched

inductive Wait where
  /-- Its turn. -/
  | turn
  /-- Its timer. -/
  | timer
  /-- The extractor's answer. -/
  | answer
  /-- Its job. -/
  | job
  /-- The end of all of these tasks, or its timer. -/
  | ends (tasks : List TaskId)
  /-- A message of the watcher. -/
  | message
  deriving Repr, DecidableEq, Inhabited

structure Task where
  id : TaskId
  stage : Stage
  wait : Wait
  /-- Whether the task is to end at its next turn. -/
  isCancelled : Bool := false

def Task.told (ended : TaskId) (t : Task) : Task :=
  match t.wait with
  | .ends ids => { t with wait := .ends (ids.filter (· != ended)) }
  | _ => t

/-- Whether a task has nothing left to wait for. -/
def Task.isFree (t : Task) : Bool :=
  t.wait == .ends []

inductive Outcome where
  | nothing
  | count (n : Nat)
  | flag (b : Bool)
  | trouble (t : Trouble)

def Ending.outcome : Ending → Outcome
  | .cycle => .nothing
  | .rebuild (.ok n) => .count n
  | .rebuild (.error t) => .trouble t

/-- A task's turn, with the result of the job that it waited for. -/
structure Turn where
  task : TaskId
  result : Option (Except Trouble Nat) := none

structure Job where
  task : TaskId
  work : Work

structure Timer where
  due : Nat
  task : TaskId
  deriving Repr, DecidableEq

inductive Message where
  | changes (paths : List String)
  | broken (reason : String)
  deriving Repr, DecidableEq, Inhabited

/-- The watcher: its task and what it reports. -/
structure Watcher where
  task : TaskId
  filter : Watch.Filter

/-- The machine.  Times are in milliseconds. -/
structure Machine (σ : Type) where
  world : σ
  root : Path
  /-- The quiet time in seconds, as it is logged. -/
  quietSeconds : Float := 0.5
  /-- The quiet time before a cycle. -/
  quietTime : Nat := 500
  scheduler : Scheduler := {}
  /-- The last task that waits for the quiet time, and the last cycle. -/
  quiet : Option TaskId := none
  cycle : Option TaskId := none
  watcher : Option Watcher := none
  inbox : List Message := []
  now : Nat := 0
  /-- The live tasks, by the time since which they wait. -/
  tasks : List Task := []
  turns : List Turn := []
  jobs : List Job := []
  timers : List Timer := []
  /-- The number of tasks so far. -/
  created : Nat := 0
  /-- What became of the tasks that have ended. -/
  outcomes : List (TaskId × Outcome) := []

namespace Machine

variable {σ : Type}

def log (b : Backend σ) (level : Log.Level) (name : String) (members : Value.Members)
    (m : Machine σ) : Machine σ :=
  { m with world := b.log { level, name, members } m.world }

/-- The machine after a change of the scheduler's memory. -/
def update (f : Scheduler → Scheduler) (m : Machine σ) : Machine σ :=
  { m with scheduler := f m.scheduler }

/-! ## Tasks -/

def task? (m : Machine σ) (id : TaskId) : Option Task :=
  m.tasks.find? (·.id == id)

def isLive (m : Machine σ) (id : TaskId) : Bool :=
  (m.task? id).isSome

/-- Starts a task; it takes its turn after all that wait for theirs. -/
def spawn (stage : Stage) (m : Machine σ) : Machine σ :=
  { m with
    tasks := m.tasks ++ [{ id := m.created, stage, wait := .turn }]
    turns := m.turns ++ [{ task := m.created }]
    created := m.created + 1 }

def suspend (id : TaskId) (stage : Stage) (wait : Wait) (m : Machine σ) : Machine σ :=
  let isCancelled := (m.task? id).any (·.isCancelled)
  { m with tasks := m.tasks.filter (·.id != id) ++ [{ id, stage, wait, isCancelled }] }

def sleep (id : TaskId) (stage : Stage) (time : Nat) (m : Machine σ) : Machine σ :=
  { (m.suspend id stage .timer) with timers := m.timers ++ [{ due := m.now + time, task := id }] }

def yield (id : TaskId) (stage : Stage) (m : Machine σ) : Machine σ :=
  { (m.suspend id stage .turn) with turns := m.turns ++ [{ task := id }] }

def submit (id : TaskId) (stage : Stage) (work : Work) (m : Machine σ) : Machine σ :=
  { (m.suspend id stage .job) with jobs := m.jobs ++ [{ task := id, work }] }

def wake (id : TaskId) (result : Option (Except Trouble Nat)) (m : Machine σ) : Machine σ :=
  { m with
    tasks := m.tasks.map fun t => if t.id == id then { t with wait := .turn } else t
    turns := m.turns ++ [{ task := id, result }]
    timers := m.timers.filter (·.task != id) }

/-- Ends a task; those that waited for its end and for no other take their turns. -/
def finish (id : TaskId) (outcome : Outcome) (m : Machine σ) : Machine σ :=
  let m : Machine σ := { m with
    tasks := (m.tasks.filter (·.id != id)).map (Task.told id)
    outcomes := m.outcomes ++ [(id, outcome)] }
  (m.tasks.filter Task.isFree).foldl (fun m t => m.wake t.id none) m

def awaitEnds (id : TaskId) (stage : Stage) (ids : List TaskId) (m : Machine σ) : Machine σ :=
  m.suspend id stage (.ends ids)

/-- Makes a task end at its next turn, which comes now. -/
def cancel (id : TaskId) (m : Machine σ) : Machine σ :=
  match m.task? id with
  | none => m
  | some t =>
    let m : Machine σ := { m with
      tasks := m.tasks.map fun t => if t.id == id then { t with isCancelled := true } else t }
    if t.wait == .turn then m else m.wake id none

/-- The one of the scheduler's own tasks that is still live. -/
def liveOf (m : Machine σ) (id : Option TaskId) : Option TaskId :=
  id.filter m.isLive

/-! ## The quiet time -/

def restartQuiet (m : Machine σ) : Machine σ :=
  if !m.scheduler.accepts then m
  else
    let m := match m.liveOf m.quiet with
      | some id => m.cancel id
      | none => m
    { (m.spawn .quiet) with quiet := some m.created }

/-- A path has changed: it is deferred during a cycle or a rebuild and collected otherwise. -/
def noteChange (b : Backend σ) (path : String) (m : Machine σ) : Machine σ :=
  let key := Path.key m.root path
  if m.scheduler.isBusy then
    let m := m.update (·.defer key .change)
    m.log b .debug "change_deferred"
      [("path", .text key), ("secondary", .nat m.scheduler.deferred.length)]
  else (m.update (·.collect key)).restartQuiet

def deferDelete (b : Backend σ) (key : String) (m : Machine σ) : Machine σ :=
  let m := m.update (·.defer key .delete)
  m.log b .debug "delete_deferred"
    [("path", .text key), ("secondary", .nat m.scheduler.deferred.length)]

def notePurge (b : Backend σ) (path : String) (result : Option (Except Trouble Nat))
    (m : Machine σ) : Machine σ :=
  match result with
  | some (.ok removed) =>
    m.log b .info "path_deleted" [("path", .text path), ("removed", .nat removed)]
  | some (.error t) =>
    (m.update (·.note t.toString)).log b .error "purge_failed"
      [("path", .text path), ("error", .text t.toString)]
  | none => m

/-! ## Jobs -/

/-- Does a job; its task takes its turn with the result. -/
def perform (b : Backend σ) (job : Job) (m : Machine σ) : Machine σ :=
  let (result, world) := b.perform job.work m.world
  { m with world }.wake job.task (some result)

def performAll (b : Backend σ) (m : Machine σ) : Machine σ :=
  m.jobs.foldl (fun m job => m.perform b job) { m with jobs := [] }

end Machine

end CodeIndex.Scheduler
