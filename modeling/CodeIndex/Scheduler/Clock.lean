import CodeIndex.Scheduler.Task

/-!
# Running the machine

Tasks take their turns in order; when none is left to take, the worker does the next job.  The clock moves
only when neither a turn nor a job is left, and then to the next timer.
-/

namespace CodeIndex.Scheduler.Machine

variable {σ : Type}

/-- One step: the next turn, or else the next job; nothing if there is neither. -/
def step? (b : Backend σ) (m : Machine σ) : Option (Machine σ) :=
  match m.turns with
  | turn :: rest => some ({ m with turns := rest }.take b turn)
  | [] =>
    match m.jobs with
    | job :: rest => some ({ m with jobs := rest }.perform b job)
    | [] => none

def steps (b : Backend σ) : Nat → Machine σ → Machine σ
  | 0, m => m
  | fuel + 1, m =>
    match m.step? b with
    | some m => steps b fuel m
    | none => m

/-- How many steps the machine takes without the clock moving. -/
def stepLimit : Nat := 1000000

/-- Everything that can happen without the clock moving. -/
def settle (b : Backend σ) (m : Machine σ) : Machine σ :=
  m.steps b stepLimit

def nextDue? (m : Machine σ) : Option Nat :=
  (m.timers.map Timer.due).min?

/-- Moves the clock to a time and wakes the tasks whose timers fire then. -/
def fire (due : Nat) (m : Machine σ) : Machine σ :=
  (m.timers.filter (·.due ≤ due)).foldl (fun m timer => m.wake timer.task none) { m with now := due }

/-- Moves the clock from timer to timer, up to a time and at most so often, until a condition holds. -/
def run (b : Backend σ) (target : Nat) (until? : Machine σ → Bool) : Nat → Machine σ → Machine σ
  | 0, m => m
  | fuel + 1, m =>
    if until? m then m
    else
      match m.nextDue? with
      | none => m
      | some due =>
        if due ≤ target then run b target until? fuel ((m.fire due).settle b) else m

def advance (b : Backend σ) (time : Nat) (m : Machine σ) : Machine σ :=
  let m := m.settle b
  let target := m.now + time
  { (run b target (fun _ => false) (time + 1) m) with now := target }

def outcome? (m : Machine σ) (id : TaskId) : Option Outcome :=
  m.outcomes.lookup id

/-- Starts a task and lets everything happen that can without the clock moving. -/
def begin (b : Backend σ) (stage : Stage) (m : Machine σ) : Machine σ :=
  (m.spawn stage).settle b

/-- Starts a task and moves the clock until it has ended, for at most a time. -/
def complete (b : Backend σ) (time : Nat) (stage : Stage) (m : Machine σ) : Machine σ × Option Outcome :=
  let id := m.created
  let m := run b (m.now + time) (fun m => !m.isLive id) (time + 1) (m.begin b stage)
  (m, m.outcome? id)

/-! ## Calls that take no time -/

def start (b : Backend σ) (m : Machine σ) : Machine σ :=
  if m.scheduler.hasWorker then m
  else
    (m.update fun s => { s with hasWorker := true, phase := .idle }).log b .info
      "watch_scheduler_started" [("debounce_sec", .float m.quietSeconds)]

/-- Starts the watcher, unless there is one. -/
def startWatcher (b : Backend σ) (filter : Watch.Filter) (started : Value.Members) (m : Machine σ) :
    Machine σ :=
  if m.watcher.isSome then m
  else
    { (m.spawn .watch) with watcher := some { task := m.created, filter } }.log b .info
      "file_watcher_started" started

def isWatching (m : Machine σ) : Bool :=
  (m.liveOf (m.watcher.map Watcher.task)).isSome

def report (message : Message) (m : Machine σ) : Machine σ :=
  match m.liveOf (m.watcher.map Watcher.task) with
  | none => m
  | some id =>
    let m : Machine σ := { m with inbox := m.inbox ++ [message] }
    if (m.task? id).any (·.wait == .message) then m.wake id none else m

def reportChanges (paths : List String) (m : Machine σ) : Machine σ :=
  match m.watcher with
  | none => m
  | some w =>
    match paths.filter w.filter.accepts with
    | [] => m
    | paths => m.report (.changes paths)

/-- The extractor can answer again: the tasks that wait for it take their turns. -/
def reopen (m : Machine σ) : Machine σ :=
  (m.tasks.filter (·.wait == .answer)).foldl (fun m t => m.wake t.id none) m

end CodeIndex.Scheduler.Machine
