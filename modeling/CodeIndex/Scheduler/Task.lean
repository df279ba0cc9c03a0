import CodeIndex.Scheduler.Machine
import CodeIndex.Watch.Change

/-!
# What tasks do

One turn of a task at each of its stages: from where it has waited to where it waits again or ends.
-/

namespace CodeIndex.Scheduler.Machine

variable {σ : Type}

/-! ## The end of a cycle or a rebuild -/

/-- After a drain the collected paths, if there are any, wait for a quiet time again. -/
def requeue (b : Backend σ) (m : Machine σ) : Machine σ :=
  if m.scheduler.pending.isEmpty then m
  else
    (m.log b .debug "deferred_changes_requeued"
      [("count", .nat m.scheduler.pending.length)]).restartQuiet

/-- Applies deferred events in order: changed paths are collected, deleted ones are purged.  A purge
interrupts the drain; without a worker nothing is purged. -/
def drain (b : Backend σ) (id : TaskId) (ending : Ending) :
    List (String × Operation) → Machine σ → Machine σ
  | [], m => (m.requeue b).finish id ending.outcome
  | (path, .change) :: rest, m => drain b id ending rest (m.update (·.collect path))
  | (path, .delete) :: rest, m =>
    if m.scheduler.hasWorker then m.submit id (.drained path rest ending) (.purge path)
    else drain b id ending rest m

/-- Ends a cycle or a rebuild and drains what was deferred meanwhile. -/
def conclude (b : Backend σ) (id : TaskId) (ending : Ending) (m : Machine σ) : Machine σ :=
  drain b id ending m.scheduler.deferred (m.update Scheduler.conclude)

/-! ## Cycles -/

def isExtraction : Failure → Bool
  | .extractorFailed .. => true
  | .templateUnreadable .. => true
  | _ => false

def cycleFailed (b : Backend σ) (id : TaskId) (batch : List String) (t : Trouble) (m : Machine σ) :
    Machine σ :=
  let m := m.update (·.note t.toString)
  let general := fun (_ : Unit) => m.log b .error "merge_cycle_failed"
    [("paths", .nat batch.length), ("error", .text t.toString)]
  let m := match t with
    | .failure f =>
      if isExtraction f then
        m.log b .warning "extraction_failed"
          [("paths", .nat batch.length), ("error", .text f.message)]
      else general ()
    | .mishap _ => general ()
  m.conclude b id .cycle

/-- The extractor answers a cycle: its entities are to be merged. -/
def cycleAnswered (b : Backend σ) (id : TaskId) (batch : List String) (m : Machine σ) : Machine σ :=
  let (answer, world) := b.answer (.paths batch) m.world
  let m : Machine σ := { m with world }
  match answer with
  | .ok entities => m.submit id (.cycleMerged batch) (.merge entities batch)
  | .error t => m.cycleFailed b id batch t

def cycleMerged (b : Backend σ) (id : TaskId) (batch : List String)
    (result : Option (Except Trouble Nat)) (m : Machine σ) : Machine σ :=
  match result with
  | some (.ok count) =>
    let m := (m.update (·.succeed count)).log b .info "merge_cycle_completed"
      [("paths", .nat batch.length), ("entities", .nat count)]
    m.conclude b id .cycle
  | some (.error t) => m.cycleFailed b id batch t
  | none => m.conclude b id .cycle

def batchOf (pending : List String) : List String :=
  pending.mergeSort fun a b => a ≤ b

/-- Begins a cycle, if paths are collected and nothing is under way. -/
def beginCycle (b : Backend σ) (id : TaskId) (m : Machine σ) : Machine σ :=
  let s := m.scheduler
  if !s.accepts || s.pending.isEmpty || s.isBusy then m.finish id .nothing
  else
    let batch := batchOf s.pending
    let m := (m.update Scheduler.begin).log b .info "merge_cycle_started"
      [("paths", .nat batch.length)]
    let m : Machine σ := { m with world := b.ask (.paths batch) m.world }
    if b.isOpen m.world then m.cycleAnswered b id batch
    else m.suspend id (.cycleAnswered batch) .answer

/-! ## Full rebuilds -/

def pollTime : Nat := 10

def rebuildStored (b : Backend σ) (id : TaskId) (result : Option (Except Trouble Nat))
    (m : Machine σ) : Machine σ :=
  match result with
  | some (.ok count) => (m.update (·.succeed count)).conclude b id (.rebuild (.ok count))
  | some (.error t) => (m.update (·.note t.toString)).conclude b id (.rebuild (.error t))
  | none => m.conclude b id (.rebuild (.ok 0))

/-- The extractor answers a rebuild: its entities are to replace the store's. -/
def rebuildAnswered (b : Backend σ) (id : TaskId) (m : Machine σ) : Machine σ :=
  let (answer, world) := b.answer .all m.world
  let m : Machine σ := { m with world }
  match answer with
  | .ok entities => m.submit id .rebuildStored (.rebuild entities)
  | .error t => m.rebuildStored b id (some (.error t))

/-- Begins a full rebuild, or waits for the end of what is under way. -/
def beginRebuild (b : Backend σ) (id : TaskId) (m : Machine σ) : Machine σ :=
  if m.scheduler.isBusy then
    match m.liveOf m.cycle with
    | some cycle => m.awaitEnds id .rebuild [cycle]
    | none => m.sleep id .rebuild pollTime
  else
    let m := (m.update Scheduler.begin).log b .info "full_rebuild_started" []
    let m : Machine σ := { m with world := b.ask .all m.world }
    if b.isOpen m.world then m.rebuildAnswered b id else m.suspend id .rebuildAnswered .answer

/-! ## Notices -/

def settled (b : Backend σ) (m : Machine σ) : Notice → Notice
  | .either path =>
    if b.has (m.root.under (Path.ofString (Path.key m.root path))) m.world then .change path
    else .delete path
  | n => n

/-- Gives notices in order, up to the first deletion that has to be purged: its key and the notices
after it. -/
def notify (b : Backend σ) : List Notice → Machine σ → Machine σ × Option (String × List Notice)
  | [], m => (m, none)
  | n :: rest, m =>
    match m.settled b n with
    | .delete path =>
      let key := Path.key m.root path
      if m.scheduler.isBusy then notify b rest (m.deferDelete b key)
      else if m.scheduler.hasWorker then (m, some (key, rest))
      else notify b rest m
    | .change path => notify b rest (m.noteChange b path)
    | .either _ => notify b rest m

/-! ## The watcher -/

def backoffTime : Nat := 1000

/-- The notices for a batch: deletions first. -/
def noticesOf (batch : Watch.Batch) : List Notice :=
  batch.deleted.map (fun p => .delete p.toString) ++ batch.changed.map (fun p => .change p.toString)

/-- Sees to messages of the watcher, up to one after which it has to wait. -/
def watchFrom (b : Backend σ) (id : TaskId) : List Message → Machine σ → Machine σ
  | [], m => { m with inbox := [] }.suspend id .watch .message
  | .broken reason :: rest, m =>
    let m : Machine σ := { m with inbox := rest }.log b .error "watcher_error" [("error", .text reason)]
    m.sleep id .watch backoffTime
  | .changes paths :: rest, m =>
    let m : Machine σ := { m with inbox := rest }
    let batch := Watch.Batch.ofPaths (b.isFile · m.world) (b.has · m.world) paths
    if batch.paths.isEmpty then watchFrom b id rest m
    else
      let m := m.log b .info "changes_detected"
        [("count", .nat batch.paths.length), ("summary", .text (Watch.summary batch.paths)),
         ("deleted", .nat batch.deleted.length)]
      match m.notify b (noticesOf batch) with
      | (m, none) => watchFrom b id rest m
      | (m, some (key, todo)) => m.submit id (.purged key todo .watch) (.purge key)

def giveNotices (b : Backend σ) (id : TaskId) (todo : List Notice) (follow : Follow)
    (m : Machine σ) : Machine σ :=
  match m.notify b todo with
  | (m, some (key, rest)) => m.submit id (.purged key rest follow) (.purge key)
  | (m, none) =>
    match follow with
    | .finish => m.finish id .nothing
    | .watch => watchFrom b id m.inbox m

def unwatched (b : Backend σ) (id : TaskId) (m : Machine σ) : Machine σ :=
  ({ m with watcher := none }.log b .info "file_watcher_stopped" []).finish id .nothing

def unwatch (b : Backend σ) (id : TaskId) (m : Machine σ) : Machine σ :=
  match m.liveOf (m.watcher.map Watcher.task) with
  | some task => (m.cancel task).awaitEnds id .unwatched [task]
  | none => m.unwatched b id

/-! ## Stopping and waiting -/

/-- Ends the worker, which first does all its jobs. -/
def stopWorker (b : Backend σ) (id : TaskId) (m : Machine σ) : Machine σ :=
  let m := if m.scheduler.hasWorker then m.performAll b else m
  let m := m.update fun s => { s with hasWorker := false, phase := .stopped }
  (m.log b .info "watch_scheduler_stopped" [("cycles", .nat m.scheduler.cycles)]).finish id .nothing

def stopCycle (b : Backend σ) (id : TaskId) (m : Machine σ) : Machine σ :=
  match m.liveOf m.cycle with
  | some cycle => m.awaitEnds id .stopCycle [cycle]
  | none => m.stopWorker b id

/-- Begins to stop: no cycle begins any more, and no quiet time is waited for. -/
def beginStop (b : Backend σ) (id : TaskId) (m : Machine σ) : Machine σ :=
  let m := m.update fun s => { s with phase := .stopping }
  match m.liveOf m.quiet with
  | some quiet => (m.cancel quiet).awaitEnds id .stopQuiet [quiet]
  | none => m.stopCycle b id

def isIdle (m : Machine σ) : Bool :=
  (m.liveOf m.quiet).isNone && (m.liveOf m.cycle).isNone && !m.scheduler.isBusy
    && m.scheduler.pending.isEmpty && m.scheduler.deferred.isEmpty

/-- Looks whether nothing is left to do, and waits otherwise: for the quiet time and the cycle if one of
them is live, otherwise for a moment. -/
def awaitIdle (id : TaskId) (deadline : Nat) (m : Machine σ) : Machine σ :=
  if m.isIdle then m.finish id (.flag true)
  else if deadline ≤ m.now then m.finish id (.flag false)
  else
    match (m.liveOf m.quiet).toList ++ (m.liveOf m.cycle).toList with
    | [] => m.sleep id (.idle deadline) pollTime
    | ids =>
      let m := m.awaitEnds id (.idle deadline) ids
      { m with timers := m.timers ++ [{ due := deadline, task := id }] }

/-! ## Turns -/

/-- The quiet time begins; one of no length is over at the next turn. -/
def beginQuiet (id : TaskId) (m : Machine σ) : Machine σ :=
  if m.quietTime == 0 then m.yield id .quietOver else m.sleep id .quietOver m.quietTime

/-- The quiet time is over: a cycle follows as a task of its own. -/
def endQuiet (id : TaskId) (m : Machine σ) : Machine σ :=
  { (m.spawn .cycle) with cycle := some m.created }.finish id .nothing

def endsEarly : Stage → Bool
  | .quiet => true
  | .quietOver => true
  | .watch => true
  | .purged _ _ .watch => true
  | _ => false

/-- A task goes on from a stage, with the result of the job that it waited for. -/
def continueFrom (b : Backend σ) (id : TaskId) (result : Option (Except Trouble Nat)) (m : Machine σ) :
    Stage → Machine σ
  | .quiet => m.beginQuiet id
  | .quietOver => m.endQuiet id
  | .cycle => m.beginCycle b id
  | .cycleAnswered batch => m.cycleAnswered b id batch
  | .cycleMerged batch => m.cycleMerged b id batch result
  | .rebuild => m.beginRebuild b id
  | .rebuildAnswered => m.rebuildAnswered b id
  | .rebuildStored => m.rebuildStored b id result
  | .drained path rest ending => drain b id ending rest (m.notePurge b path result)
  | .notices todo follow => m.giveNotices b id todo follow
  | .purged path todo follow => (m.notePurge b path result).giveNotices b id todo follow
  | .stop => m.beginStop b id
  | .stopQuiet => m.stopCycle b id
  | .stopCycle => m.stopWorker b id
  | .idle deadline => m.awaitIdle id deadline
  | .watch => watchFrom b id m.inbox m
  | .unwatch => m.unwatch b id
  | .unwatched => m.unwatched b id

def take (b : Backend σ) (turn : Turn) (m : Machine σ) : Machine σ :=
  match m.task? turn.task with
  | none => m
  | some t =>
    if t.isCancelled && endsEarly t.stage then m.finish t.id .nothing
    else continueFrom b t.id turn.result m t.stage

end CodeIndex.Scheduler.Machine
