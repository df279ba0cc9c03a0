import CodeIndex.Value.Basic

/-!
# The scheduler's memory

Changed paths are collected until a quiet time has passed and are then extracted together: a cycle.  While
a cycle or a full rebuild is under way, what happens to a path is deferred, the last event of a path
replacing those before it.
-/

namespace CodeIndex

inductive Scheduler.Phase where
  | idle
  | rebuilding
  | stopping
  | stopped
  deriving Repr, DecidableEq, Inhabited

def Scheduler.Phase.label : Phase → String
  | .idle => "idle"
  | .rebuilding => "rebuilding"
  | .stopping => "stopping"
  | .stopped => "stopped"

inductive Scheduler.Operation where
  | change
  | delete
  deriving Repr, DecidableEq, Inhabited

def Scheduler.Operation.label : Operation → String
  | .change => "change"
  | .delete => "delete"

structure Scheduler where
  phase : Scheduler.Phase := .stopped
  /-- Whether there is a worker for changes of the store. -/
  hasWorker : Bool := false
  /-- The changed paths that the next cycle takes, without repeats. -/
  pending : List String := []
  /-- What happened to paths during a cycle or a rebuild, in order of their first event. -/
  deferred : List (String × Scheduler.Operation) := []
  /-- Whether a cycle or a rebuild is under way. -/
  isBusy : Bool := false
  /-- The number of cycles and rebuilds that have ended. -/
  cycles : Nat := 0
  lastCount : Option Nat := none
  lastError : Option String := none
  deriving Repr, DecidableEq, Inhabited

namespace Scheduler

def accepts (s : Scheduler) : Bool :=
  s.hasWorker && s.phase != .stopping && s.phase != .stopped

def collect (s : Scheduler) (path : String) : Scheduler :=
  { s with pending := if s.pending.contains path then s.pending else s.pending ++ [path] }

/-- Deferred events with one more: it takes the place of an earlier one of its path. -/
def deferIn (deferred : List (String × Operation)) (path : String) (op : Operation) :
    List (String × Operation) :=
  match deferred with
  | [] => [(path, op)]
  | (p, o) :: rest => if p == path then (path, op) :: rest else (p, o) :: deferIn rest path op

def defer (s : Scheduler) (path : String) (op : Operation) : Scheduler :=
  { s with deferred := deferIn s.deferred path op }

/-- A cycle or a rebuild begins; it takes all collected paths. -/
def begin (s : Scheduler) : Scheduler :=
  { s with pending := [], isBusy := true, phase := .rebuilding }

/-- A cycle or a rebuild ends; what was deferred is handed out. -/
def conclude (s : Scheduler) : Scheduler :=
  { s with
    isBusy := false
    cycles := s.cycles + 1
    phase := if s.phase == .rebuilding then .idle else s.phase
    deferred := [] }

def succeed (s : Scheduler) (count : Nat) : Scheduler :=
  { s with lastCount := some count, lastError := none }

def note (s : Scheduler) (error : String) : Scheduler :=
  { s with lastError := some error }

def toMembers (s : Scheduler) : Value.Members :=
  [("state", .text s.phase.label), ("active_rebuild", .bool s.isBusy),
   ("pending", .nat s.pending.length), ("secondary", .nat s.deferred.length),
   ("cycles", .nat s.cycles), ("last_count", .ofInt? (s.lastCount.map Int.ofNat)),
   ("last_error", .ofText? s.lastError)]

end Scheduler

end CodeIndex
