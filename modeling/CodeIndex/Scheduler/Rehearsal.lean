import CodeIndex.Service.Basic

/-!
# Rehearsals

A world to try the scheduler in: its store is that of a workspace, and its extractor answers from a
table, once a gate is open.  The extractor can be made to fail once.
-/

namespace CodeIndex.Scheduler

structure Rehearsal where
  workspace : Workspace
  /-- The records of each path, in the order in which a full scan gives them. -/
  table : List (String × List Record) := []
  /-- Whether the extractor answers at once. -/
  isOpen : Bool := true
  /-- What the next answer is instead of records. -/
  failure : Option Trouble := none
  /-- What the extractor was asked for, the last first. -/
  asked : List Scan := []

namespace Rehearsal

/-- The table after the records of a path were set: in place where the path is known. -/
def setRecords (table : List (String × List Record)) (path : String) (records : List Record) :
    List (String × List Record) :=
  match table with
  | [] => [(path, records)]
  | (p, old) :: rest =>
    if p == path then (p, records) :: rest else (p, old) :: setRecords rest path records

def recordsOf (w : Rehearsal) : Scan → List Record
  | .all => w.table.flatMap (·.2)
  | .paths keys => keys.flatMap fun key => (w.table.lookup key).getD []

def answer (s : Scan) (w : Rehearsal) : Except Trouble (List Record) × Rehearsal :=
  match w.failure with
  | some t => (.error t, { w with failure := none })
  | none => (.ok (w.recordsOf s), w)

def perform (job : Work) (w : Rehearsal) : Except Trouble Nat × Rehearsal :=
  let (result, workspace) := Workspace.perform (Workspace.work job) w.workspace
  (result, { w with workspace })

def withFiles (f : Node → Node) (w : Rehearsal) : Rehearsal :=
  { w with workspace := { w.workspace with tree := f w.workspace.tree } }

def backend : Backend Rehearsal :=
  { log := fun e w => { w with workspace := { w.workspace with logged := e :: w.workspace.logged } }
    isFile := fun p w => w.workspace.tree.hasFile p
    has := fun p w => w.workspace.tree.has p
    ask := fun s w => { w with asked := s :: w.asked }
    isOpen := Rehearsal.isOpen
    answer := Rehearsal.answer
    perform := Rehearsal.perform }

/-- A machine that has not been started, with a quiet time in milliseconds. -/
def machine (w : Rehearsal) (quietTime : Nat) : Machine Rehearsal :=
  { world := w, root := w.workspace.root, quietTime
    quietSeconds := Float.ofNat quietTime / 1000.0 }

end Rehearsal

end CodeIndex.Scheduler
