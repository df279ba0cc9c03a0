import CodeIndex.FileTree.Walk
import CodeIndex.Program.Outcome
import CodeIndex.Store.Basic

/-!
# Workspaces

A project on a machine: its files, its settings, the programs that can be run, and what was logged.
Steps on a workspace may end early and keep what they did before.
-/

namespace CodeIndex

inductive Program.Behaviour where
  | hangs
  | exits (code : Int) (output errors : Bytes)
  deriving Repr, DecidableEq

structure Program where
  path : Path
  behaviour : Program.Behaviour := .exits 0 [] []

structure Workspace where
  /-- All files, from the root of the machine. -/
  tree : Node
  /-- The project directory. -/
  root : Path
  home : Homes
  settings : Settings := {}
  programs : List Program := []
  /-- The programs that were run with their arguments, the last first. -/
  calls : List (Path × List String) := []
  /-- Whether another holds the write lock of the store. -/
  isLocked : Bool := false
  /-- How deep texts in JSON are read. -/
  depth : Nat := Value.depthLimit
  /-- What was logged, the last first. -/
  logged : List Log.Event := []

namespace Workspace

abbrev Action (α : Type) := ExceptT Trouble (StateM Workspace) α

def fail {α : Type} (f : Failure) : Action α :=
  throw (.failure f)

def mishap {α : Type} (m : Mishap) : Action α :=
  throw (.mishap m)

def log (level : Log.Level) (name : String) (members : Value.Members) : Action Unit :=
  modify fun w => { w with logged := { level, name, members } :: w.logged }

def storePath (w : Workspace) : Path :=
  w.settings.storePath w.home w.root

def store (w : Workspace) : Store :=
  { path := w.storePath.toString, settings := w.settings.database, isLocked := w.isLocked
    disk := w.tree.storeAt w.storePath, logged := w.logged }

def withStore (w : Workspace) (s : Store) : Workspace :=
  { w with tree := w.tree.setStore w.storePath s.disk, logged := s.logged }

def onStore {α : Type} (act : Store.Action α) : Action α := do
  let w ← get
  let (result, s) := act.run.run w.store
  set (w.withStore s)
  match result with
  | .ok a => return a
  | .error t => throw t

def storeStatus : Action Store.Status := do
  let w ← get
  let (status, s) := Store.status.run w.store
  set { w with logged := s.logged }
  return status

/-- The database at the store's path as it is, whatever it holds. -/
def database : Action Store.Database := do
  onStore Store.requireFile
  let w ← get
  match w.tree.storeAt w.storePath with
  | .database d => return d
  | .garbage => mishap .notADatabase
  | _ => mishap .cannotOpen

/-! ## Programs -/

/-- The message for a path that cannot be used, by number and reason. -/
def errnoText (number : Nat) (reason path : String) : String :=
  "[Errno " ++ Nat.repr number ++ "] " ++ reason ++ ": " ++ Text.quoted path

def noSuchFile (path : String) : String :=
  errnoText 2 "No such file or directory" path

/-- The executable that a name with a slash leads to, links being followed. -/
def executableAt (w : Workspace) (name : String) : Except String Path :=
  let p := w.root.under (Path.ofString name)
  if !Text.occursIn "/" name then .error (noSuchFile name)
  else
    match w.tree.resolve? p with
    | none =>
      .error (if w.tree.hasFileAbove p then errnoText 20 "Not a directory" name else noSuchFile name)
    | some names =>
      match w.tree.at? names with
      | some (.file _ true) => .ok { root := "/", names }
      | _ => .error (errnoText 13 "Permission denied" name)

/-- The interpreter that a script names after `#!` at its start. -/
def interpreter? (script : Bytes) : Option String :=
  match (Text.ofBytes script).toList with
  | '#' :: '!' :: rest =>
    let line := (rest.takeWhile (· != '\n')).dropWhile fun c => c == ' ' || c == '\t'
    match line.takeWhile fun c => c != ' ' && c != '\t' with
    | [] => none
    | name => some (String.ofList name)
  | _ => none

/-- Why an executable file that is no program cannot be started: its interpreter is missing, or the
machine does not know its format. -/
def notStartedReason (w : Workspace) (p : Path) (name : String) : String :=
  match interpreter? ((w.tree.read? p).getD []) with
  | some interpreter =>
    if w.tree.has (w.root.under (Path.ofString interpreter)) then errnoText 13 "Permission denied" name
    else noSuchFile name
  | none => errnoText 8 "Exec format error" name

/-- Runs the program at a path, which was called by a name. -/
def runAt (p : Path) (name : String) (arguments : List String) : Action Program.Outcome := do
  if arguments.any (·.toList.contains '\x00') then mishap (.wrongValue "embedded null byte")
  let w ← get
  match w.programs.find? (·.path == p) with
  | none => return .notStarted (w.notStartedReason p name)
  | some program =>
    set { w with calls := (p, arguments) :: w.calls }
    match program.behaviour with
    | .hangs => return .timedOut
    | .exits code output errors => return .exited code output errors

end Workspace

end CodeIndex
