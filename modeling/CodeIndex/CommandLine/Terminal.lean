import CodeIndex.CommandLine.Command
import CodeIndex.CommandLine.Markup
import CodeIndex.Log.Output
import CodeIndex.Service.Call
import CodeIndex.Settings.Load

/-!
# Terminals

Where a command runs: a service on a machine, the directory it was called in, what can be read, and what
was written so far.  What is logged while a command runs is written where the log's setup says, in order
with all else.
-/

namespace CodeIndex.CommandLine

structure Reply where
  status : Nat := 200
  body : String
  deriving Repr, DecidableEq

inductive Served where
  | http (host : String) (port : Int)
  | mcp (transport : String)
  deriving Repr, DecidableEq

structure Terminal where
  service : Service
  /-- The directory in which the command was called. -/
  here : Path
  environment : List (String × String) := []
  /-- The configuration file for all projects. -/
  everywhere : Path
  input : Bytes := []
  /-- What a running daemon answers. -/
  daemon : Option Reply := none
  setup : Log.Setup := Log.Setup.ofLevel "WARNING"
  /-- The time, as log lines show it. -/
  stamp : String := ""
  /-- The lines of both streams so far, the last first. -/
  out : List String := []
  err : List String := []
  served : List Served := []

inductive Stop where
  /-- The arguments cannot be read. -/
  | refusal (r : Refusal)
  | failure (message : String)
  /-- An end that nobody plans for, by its name. -/
  | crash (name : String)

abbrev Action (α : Type) := ExceptT Stop (StateM Terminal) α

namespace Terminal

def workspace (t : Terminal) : Workspace :=
  t.service.workspace

def withWorkspace (t : Terminal) (w : Workspace) : Terminal :=
  { t with service := t.service.withWorkspace w }

def appendLine (w : Workspace) (p : Path) (line : String) : Workspace :=
  let bytes := (w.tree.read? p).getD [] ++ Text.toBytes (line ++ "\n")
  { w with tree := w.tree.write p (.bytes bytes) }

def write (t : Terminal) (target : Log.Target) (line : String) : Terminal :=
  match target with
  | .out => { t with out := line :: t.out }
  | .err => { t with err := line :: t.err }
  | .file p => t.withWorkspace (appendLine t.workspace p line)

def flush (t : Terminal) : Terminal :=
  let lines := t.workspace.logged.reverse.flatMap (t.setup.lines t.stamp none)
  lines.foldl (fun t (target, line) => t.write target line)
    (t.withWorkspace { t.workspace with logged := [] })

end Terminal

/-! ## Steps -/

def echo (line : String) : Action Unit :=
  modify (·.write .out line)

def fail {α : Type} (message : String) : Action α :=
  throw (.failure message)

def crash {α : Type} (name : String) : Action α :=
  throw (.crash name)

def resultOf {α : Type} : Except Trouble α → Action α
  | .ok a => return a
  | .error (.failure f) => fail f.toString
  | .error (.mishap m) => crash m.name

def onService {α : Type} (act : Service.Action α) : Action α := do
  let t ← get
  let (result, service) := act.run.run t.service
  set { t with service }.flush
  resultOf result

def onWorkspace {α : Type} (act : Workspace.Action α) : Action α :=
  onService (Service.onWorkspace act)

def shown (markup : String) : Action String :=
  match Markup.plain? markup with
  | some s => return s
  | none => crash "MarkupError"

def say (target : Log.Target) (markup : String) : Action Unit := do
  let line ← shown markup
  modify (·.write target line)

def succeed (sentence : String) : Action Unit :=
  say .err ("✓ " ++ sentence)

/-! ## Files -/

def absolute (p : Path) : Action Path := do
  return (← get).here.under p

/-- Why a path cannot be read as a file: a number and a reason. -/
def readFault (tree : Node) (p : Path) : Nat × String :=
  if tree.hasDir p then (21, "Is a directory")
  else if tree.hasFileAbove p then (20, "Not a directory")
  else (2, "No such file or directory")

/-- The text of bytes; line ends become line feeds. -/
def textOf (bytes : Bytes) : Action String :=
  match Text.ofBytes? bytes with
  | some s => return Text.withLineFeeds s
  | none => crash Mishap.notText.name

def configFile (p : Path) : Action Settings.ConfigFile := do
  let tree := (← get).workspace.tree
  if tree.hasDir p then crash "IsADirectoryError"
  match tree.read? p with
  | none => return { path := p.toString, text := none }
  | some bytes => return { path := p.toString, text := some (← textOf bytes) }

/-! ## Results -/

structure Result where
  exit : Nat
  out : String
  err : String
  crash : Option String
  served : List Served

def ofLines (lines : List String) : String :=
  String.join (lines.map (· ++ "\n"))

def Refusal.lines (r : Refusal) : List String :=
  [r.grammar.usage, "Try '" ++ r.grammar.call ++ " --help' for help.", "",
    "Error: " ++ r.fault.message]

def resultFor (end? : Option Stop) (t : Terminal) : Result :=
  let (exit, lines, crash) := match end? with
    | none => (0, [], none)
    | some (.refusal r) => (2, r.lines, none)
    | some (.failure message) => (1, ["Error: " ++ message], none)
    | some (.crash name) => (1, [], some name)
  { exit, crash, served := t.served, out := ofLines t.out.reverse
    err := ofLines (t.err.reverse ++ lines) }

end CodeIndex.CommandLine
