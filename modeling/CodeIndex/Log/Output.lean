import CodeIndex.Log.Event
import CodeIndex.Settings.Basic
import CodeIndex.Text.Blank
import CodeIndex.Text.Case
import CodeIndex.Value.Json
import CodeIndex.Value.Shown

/-!
# Log output

Where events are written, and how.  An output takes events from its level on and writes each on a line,
either for readers or as JSON.
-/

namespace CodeIndex.Log

/-- The number of a level by its name in any case; an unknown name stands for `INFO`. -/
def levelNumber (name : String) : Nat :=
  let numbers := [("CRITICAL", 50), ("FATAL", 50), ("ERROR", 40), ("WARN", 30), ("WARNING", 30),
    ("INFO", 20), ("DEBUG", 10), ("NOTSET", 0)]
  (numbers.lookup (Text.upper name)).getD 20

inductive Target where
  | out
  | err
  | file (path : Path)
  deriving Repr, DecidableEq

def Target.label : Target → String
  | .out => "stdout"
  | .err => "stderr"
  | .file path => path.toString

structure Output where
  target : Target
  form : Settings.LogForm
  level : Nat
  deriving Repr, DecidableEq

/-- All outputs, and the least number of a level that is logged at all. -/
structure Setup where
  level : Nat
  outputs : List Output
  deriving Repr, DecidableEq

/-- The target of a destination.  Where the standard output is taken, its lines go to the other
stream. -/
def targetOf (destination : String) (isOutTaken : Bool) : Target :=
  if destination == "stdout" then (if isOutTaken then .err else .out)
  else if destination == "stderr" then .err
  else .file (Path.ofString destination).withoutClimbs

/-- The outputs of settings; a log file is a further one, which takes everything as JSON. -/
def Setup.ofSettings (s : Settings.Logging) (logFile : Option Path) (isOutTaken : Bool) : Setup :=
  let configured := s.outputs.map fun o =>
    ({ target := targetOf o.destination isOutTaken, form := o.form
       level := levelNumber (o.level.getD s.level) } : Output)
  let file := logFile.toList.map fun p =>
    ({ target := .file p.withoutClimbs, form := .json, level := levelNumber "DEBUG" } : Output)
  let outputs := configured ++ file
  { outputs, level := ((outputs.map Output.level).min?).getD (levelNumber s.level) }

/-- The setup of a command: one output on the error stream. -/
def Setup.ofLevel (name : String) : Setup :=
  .ofSettings { level := name } none false

/-! ## Lines -/

/-- A value in a line for readers: a text between quotes only if a blank, an equals sign, a line end or a
quote stands in it. -/
def shownValue : Value → String
  | .text s =>
    if s.toList.any fun c => [' ', '\t', '=', '\r', '\n', '\x22', '\x27'].contains c then Text.quoted s
    else s
  | v => v.nested

/-- Members that have a place of their own in a line for readers, or none. -/
def placedNames : List String :=
  ["timestamp", "level", "event", "logger", "logger_name", "stack", "exception", "exc_info"]

/-- The members of an event with the time and, where there is one, the request it belongs to. -/
def recordOf (e : Event) (stamp : String) (request : Option String) : Value.Members :=
  let m := Value.Members.set (Value.Members.set (Value.Members.set e.members "event" (.text e.name))
    "level" (.text e.level.label)) "timestamp" (.text stamp)
  match request with
  | some id => Value.Members.set m "request_id" (.text id)
  | none => m

/-- A record on a line for readers: time, level and name in front, and the rest by name.  Parts that are
empty take no place. -/
def consoleLine (m : Value.Members) : String :=
  let placed := fun (name : String) (before after : String) =>
    match Value.Members.get? m name with
    | some v => [before ++ v.shown ++ after]
    | none => []
  let rest := (m.filter fun (k, _) => !placedNames.contains k).mergeSort fun a b => a.1 ≤ b.1
  let parts := placed "timestamp" "" "" ++ placed "level" "[" "]" ++ placed "event" "" ""
    ++ placed "logger" "[" "]" ++ placed "logger_name" "[" "]"
    ++ rest.map fun (k, v) => k ++ "=" ++ shownValue v
  String.ofList (Text.trimEnd (· == ' ') (" ".intercalate (parts.filter (· != ""))).toList)

def line (form : Settings.LogForm) (m : Value.Members) : String :=
  match form with
  | .console => consoleLine m
  | .json => (Value.map m).json

/-- The lines that an event leads to, with their targets in the order of the outputs. -/
def Setup.lines (s : Setup) (stamp : String) (request : Option String) (e : Event) :
    List (Target × String) :=
  if e.level.number < s.level then []
  else
    (s.outputs.filter (·.level ≤ e.level.number)).map fun o =>
      (o.target, line o.form (recordOf e stamp request))

end CodeIndex.Log
