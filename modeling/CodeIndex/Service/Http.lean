import CodeIndex.Service.Call

/-!
# The daemon over HTTP

Two routes tell how the service is.  Both answer for a store that cannot be used as well.
-/

namespace CodeIndex.Service

def version : String := "0.1.0"

/-- Facts about the running process, which the outside supplies. -/
structure RunFacts where
  uptime : Float := 0.0
  runtime : Value.Members := []

def healthBody (p : RunFacts) : Action Value.Members := do
  let status ← onWorkspace Workspace.storeStatus
  let ok := isUsable status
  return [("status", .text (healthLabel ok)), ("ok", .bool ok),
    ("repo_root", .text (← get).workspace.root.toString), ("version", .text version),
    ("uptime_seconds", .float p.uptime)]

def statusBody (p : RunFacts) : Action Value.Members := do
  let s ← get
  let status ← onWorkspace Workspace.storeStatus
  return [("repo_root", .text s.workspace.root.toString), ("version", .text version),
    ("uptime_seconds", .float p.uptime), ("runtime", .map p.runtime),
    ("store", .map status.toMembers), ("scheduler", .map s.machine.scheduler.toMembers),
    ("watcher", .map [("running", .bool s.machine.isWatching)])]

/-- The answer to a request: its number, and a body if it has one. -/
structure Response where
  status : Nat
  body : Option Value.Members := none

def routes : List (String × (RunFacts → Action Value.Members)) :=
  [("/health", healthBody), ("/status", statusBody)]

def isReading (method : String) : Bool :=
  method == "GET" || method == "HEAD"

/-- The path in the target of a request: what stands before a query. -/
def pathOfTarget (target : String) : String :=
  String.ofList (target.toList.takeWhile (· != '?'))

/-- A path without the slashes at its end. -/
def withoutEndSlashes (path : String) : String :=
  String.ofList (Text.trimEnd (· == '/') path.toList)

/-- The answer of the routes to a request.  Routes that are `alone` forgive slashes at the end of a path
and refuse a method that they do not take; otherwise such requests go on to where nothing is found. -/
def respond (p : RunFacts) (alone : Bool) (method target : String) : Action Response := do
  let path := pathOfTarget target
  match routes.lookup (if alone then withoutEndSlashes path else path) with
  | none => return { status := 404 }
  | some route =>
    if isReading method then return { status := 200, body := some (← route p) }
    else return { status := if alone then 405 else 404 }

/-! ## Requests for tools -/

inductive ToolRequest where
  | list
  | call (name : String) (parameters : Value.Members)

inductive ToolResponse where
  | names (names : List String)
  | envelope (e : Tool.Envelope)
  | unknownTool

def answerTool : ToolRequest → Action ToolResponse
  | .list => return .names ((Tool.all.map Tool.label).mergeSort fun a b => a ≤ b)
  | .call name parameters =>
    match Tool.ofLabel? name with
    | none => return .unknownTool
    | some t => return .envelope (← call t parameters)

end CodeIndex.Service
