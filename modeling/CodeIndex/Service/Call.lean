import CodeIndex.Service.Basic
import CodeIndex.Tool.Envelope
import CodeIndex.Tool.Request
import CodeIndex.Tool.Summary
import CodeIndex.Workspace.Search

/-!
# Calling tools

What each tool does to a service, and the envelope around it.  Whatever ends a tool early becomes an
answer: a failure keeps its kind, anything else is an internal error.  While a call is answered, the service
knows its identity.
-/

namespace CodeIndex.Service

open CodeIndex.Tool

def counted (n : Nat) (noun : String) : String :=
  Nat.repr n ++ " " ++ noun

def schedulerMember : Action Value.Members := do
  let s ← get
  return if s.isAttached then [("scheduler", .map s.machine.scheduler.toMembers)] else []

def search (query : String) (count : Int) (useFallback : Bool) : Action Value.Members := do
  let results ← onWorkspace (Workspace.search query (some count) (some useFallback))
  return [("results", .list (results.map Search.Result.toValue)), ("count", .nat results.length),
    ("summary", .text (searchSummary (results.map (·.source.label)) query))]

def pack (ids : Option (List Writing)) (query : Option Writing) (count : Int) : Action Value.Members := do
  let pack ← onWorkspace
    (Workspace.pack { ids := ids.getD [], query, k := count } Search.Pack.neighborLimit)
  return [("text", .text pack.text), ("sources", .list (pack.sources.map Search.Location.toValue)),
    ("summary", .text (counted pack.sources.length "entities packed"))]

def refreshStarted (mode : String) (files : Nat) : Value.Members :=
  [("started", .bool true), ("mode", .text mode), ("files", .nat files)]

/-- Refreshes through the scheduler: paths are queued, and without paths all is rebuilt. -/
def refreshScheduled (paths : List String) : Action Value.Members := do
  if paths.isEmpty then
    let count := match ← complete .rebuild with
      | .count n => n
      | _ => 0
    return refreshStarted "full" 0 ++
      [("entities", .nat count), ("summary", .text ("rebuilt " ++ counted count "entities"))]
  else
    discard <| complete (.notices (paths.map .either) .finish)
    return refreshStarted "incremental" paths.length ++
      [("summary", .text (counted paths.length "paths queued"))]

def refreshDirectly (paths : List String) : Action Value.Members := do
  let done ← onWorkspace (if paths.isEmpty then Workspace.rebuild else Workspace.update paths)
  let mode := if paths.isEmpty then "full" else "incremental"
  return refreshStarted mode paths.length ++
    [("entities", .nat done.entities),
     ("summary", .text (mode ++ " refresh: " ++ counted done.entities "entities"))]

def refresh (paths : List String) : Action Value.Members := do
  if (← get).isAttached then refreshScheduled paths else refreshDirectly paths

def indexStatus : Action Value.Members := do
  let status ← onWorkspace Workspace.storeStatus
  let summary := counted status.entityCount "entities" ++ ", " ++ counted status.edgeCount "edges"
  return status.toMembers ++ (← schedulerMember) ++ [("summary", .text summary)]

def isUsable (s : Store.Status) : Bool :=
  s.connected && s.schemaPresent

def healthLabel (ok : Bool) : String :=
  if ok then "healthy" else "degraded"

def health : Action Value.Members := do
  let status ← onWorkspace Workspace.storeStatus
  let ok := isUsable status
  let hint := if ok then [] else [("remediation", .text Code.schemaMissing.remediation)]
  return [("ok", .bool ok), ("repo_root", .text (← get).workspace.root.toString),
    ("store", .map status.toMembers)] ++ (← schedulerMember) ++ hint ++
    [("summary", .text (healthLabel ok))]

def answer : Request → Action Value.Members
  | .search query count useFallback => search query count useFallback
  | .packContext ids query count => pack ids query count
  | .refresh paths => refresh (paths.getD [])
  | .indexStatus => indexStatus
  | .health => health

def handle (request : Request) : StateM Service Ending := do
  match ← (answer request).run with
  | .ok result => return .returned result
  | .error (.failure f) => return .failed f
  | .error (.mishap m) => return .broken m.name m.message

/-! ## Envelopes -/

def invalid (t : Tool) (faults : List Fault) : Action Envelope := do
  log .warning "tool_validation_error"
    [("tool", .text t.label), ("error", .text (Envelope.firstFault faults))]
  return .invalid faults

def refused (t : Tool) (e : Error) : Action Envelope := do
  log .warning "tool_error"
    [("tool", .text t.label), ("error_code", .text e.code.label), ("error", .text e.message)]
  return .failure e

/-- The answer to a request that failed; there is none if a detail has a reserved name. -/
def failed (t : Tool) (f : Failure) : Action Envelope := do
  if Error.hasReserved f then throw (.mishap (.wrongType "a detail has a reserved name"))
  refused t (.ofFailure f)

def broken (t : Tool) (kind message : String) : Action Envelope := do
  log .error "tool_internal_error" [("tool", .text t.label), ("error", .text message)]
  log .debug "tool_internal_error_traceback" [("tool", .text t.label)]
  return .failure (Error.ofFailure
    (.internal message [("tool", .text t.label), ("error_type", .text kind)]))

def conclude (t : Tool) : Ending → Action Envelope
  | .returned result => do
    log .info "tool_complete" (("tool", .text t.label) :: loggedResult result)
    return .success result
  | .failed f => failed t f
  | .refused e => refused t e
  | .broken kind message => broken t kind message

def attend (t : Tool) (handler : Request → StateM Service Ending) (parameters : Value.Members) :
    Action Envelope := do
  match t.check parameters with
  | .faults faults => invalid t faults
  | .ok request => conclude t (← handler request)

/-- Parameter names that the log of a call cannot hold. -/
def reservedNames (isWritten : Bool) : List String :=
  "tool" :: if isWritten then Log.reservedNames else Log.ownNames

/-- Logs that a call begins, which it cannot if a parameter has a reserved name. -/
def begin (t : Tool) (parameters : Value.Members) : Action Unit := do
  let logged := loggedParameters parameters
  let isWritten := (← get).writes .info
  if logged.any fun (k, _) => (reservedNames isWritten).contains k then
    throw (.mishap (.wrongType "a parameter has a reserved name"))
  log .info "tool_start" (("tool", .text t.label) :: logged)

/-- Calls a tool whose work a handler does.  Once the call has begun, its identity is forgotten at the end,
however it ends. -/
def invoke (t : Tool) (handler : Request → StateM Service Ending) (parameters : Value.Members)
    (id : String) : Action Envelope := do
  setRequestId id
  begin t parameters
  let result ← attempt (attend t handler parameters)
  clearRequestId
  match result with
  | .ok envelope => return envelope
  | .error trouble => throw trouble

/-- Calls a tool; the identity of the call is supplied by the outside. -/
def call (t : Tool) (parameters : Value.Members) (id : String := "") : Action Envelope :=
  invoke t handle parameters id

def publish : Action Unit := do
  log .info "mcp_server_creating" [("repo_root", .text (← get).workspace.root.toString)]
  log .info "mcp_server_created" [("tool_count", .nat Tool.all.length)]

end CodeIndex.Service
