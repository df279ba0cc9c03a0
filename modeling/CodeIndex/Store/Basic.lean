import CodeIndex.Entity.Clauses
import CodeIndex.FullText.Quote
import CodeIndex.LineSearch.Basic
import CodeIndex.Record.Batch
import CodeIndex.Store.Lock
import CodeIndex.Store.Statement

/-!
# The store

The operations on the persisted index.  A change takes the write lock and has the database engine do one
statement after another, in place; if it ends early, the database is put back to what it was.  A full
rebuild works on any store file; all else needs a store that was built.
-/

namespace CodeIndex

/-- A store: where it is, how a lock is waited for, whether another holds the lock, what stands at its
path, and what was logged so far, the last first. -/
structure Store where
  path : String
  settings : Settings.Database := {}
  isLocked : Bool := false
  disk : Store.Disk := .absent
  logged : List Log.Event := []
  /-- The most values that one query of the database engine takes. -/
  variableLimit : Nat := 32766

namespace Store

abbrev Action (α : Type) := ExceptT Trouble (StateM Store) α

def fail {α : Type} (f : Failure) : Action α :=
  throw (.failure f)

def mishap {α : Type} (m : Mishap) : Action α :=
  throw (.mishap m)

def log (e : Log.Event) : Action Unit :=
  modify fun s => { s with logged := e :: s.logged }

def malformedEvent (m : Malformed) : Log.Event :=
  { level := .warning, name := "record_malformed"
    members := [("line", .ofInt? m.line), ("source", .ofText? m.source), ("reason", .text m.reason)] }

def refusal : Value.JsonFault → Mishap
  | .tooDeep => .nestedTooDeep
  | fault => .wrongValue fault.message

/-- The entities of a batch, one per identity; malformed records are logged. -/
def draftsOf (records : List Record) : Action (List Draft) := do
  let batch := Batch.ofRecords records
  for m in batch.malformed do
    log (malformedEvent m)
  match batch.stopped with
  | some fault => mishap (refusal fault)
  | none => return mergeClauses batch.drafts

def attempt (s : Store) : Lock.Attempt :=
  match s.disk with
  | .garbage => .failed .notADatabase
  | .torn => .failed .malformedFile
  | .noFile => .failed .cannotOpen
  | _ => if s.isLocked then .locked else .granted

def acquire : Action Unit := do
  let s ← get
  let (steps, result) := Lock.acquire s.settings fun _ => s.attempt
  for e in Lock.notes steps do
    log e
  match result with
  | .ok _ => return ()
  | .error m => mishap m

def isFromDatabase : Mishap → Bool
  | .tooManyVariables => true
  | .notADatabase => true
  | .malformedFile => true
  | .cannotOpen => true
  | .locked => true
  | .database .. => true
  | _ => false

/-- A step whose database mishaps are failures of the store. -/
def guarded {α : Type} (act : Action α) : Action α :=
  tryCatch act fun
    | .mishap m => do
      if isFromDatabase m then fail (.storeUnavailable (← get).path m.message) else mishap m
    | .failure f => fail f

/-- Ends early unless something stands at the store's path. -/
def requireFile : Action Unit := do
  let s ← get
  if !s.disk.isThere then fail (.schemaMissing s.path)

/-- The tables; ends early if one is missing or the file is no sound database. -/
def requireTables : Action Tables := do
  let s ← get
  match s.disk with
  | .garbage => mishap .notADatabase
  | .torn => mishap .malformedFile
  | .noFile => mishap .cannotOpen
  | .database d =>
    match d.tables? with
    | some t => return t
    | none => fail (.schemaMissing s.path)
  | _ => fail (.schemaMissing s.path)

/-! ## Transactions -/

/-- Has the engine do a statement; the result is the number of rows that it answers. -/
def execute (engine : Engine) (statement : Statement) : Action Nat := do
  let s ← get
  match s.disk with
  | .database d =>
    let (d, answer) := engine statement d
    set { s with disk := .database d }
    match answer with
    | .ok rows => return rows
    | .error m => mishap m
  | _ => mishap .cannotOpen

def executeAll (engine : Engine) : List Statement → Action Unit
  | [] => return ()
  | statement :: rest => do
    let _ ← execute engine statement
    executeAll engine rest

def committed {α : Type} (engine : Engine) (body : Action α) : Action α := do
  let a ← body
  let _ ← execute engine .commit
  return a

/-- A step under the write lock: its work is committed, or undone if it ends early. -/
def transaction {α : Type} (engine : Engine) (body : Action α) : Action α := do
  acquire
  let before := (← get).disk
  tryCatch (committed engine body) fun trouble => do
    modify fun s => { s with disk := before }
    throw trouble

/-- Statements that drop the three tables and make them anew. -/
def recreation : List Statement :=
  [.drop .texts, .drop .edges, .drop .entities, .create .entities, .create .edges, .create .texts]

/-- Statements that insert entities, in place of those with their identities. -/
def insertion (entities : List Draft) : List Statement :=
  if entities.isEmpty then [] else
    let ids := entities.map Entity.id
    let edges := entities.flatMap Tables.edgesOf
    [.deleteOf .texts ids, .deleteOf .edges ids, .putEntities entities, .addTexts entities]
      ++ if edges.isEmpty then [] else [.putEdges edges]

/-- Removes what the tables hold for a path.  The result is the number of entities removed. -/
def clear (engine : Engine) (path : Writing) : Action Nat := do
  let _ ← execute engine (.deleteAt .texts path)
  let _ ← execute engine (.deleteAt .edges path)
  execute engine (.deleteAt .entities path)

/-- Removes what the tables hold for some paths.  The result is the number of entities removed. -/
def clearAll (engine : Engine) : List Writing → Action Nat
  | [] => return 0
  | path :: rest => do
    let removed ← clear engine path
    return removed + (← clearAll engine rest)

def refill (engine : Engine) (entities : List Draft) : Action Unit :=
  executeAll engine (recreation ++ insertion entities)

/-- Clears some paths and inserts entities.  The result is the number of entities removed. -/
def exchange (engine : Engine) (paths : List Writing) (entities : List Draft) : Action Nat := do
  let _ ← requireTables
  let removed ← clearAll engine paths
  executeAll engine (insertion entities)
  return removed

/-- Clears a path of the tables that are there.  The result is the number of entities removed. -/
def withdraw (engine : Engine) (path : Writing) : Action Nat := do
  let _ ← requireTables
  clear engine path

/-! ## Changes -/

/-- Makes the store file, if there is none. -/
def create : Action Unit := do
  let s ← get
  match s.disk with
  | .noDirectory reason => fail (.storeUnavailable s.path reason)
  | .absent => if 0 ≤ s.settings.maxRetries then set { s with disk := .database {} }
  | _ => return ()

def rewrite (entities : List Draft) (engine : Engine := Statement.apply) : Action Unit := do
  create
  transaction engine (refill engine entities)

/-- Whether a rebuild takes a mishap for a file that is no database.  It goes by words anywhere in what the
database engine reports, and a report may quote the values of its statement. -/
def soundsCorrupt (m : Mishap) : Bool :=
  isFromDatabase m && Text.occursIn "not a database" (Text.lower m.message)

/-- Replaces all that the store holds by entities; a file that seems to be no database is discarded. -/
def renew (entities : List Draft) (engine : Engine := Statement.apply) : Action Unit :=
  tryCatch (rewrite entities engine) fun
    | .mishap m =>
      if soundsCorrupt m then do
        log { level := .warning, name := "store_corrupt_recreated"
              members := [("db_path", .text (← get).path)] }
        modify fun s => { s with disk := .absent }
        rewrite entities engine
      else mishap m
    | .failure f => fail f

/-- Replaces all that the store holds by the records.  The result is the number of entities. -/
def rebuild (records : List Record) (engine : Engine := Statement.apply) : Action Nat := do
  let entities ← draftsOf records
  guarded (renew entities engine)
  log { level := .info, name := "rebuild_completed"
        members := [("entities", .nat entities.length), ("db_path", .text (← get).path)] }
  return entities.length

/-- The paths that a merge affects, in order: those of the entities, and those listed. -/
def affected {τ : Type} [DecidableEq τ] [Textual τ] (entities : List (Entity τ)) (paths : List τ) :
    List τ :=
  Text.sortedBy (fun a b => !List.lex (Textual.points b) (Textual.points a) (· < ·))
    (Text.distinct (entities.map Entity.path ++ paths))

/-- Replaces what the tables hold for some paths by entities.  The result is the number of entities
removed. -/
def replace (paths : List Writing) (entities : List Draft) (engine : Engine := Statement.apply) :
    Action Nat :=
  transaction engine (exchange engine paths entities)

/-- Replaces what the store holds for the records' paths and the listed ones by the records.  The result
is the number of entities. -/
def merge (records : List Record) (paths : List Writing) (engine : Engine := Statement.apply) :
    Action Nat := do
  let entities ← draftsOf records
  let paths := affected entities paths
  requireFile
  let purged ← guarded (replace paths entities engine)
  log { level := .info, name := "merge_completed"
        members := [("paths", .nat paths.length), ("purged", .nat purged),
          ("inserted", .nat entities.length)] }
  return entities.length

/-- Removes what the tables hold for a path, under the lock.  The result is the number of entities
removed. -/
def remove (path : Writing) (engine : Engine := Statement.apply) : Action Nat :=
  transaction engine (withdraw engine path)

/-- Removes what the store holds for a path.  The result is the number of entities removed. -/
def purge (path : Writing) (engine : Engine := Statement.apply) : Action Nat := do
  requireFile
  let removed ← guarded (remove path engine)
  log { level := .debug, name := "path_purged"
        members := [("path", path.value), ("removed", .nat removed)] }
  return removed

/-! ## Reading -/

/-- What a row gives back: an entity, checked as any value for one is. -/
def revive (row : Entity) : Action Entity :=
  match Entity.ofValue row.toValue with
  | .ok e => return e
  | .faults faults => mishap (.wrongValue (",".intercalate (faults.map Fault.location)))

def encoded (w : Writing) : Action String :=
  match w.encoded with
  | .ok s => return s
  | .error m => mishap m

structure Hit where
  entity : Entity
  score : Float

def isBlank : Writing → Bool
  | .whole s => Text.allBlank s
  | .broken _ => false

def isInRange (n : Int) : Bool :=
  -(integerBound : Int) ≤ n && n < integerBound

/-- The first `k` entities that a query matches.  A text that is no query is taken as words that all have
to occur. -/
def search (query : Writing) (k : Int) : Action (List Hit) := do
  if isBlank query || k ≤ 0 then return []
  requireFile
  let tables ← requireTables
  let query ← encoded query
  if !isInRange k then mishap .integerTooLarge
  let answer := fun (q : FullText.Query) =>
    ((tables.search q).take k.toNat).mapM fun (row, score) =>
      return ({ entity := ← revive row, score } : Hit)
  match FullText.Query.ofString? query with
  | some q => answer q
  | none =>
    let quoted := FullText.quoteQuery query
    log { level := .debug, name := "fts_query_requoted"
          members := [("query", .text query), ("quoted", .text quoted)] }
    if quoted == "" then return []
    match FullText.Query.ofString? quoted with
    | some q => answer q
    | none => fail (.storeUnavailable (← get).path "(sqlite3.OperationalError) fts5: syntax error")

/-- The entities with some identities, in the order asked for; unknown ones are left out.  Each identity
asked for is a value of its own to the database engine. -/
def getEntities (ids : List Writing) : Action (List Entity) := do
  if ids.isEmpty then return []
  requireFile
  let tables ← requireTables
  if (← get).variableLimit < ids.length then mishap .tooManyVariables
  let ids ← ids.mapM encoded
  (tables.getAll ids).mapM revive

/-- The entities that an entity refers to and those that refer to it. -/
structure Neighbors where
  callees : List Entity := []
  callers : List Entity := []

/-- The first items up to a limit; a negative limit is none. -/
def upTo {α : Type} (limit : Int) (items : List α) : List α :=
  if limit < 0 then items else items.take limit.toNat

/-- The neighbours of an entity, each list up to a limit. -/
def neighbors (id : Writing) (limit : Int) : Action Neighbors := do
  requireFile
  let tables ← requireTables
  let id ← encoded id
  if !isInRange limit then mishap .integerTooLarge
  let callees ← (upTo limit (tables.callees id)).mapM revive
  let callers ← (upTo limit (tables.callers id)).mapM revive
  return { callees, callers }

structure Status where
  path : String
  connected : Bool
  schemaPresent : Bool
  entityCount : Nat := 0
  edgeCount : Nat := 0
  error : Option String := none

def Status.toMembers (s : Status) : Value.Members :=
  [("db_path", .text s.path), ("connected", .bool s.connected),
   ("schema_present", .bool s.schemaPresent), ("entity_count", .nat s.entityCount),
   ("edge_count", .nat s.edgeCount), ("error", .ofText? s.error)]

/-- How the store is; this never ends early. -/
def status : StateM Store Status := do
  let s ← get
  let degraded := fun (m : Mishap) => do
    set { s with logged := { level := .warning, name := "store_status_degraded"
                             members := [("db_path", .text s.path), ("error", .text m.message)] } :: s.logged }
    return ({ path := s.path, connected := false, schemaPresent := false, error := some m.message } : Status)
  match s.disk with
  | .garbage => degraded .notADatabase
  | .torn => degraded .malformedFile
  | .noFile => degraded .cannotOpen
  | .database d =>
    match d.tables? with
    | some t =>
      return { path := s.path, connected := true, schemaPresent := true
               entityCount := t.entities.length, edgeCount := t.edges.length }
    | none => return { path := s.path, connected := true, schemaPresent := false }
  | _ =>
    return { path := s.path, connected := false, schemaPresent := false
             error := some "store file does not exist" }

end Store

end CodeIndex
