import CodeIndex.Template.Basic
import CodeIndex.Workspace.Basic

/-!
# Extraction

How entities are got from files.  Source files go to the extractor program, which answers with one
record a line; templates are read directly.  A program that gives no records for files that it was asked
about has failed, because an empty answer would purge them.
-/

namespace CodeIndex.Workspace

def errorTail : Nat := 2000

def lastChars (n : Nat) (s : String) : String :=
  String.ofList (s.toList.drop (s.length - n))

def extractorFailure {α : Type} (command : List String) (reason : String) (code : Option Int) : Action α :=
  fail (.extractorFailed command reason code)

def startExtractor (command : List String) : Action Program.Outcome := do
  let w ← get
  let name := command.headD ""
  match w.executableAt name with
  | .error reason => return .notStarted reason
  | .ok p => runAt p name command.tail

def entitiesOfAnswer (command : List String) (needed : Bool) (output : String) : Action (List Draft) := do
  let batch := Batch.ofText output (some "extractor") (← get).depth
  for m in batch.malformed do
    modify fun w => { w with logged := Store.malformedEvent m :: w.logged }
  if let some fault := batch.stopped then
    mishap (Store.refusal fault)
  if batch.drafts.isEmpty && (needed || !Text.allBlank output) then
    extractorFailure command "output contained no parseable records" none
  log .debug "extractor_completed"
    [("records", .nat batch.drafts.length), ("argv_len", .nat command.length)]
  return batch.drafts

/-- Runs the extractor; without a command it does nothing.  `needed` says whether it has to give
records. -/
def runExtractor (command : List String) (needed : Bool) : Action (List Draft) := do
  let s := (← get).settings.extractor
  if s.command.isEmpty then
    log .debug "extractor_disabled" []
    return []
  match ← startExtractor command with
  | .notFound => extractorFailure command "cannot start extractor" none
  | .notStarted reason => extractorFailure command ("cannot start extractor: " ++ reason) none
  | .timedOut =>
    extractorFailure command ("timed out after " ++ Value.shownFloat s.timeout ++ " seconds") none
  | .exited code output errors =>
    if code != 0 then
      let reason := Text.strip (lastChars errorTail (Text.ofBytes errors))
      extractorFailure command
        (if reason == "" then "exited with code " ++ toString code else reason) (some code)
    else entitiesOfAnswer command needed (Text.ofBytes output)

def extractSources (paths : List String) : Action (List Draft) := do
  if paths.isEmpty then return []
  let s := (← get).settings.extractor
  runExtractor (s.command ++ [s.filesFlag] ++ paths) true

def extractTemplate (path : String) : Action (List Draft) := do
  let w ← get
  let bytes := (w.tree.read? (w.root.under (Path.ofString path))).getD []
  let content := Text.withLineFeeds (Text.ofBytes bytes)
  let s := w.settings.index
  match Template.entity path content s.primarySourceDirs s.templateExtensions with
  | .ok e => return [e.draft]
  | .faults _ => return []

/-- The key under which a path is extracted: what is below the project root for a path there, otherwise
the path itself. -/
def relative (root : Path) (path : String) : String :=
  let p := Path.ofString path
  if p.isAbsolute then
    match Path.below? root p with
    | some below => below.toString
    | none => p.toString
  else p.toString

def keyOf (path : String) : Action String := do
  return relative (← get).root path

def isFile (w : Workspace) (key : String) : Bool :=
  w.tree.hasFile (w.root.under (Path.ofString key))

/-- The entities of some files; paths that lead to no file, or to one that is not indexed, give none. -/
def extract (paths : List String) : Action (List Draft) := do
  let w ← get
  let keys := (paths.map (relative w.root)).filter w.isFile
  let s := w.settings.index
  let templates := keys.filter s.isTemplate
  let sources := keys.filter fun key => !s.isTemplate key && s.isSource key
  let entities ← extractSources sources
  return entities ++ (← templates.mapM extractTemplate).flatten

def walk (w : Workspace) : List String :=
  Node.walk w.settings.index ((w.tree.find? w.root).getD Node.empty)

def extractAll : Action (List Draft) := do
  let w ← get
  let s := w.settings.index
  let files := w.walk
  let entities ← runExtractor w.settings.extractor.command (files.any s.isSource)
  return entities ++ (← (files.filter s.isTemplate).mapM extractTemplate).flatten

/-! ## From files to the store -/

structure Refresh where
  isFull : Bool
  entities : Nat
  paths : Nat
  purged : Nat := 0

def Refresh.toMembers (r : Refresh) : Value.Members :=
  [("mode", .text (if r.isFull then "full" else "incremental")), ("entities", .nat r.entities),
   ("paths", .nat r.paths), ("purged", .nat r.purged)]

def rebuild : Action Refresh := do
  let entities ← extractAll
  let count ← onStore (Store.rebuild (entities.map .draft))
  let paths := (Text.distinct (entities.map Entity.path)).length
  log .info "pipeline_rebuild_done" [("entities", .nat count), ("paths", .nat paths)]
  return { isFull := true, entities := count, paths }

def sortedDistinct (names : List String) : List String :=
  (Text.distinct names).mergeSort fun a b => a ≤ b

/-- Extracts files again, and purges those that are gone. -/
def update (paths : List String) : Action Refresh := do
  let w ← get
  let keys := sortedDistinct (paths.map (relative w.root))
  let entities ← extract (keys.filter w.isFile)
  let count ← onStore (Store.merge (entities.map .draft) (keys.map .whole))
  log .info "pipeline_update_done" [("entities", .nat count), ("paths", .nat keys.length)]
  return { isFull := false, entities := count, paths := keys.length }

def purge (path : String) : Action Refresh := do
  let removed ← onStore (Store.purge (← keyOf path))
  return { isFull := false, entities := 0, paths := 1, purged := removed }

end CodeIndex.Workspace
