import CodeIndex.Path
import CodeIndex.Value.Basic

/-!
# Settings

Everything that can be configured, in sections, with the defaults.
-/

namespace CodeIndex

/-- Names of files and directories that are not configurable. -/
structure Layout where
  /-- The directory below the project root that holds the index and the configuration. -/
  stateDir : String := ".contextdex"
  configFile : String := "config.yaml"
  storeFile : String := "index.db"
  logFile : String := "server.log"

def layout : Layout := {}

namespace Settings

inductive LogForm where
  | json
  | console
  deriving Repr, DecidableEq, Inhabited

def LogForm.label : LogForm → String
  | .json => "json"
  | .console => "console"

structure LogOutput where
  form : LogForm := .console
  /-- `stderr`, `stdout` or a file with an absolute path. -/
  destination : String := "stderr"
  /-- The least level; the level of all outputs if absent. -/
  level : Option String := none
  deriving Repr, DecidableEq, Inhabited

structure Logging where
  level : String := "INFO"
  outputs : List LogOutput := [{}]
  deriving Repr, DecidableEq, Inhabited

structure Server where
  host : String := "127.0.0.1"
  port : Nat := 7655
  shutdownTimeout : Float := 5.0

structure Index where
  indexPath : Option String := none
  sourceExtensions : List String := [".ex", ".exs"]
  templateExtensions : List String := [".heex"]
  excludedDirs : List String :=
    ["deps", "_build", "node_modules", ".git", ".elixir_ls", "cover", "doc", layout.stateDir]
  primarySourceDirs : List String := ["lib"]
  deriving Repr, DecidableEq, Inhabited

def Index.extensions (s : Index) : List String :=
  s.sourceExtensions ++ s.templateExtensions

/-- The program that extracts records from source files; none if `command` is empty. -/
structure Extractor where
  command : List String := []
  filesFlag : String := "--files"
  timeout : Float := 300.0

/-- How long changes are collected, and how often some file systems are polled. -/
structure Watcher where
  debounce : Float := 0.5
  pollInterval : Float := 1.0

structure Search where
  defaultCount : Nat := 10
  minIndexResults : Nat := 2
  useFallback : Bool := true
  deriving Repr, DecidableEq, Inhabited

structure Fallback where
  executable : String := "rg"
  maxCountPerFile : Nat := 3
  smartCase : Bool := true
  timeout : Float := 10.0
  testDirs : List String := ["test"]
  longLineThreshold : Int := 200

structure Database where
  busyTimeoutMillis : Int := 30000
  maxRetries : Int := 3
  retryBaseDelay : Float := 0.1

end Settings

structure Settings where
  logging : Settings.Logging := {}
  server : Settings.Server := {}
  index : Settings.Index := {}
  extractor : Settings.Extractor := {}
  watcher : Settings.Watcher := {}
  search : Settings.Search := {}
  fallback : Settings.Fallback := {}
  database : Settings.Database := {}

namespace Settings

def levelNames : List String :=
  ["DEBUG", "INFO", "WARNING", "ERROR", "CRITICAL"]

/-! ## Settings as values -/

def LogOutput.toValue (s : LogOutput) : Value :=
  .map [("format", .text s.form.label), ("destination", .text s.destination),
    ("level", .ofText? s.level)]

def Logging.toValue (s : Logging) : Value :=
  .map [("level", .text s.level), ("outputs", .list (s.outputs.map LogOutput.toValue))]

def Server.toValue (s : Server) : Value :=
  .map [("host", .text s.host), ("port", .nat s.port),
    ("shutdown_timeout_sec", .float s.shutdownTimeout)]

def Index.toValue (s : Index) : Value :=
  .map [("index_path", .ofText? s.indexPath), ("source_extensions", .texts s.sourceExtensions),
    ("template_extensions", .texts s.templateExtensions), ("excluded_dirs", .texts s.excludedDirs),
    ("primary_source_dirs", .texts s.primarySourceDirs)]

def Extractor.toValue (s : Extractor) : Value :=
  .map [("command", .texts s.command), ("files_flag", .text s.filesFlag),
    ("timeout_sec", .float s.timeout)]

def Watcher.toValue (s : Watcher) : Value :=
  .map [("debounce_sec", .float s.debounce), ("poll_interval_sec", .float s.pollInterval)]

def Search.toValue (s : Search) : Value :=
  .map [("default_k", .nat s.defaultCount), ("min_index_results", .nat s.minIndexResults),
    ("use_fallback", .bool s.useFallback)]

def Fallback.toValue (s : Fallback) : Value :=
  .map [("executable", .text s.executable), ("max_count_per_file", .nat s.maxCountPerFile),
    ("smart_case", .bool s.smartCase), ("timeout_sec", .float s.timeout),
    ("test_dirs", .texts s.testDirs), ("long_line_threshold", .int s.longLineThreshold)]

def Database.toValue (s : Database) : Value :=
  .map [("busy_timeout_ms", .int s.busyTimeoutMillis), ("max_retries", .int s.maxRetries),
    ("retry_base_delay_sec", .float s.retryBaseDelay)]

def toValue (s : Settings) : Value :=
  .map [("logging", s.logging.toValue), ("server", s.server.toValue), ("index", s.index.toValue),
    ("extractor", s.extractor.toValue), ("watcher", s.watcher.toValue), ("search", s.search.toValue),
    ("fallback", s.fallback.toValue), ("database", s.database.toValue)]

/-- The file that holds the index of a project.  An index in a home that nobody
knows has no such file (see `lacksStore`). -/
def storePath (homes : Homes) (root : Path) (s : Settings) : Path :=
  let dir := match s.index.indexPath with
    | none => { root with names := root.names ++ [layout.stateDir] }
    | some "" => { root with names := root.names ++ [layout.stateDir] }
    | some p =>
      let p := Path.ofString p
      root.under (((Path.expanded homes p).toOption.getD none).getD p)
  { dir with names := dir.names ++ [layout.storeFile] }

/-- Whether the index is in a home that nobody knows, so that whoever asks for its file is stopped. -/
def lacksStore (homes : Homes) (s : Settings) : Bool :=
  match Path.expanded homes (Path.ofString (s.index.indexPath.getD "")) with
  | .ok (some _) => false
  | _ => true

end Settings

end CodeIndex
