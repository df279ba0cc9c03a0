import CodeIndex.Settings.Basic
import CodeIndex.Text.Pieces
import CodeIndex.Validation.Scalar
import CodeIndex.Value.Shown

/-!
# Settings from values

How a value is checked and becomes settings.  Members that a section does not know say nothing;
missing ones take their defaults.
-/

namespace CodeIndex.Settings

open CodeIndex.Validation

variable {α : Type}

/-- A section: a map whose members are checked. -/
def checkedSection (name : String) (check : Value.Members → Checked α) (v : Value) : Checked α :=
  match v with
  | .map members => check members
  | _ => .complain (.objectType name) v

def logForm (v : Value) : Checked LogForm :=
  (option ["json", "console"] v).map fun s => if s == "json" then .json else .console

def unknownHome : String := "Could not determine home directory."

/-- Where log lines go: one of the two streams, or a file with an absolute path. -/
def destination (homes : Homes) (v : Value) : Checked String :=
  (legibleText v).andThen fun s =>
    if s == "stderr" || s == "stdout" then .ok s
    else
      match Path.expanded homes (Path.ofString s) with
      | .ok (some path) =>
        if path.isAbsolute then .ok path.toString
        else .complain (.rule ("File destination must be absolute path: " ++ s)) v
      | .ok none => .complain (.rule unknownHome) v
      | .error reason => .complain (.rule reason) v

def logOutput (homes : Homes) : Value → Checked LogOutput :=
  checkedSection "LogOutputConfig" fun m =>
    LogOutput.mk <$> member m "format" logForm .console
      <*> member m "destination" (destination homes) "stderr"
      <*> member m "level" (optional (option levelNames)) none

def logging? (homes : Homes) : Value → Checked Logging :=
  checkedSection "LoggingConfig" fun m =>
    Logging.mk <$> member m "level" (option levelNames) "INFO"
      <*> member m "outputs" (list (logOutput homes)) [{}]

/-- What is said of a number that is no port.  It would show the number, which may be too long for that. -/
def portFault (n : Int) : String :=
  if (Value.int n).hasLongInteger then Value.digitFault else "Port must be 0-65535, got " ++ toString n

def port (v : Value) : Checked Nat :=
  (int v).andThen fun n =>
    if 0 ≤ n && n ≤ 65535 then .ok n.toNat else .complain (.rule (portFault n)) v

def server? : Value → Checked Server :=
  checkedSection "ServerConfig" fun m =>
    Server.mk <$> member m "host" legibleText "127.0.0.1"
      <*> member m "port" port 7655
      <*> member m "shutdown_timeout_sec" float 5.0

def dotted (extension : String) : String :=
  if Text.startsWith extension "." then extension else "." ++ extension

def extensions (v : Value) : Checked (List String) :=
  (list legibleText v).map (List.map dotted)

def index? : Value → Checked Index :=
  let d : Index := {}
  checkedSection "IndexConfig" fun m =>
    Index.mk <$> member m "index_path" (optional legibleText) none
      <*> member m "source_extensions" extensions d.sourceExtensions
      <*> member m "template_extensions" extensions d.templateExtensions
      <*> member m "excluded_dirs" (list legibleText) d.excludedDirs
      <*> member m "primary_source_dirs" (list legibleText) d.primarySourceDirs

def extractor? : Value → Checked Extractor :=
  checkedSection "ExtractorConfig" fun m =>
    Extractor.mk <$> member m "command" (list legibleText) []
      <*> member m "files_flag" legibleText "--files"
      <*> member m "timeout_sec" float 300.0

def watcher? : Value → Checked Watcher :=
  checkedSection "WatcherConfig" fun m =>
    Watcher.mk <$> member m "debounce_sec" float 0.5
      <*> member m "poll_interval_sec" float 1.0

def search? : Value → Checked Search :=
  checkedSection "SearchConfig" fun m =>
    Search.mk <$> member m "default_k" (fun v => (intFrom 1 v).map Int.toNat) 10
      <*> member m "min_index_results" natural 2
      <*> member m "use_fallback" bool true

def fallback? : Value → Checked Fallback :=
  checkedSection "FallbackConfig" fun m =>
    Fallback.mk <$> member m "executable" legibleText "rg"
      <*> member m "max_count_per_file" (fun v => (intFrom 1 v).map Int.toNat) 3
      <*> member m "smart_case" bool true
      <*> member m "timeout_sec" float 10.0
      <*> member m "test_dirs" (list legibleText) ["test"]
      <*> member m "long_line_threshold" int 200

def database? : Value → Checked Database :=
  checkedSection "DatabaseConfig" fun m =>
    Database.mk <$> member m "busy_timeout_ms" int 30000
      <*> member m "max_retries" int 3
      <*> member m "retry_base_delay_sec" float 0.1

def ofMembers (homes : Homes) (m : Value.Members) : Checked Settings :=
  Settings.mk <$> member m "logging" (logging? homes) {}
    <*> member m "server" server? {}
    <*> member m "index" index? {}
    <*> member m "extractor" extractor? {}
    <*> member m "watcher" watcher? {}
    <*> member m "search" search? {}
    <*> member m "fallback" fallback? {}
    <*> member m "database" database? {}

def ofValue (homes : Homes) : Value → Checked Settings :=
  checkedSection "ContextdexConfig" (ofMembers homes)

def sectionNames : List String :=
  ["logging", "server", "index", "extractor", "watcher", "search", "fallback", "database"]

/-- Complaints about members that are no section. -/
def strangers (m : Value.Members) : Checked Unit :=
  match m.filter fun (k, _) => !sectionNames.contains k with
  | [] => .ok ()
  | strange => .faults (strange.map fun (k, v) => ⟨[.key k], .extraForbidden, v⟩)

/-- Settings from the members of a map that may hold nothing but sections. -/
def ofSections (homes : Homes) (m : Value.Members) : Checked Settings :=
  (fun s () => s) <$> ofMembers homes m <*> strangers m

end CodeIndex.Settings
