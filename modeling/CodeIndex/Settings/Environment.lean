import CodeIndex.Failure.Basic
import CodeIndex.Settings.OfValue
import CodeIndex.Text.Case
import CodeIndex.Value.JsonReader
import CodeIndex.Value.Merge

/-!
# Settings in the environment

A variable `contextdex__section` holds a section in JSON, and `contextdex__section__key` one setting of
it, upper and lower case being the same.  A setting that is a list is written in JSON, any other as
plain text.
-/

namespace CodeIndex.Settings

def variableStart : String := "contextdex__"

/-- The settings of each section, and whether each is written in JSON. -/
def settingNames : List (String × List (String × Bool)) :=
  [("logging", [("level", false), ("outputs", true)]),
   ("server", [("host", false), ("port", false), ("shutdown_timeout_sec", false)]),
   ("index", [("index_path", false), ("source_extensions", true), ("template_extensions", true),
     ("excluded_dirs", true), ("primary_source_dirs", true)]),
   ("extractor", [("command", true), ("files_flag", false), ("timeout_sec", false)]),
   ("watcher", [("debounce_sec", false), ("poll_interval_sec", false)]),
   ("search", [("default_k", false), ("min_index_results", false), ("use_fallback", false)]),
   ("fallback", [("executable", false), ("max_count_per_file", false), ("smart_case", false),
     ("timeout_sec", false), ("test_dirs", true), ("long_line_threshold", false)]),
   ("database", [("busy_timeout_ms", false), ("max_retries", false),
     ("retry_base_delay_sec", false)])]

def steps (s : String) : List String :=
  go [] s.toList
where
  go (piece : List Char) : List Char → List String
    | [] => [String.ofList piece.reverse]
    | '_' :: '_' :: rest => String.ofList piece.reverse :: go [] rest
    | c :: rest => go (c :: piece) rest

/-- Sets the value at the end of a chain of keys, maps being made on the way; nothing changes if
something else than a map is in the way. -/
def setAt (m : Value.Members) (last : String) (v : Value) : List String → Value.Members
  | [] => m.set last v
  | key :: rest =>
    match m.get? key with
    | none => m.set key (.map (setAt [] last v rest))
    | some (.map inner) => m.set key (.map (setAt inner last v rest))
    | some _ => m

def jsonOf (depth : Nat) (name text : String) : Except Mishap Value :=
  match Value.ofJson? text depth with
  | .ok v => .ok v
  | .error .tooDeep => .error .nestedTooDeep
  | .error _ => .error (.unreadableVariable name)

def settingValue (depth : Nat) (name : String) (fields : List (String × Bool)) (keys : List String)
    (last text : String) : Except Mishap Value :=
  if keys.isEmpty && fields.lookup last == some true && text != "" then jsonOf depth name text
  else .ok (.text text)

def singleSettings (depth : Nat) (name : String) (fields : List (String × Bool)) :
    List (String × String) → Value.Members → Except Mishap Value.Members
  | [], m => .ok m
  | (entry, text) :: rest, m =>
    let start := variableStart ++ name ++ "__"
    if Text.startsWith entry start then do
      let path := steps (Text.withoutStart entry start)
      let last := path.getLast?.getD ""
      let v ← settingValue depth name fields path.dropLast last text
      singleSettings depth name fields rest (setAt m last v path.dropLast)
    else singleSettings depth name fields rest m

def respelled (fields : List (String × Bool)) (m : Value.Members) : Value.Members :=
  Value.Members.ofPairs (m.map fun (k, v) =>
    ((((fields.map (·.1)).find? (· == Text.lower k)).getD k), v))

/-- What the environment says about one section, if anything. -/
def sectionOf (depth : Nat) (entries : List (String × String)) (name : String) (fields : List (String × Bool)) :
    Except Mishap (Option Value) :=
  match entries.lookup (variableStart ++ name) with
  | none => do
    let m ← singleSettings depth name fields entries []
    return if m.isEmpty then none else some (.map (respelled fields m))
  | some text => do
    match ← jsonOf depth name text with
    | .map base =>
      let m ← singleSettings depth name fields entries []
      return some (.map (respelled fields (Value.merged base m)))
    | .null => return none
    | v => return some v

/-- Variables by their names in lower case; of two with one name the later counts. -/
def foldCase (entries : List (String × String)) : List (String × String) :=
  entries.foldl (fun seen (name, text) =>
    let name := Text.lower name
    if (seen.lookup name).isSome then seen.map fun (n, t) => (n, if n == name then text else t)
    else seen ++ [(name, text)]) []

def ofEnvironment (entries : List (String × String)) (depth : Nat := Value.depthLimit) :
    Except Mishap Value.Members :=
  go (foldCase entries) settingNames
where
  go (entries : List (String × String)) :
      List (String × List (String × Bool)) → Except Mishap Value.Members
    | [] => .ok []
    | (name, fields) :: rest =>
      match sectionOf depth entries name fields with
      | .error e => .error e
      | .ok none => go entries rest
      | .ok (some v) => (go entries rest).map ((name, v) :: ·)

end CodeIndex.Settings
