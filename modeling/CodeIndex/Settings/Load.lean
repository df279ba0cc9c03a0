import CodeIndex.Settings.Environment
import CodeIndex.Text.Lines
import CodeIndex.Value.Shown
import CodeIndex.Yaml.Reader

/-!
# Loading settings

Settings come from four places.  The weakest is the file for all projects, then the project's own file,
then the environment, and the strongest are settings given directly; the rest has its defaults.  The
first fault in the result is reported by its place.  Files are read by a reader of YAML that is given with
the sources, and home directories are looked up on a machine that is.
-/

namespace CodeIndex.Settings

/-- A configuration file: its path and, if it exists, its text. -/
structure ConfigFile where
  path : String
  text : Option String
  /-- What stops whoever reads the file, if its text cannot be had. -/
  obstacle : Option Mishap := none
  deriving Repr

/-- The reason given for a file that is not well-formed. -/
def malformedFile : String := "<yaml error>"

/-- The members of a configuration file, and whether their names are all texts. -/
def ConfigFile.read (yaml : Yaml.Reader) (file : ConfigFile) : Except Trouble (Value.Members × Bool) :=
  match file.obstacle, file.text with
  | some m, _ => .error (.mishap m)
  | none, none => .ok ([], true)
  | none, some s =>
    match yaml.read (Text.withLineFeeds s) with
    | .error .malformed => .error (.failure (.configUnreadable file.path malformedFile))
    | .error (.stopped m) => .error (.mishap m)
    | .ok document =>
      if !document.value.isTruthy then .ok ([], true)
      else
        match document.value with
        | .map m => .ok (m, document.hasTextKeys)
        | _ => .error (.failure (.configUnreadable file.path "top-level value must be a mapping"))

/-- Where settings come from, the weakest source first, and what they are read with. -/
structure Sources where
  everywhere : ConfigFile
  project : ConfigFile
  environment : List (String × String) := []
  direct : Value.Members := []
  home : Homes
  yaml : Yaml.Reader := .standard
  /-- How deep the texts of variables are read, and how deep a value that a message shows may be nested. -/
  depth : Nat := Value.depthLimit

/-- A value as a message shows it, if it can be written out. -/
def shown? (depth : Nat) (v : Value) : Except Mishap String :=
  if v.isDeeper depth then .error .nestedTooDeep
  else if v.hasLongInteger then .error (.wrongValue Value.digitFault)
  else .ok v.shown

/-- What ends loading at the first fault of a settings map. -/
def troubleOf (depth : Nat) (fault : Fault) : Trouble :=
  match shown? depth fault.input with
  | .ok value => .failure (.configInvalid fault.location value fault.complaint.message)
  | .error m => .mishap m

/-- The destinations that the members of a settings map name for log lines. -/
def destinations (m : Value.Members) : List String :=
  match (m.get? "logging").bind (·.get? "outputs") with
  | some (.list outputs) => outputs.filterMap fun output =>
    match (output.get? "destination").map Validation.legibleText with
    | some (.ok s) => some s
    | _ => none
  | _ => []

/-- Settings that passed are checked once more as they are written. -/
def recheck (homes : Homes) (s : Settings) : Except Trouble Settings :=
  match ofValue homes s.toValue with
  | .ok s => .ok s
  | .faults _ => .error (.mishap (.other "checked settings do not pass"))

def load (sources : Sources) : Except Trouble Settings := do
  let (everywhere, textKeys) ← sources.everywhere.read sources.yaml
  let (project, textKeys') ← sources.project.read sources.yaml
  let files := Value.merged everywhere project
  let environment ← (ofEnvironment sources.environment sources.depth).mapError .mishap
  if !(textKeys && textKeys') then
    throw (.mishap (.wrongType "keywords must be strings"))
  let all := Value.merged files (Value.merged environment sources.direct)
  if (destinations all).any fun s => (Path.ofString s).isHomeless sources.home then
    throw (.mishap (.other unknownHome))
  match ofSections sources.home all with
  | .ok s => recheck sources.home s
  | .faults [] => throw (.failure (.internal "no fault" []))
  | .faults (fault :: _) => throw (troubleOf sources.depth fault)

end CodeIndex.Settings
