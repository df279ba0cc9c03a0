import CodeIndex.Value.Basic

/-!
# Failures

What can go wrong, by cause.  Every failure has a number, a name, a sentence, a note whether trying
again may help, and details for programs.  A `Mishap` is a stop that no part of the library plans for;
it is known by a name and a sentence only.
-/

namespace CodeIndex

inductive Failure where
  /-- A configuration file cannot be read. -/
  | configUnreadable (path reason : String)
  /-- A setting has a value that it cannot have; `value` is the value's text. -/
  | configInvalid (field value reason : String)
  /-- The store cannot be opened or written. -/
  | storeUnavailable (dbPath reason : String)
  /-- The store was never built. -/
  | schemaMissing (dbPath : String)
  /-- A record is not readable or not complete. -/
  | recordMalformed (line : Option Int) (reason : String) (source : Option String)
  /-- The extractor program gave no records for a batch. -/
  | extractorFailed (command : List String) (reason : String) (exitCode : Option Int)
  /-- A template file cannot be read. -/
  | templateUnreadable (path reason : String)
  /-- The line search cannot run. -/
  | fallbackUnavailable (reason : String) (exitCode : Option Int)
  | internal (reason : String) (details : Value.Members)
  deriving Inhabited

namespace Failure

/-- The number of a failure: 2xxx for configuration, 3xxx for the index, 9xxx for the rest. -/
def code : Failure → Nat
  | .configUnreadable .. => 2001
  | .configInvalid .. => 2002
  | .storeUnavailable .. => 3001
  | .schemaMissing .. => 3002
  | .recordMalformed .. => 3003
  | .extractorFailed .. => 3004
  | .templateUnreadable .. => 3004
  | .fallbackUnavailable .. => 3005
  | .internal .. => 9001

def name : Failure → String
  | .configUnreadable .. => "CONFIG_PARSE_ERROR"
  | .configInvalid .. => "CONFIG_INVALID_VALUE"
  | .storeUnavailable .. => "STORE_UNAVAILABLE"
  | .schemaMissing .. => "SCHEMA_MISSING"
  | .recordMalformed .. => "RECORD_MALFORMED"
  | .extractorFailed .. => "EXTRACTION_FAILED"
  | .templateUnreadable .. => "EXTRACTION_FAILED"
  | .fallbackUnavailable .. => "FALLBACK_UNAVAILABLE"
  | .internal .. => "INTERNAL_ERROR"

def recordPlace (line : Option Int) (source : Option String) : String :=
  let place := match line with
    | some n => "line " ++ toString n
    | none => "record"
  match source with
  | some s => if s == "" then place else s ++ ":" ++ place
  | none => place

def message : Failure → String
  | .configUnreadable path reason => "Failed to parse config at " ++ path ++ ": " ++ reason
  | .configInvalid field _ reason => "Invalid value for '" ++ field ++ "': " ++ reason
  | .storeUnavailable dbPath reason => "Index store unavailable at " ++ dbPath ++ ": " ++ reason
  | .schemaMissing dbPath => "Index schema missing in " ++ dbPath ++ ". Run a full rebuild first."
  | .recordMalformed line reason source =>
    "Malformed record at " ++ recordPlace line source ++ ": " ++ reason
  | .extractorFailed _ reason _ => "Extractor failed: " ++ reason
  | .templateUnreadable path reason => "Cannot read " ++ path ++ ": " ++ reason
  | .fallbackUnavailable reason _ => "Fallback search unavailable: " ++ reason
  | .internal reason _ => "Internal error: " ++ reason

def retryable : Failure → Bool
  | .storeUnavailable .. => true
  | .extractorFailed .. => true
  | .templateUnreadable .. => true
  | .fallbackUnavailable .. => true
  | _ => false

def details : Failure → Value.Members
  | .configUnreadable path reason => [("path", .text path), ("reason", .text reason)]
  | .configInvalid field value reason =>
    [("field", .text field), ("value", .text value), ("reason", .text reason)]
  | .storeUnavailable dbPath reason =>
    [("db_path", .text dbPath), ("reason", .text reason), ("rebuild_required", .bool false)]
  | .schemaMissing dbPath => [("db_path", .text dbPath), ("rebuild_required", .bool true)]
  | .recordMalformed line reason source =>
    [("line", .ofInt? line), ("source", .ofText? source), ("reason", .text reason)]
  | .extractorFailed command reason exitCode =>
    [("command", .texts command), ("exit_code", .ofInt? exitCode), ("reason", .text reason)]
  | .templateUnreadable path reason => [("path", .text path), ("reason", .text reason)]
  | .fallbackUnavailable reason exitCode =>
    [("reason", .text reason), ("exit_code", .ofInt? exitCode)]
  | .internal _ details => details

def toString (f : Failure) : String :=
  "[" ++ Nat.repr f.code ++ "] " ++ f.name ++ ": " ++ f.message

def toMembers (f : Failure) : Value.Members :=
  [("code", .nat f.code), ("error", .text f.name), ("message", .text f.message),
   ("retryable", .bool f.retryable), ("details", .map f.details)]

end Failure

/-- A stop that no part plans for. -/
inductive Mishap where
  /-- A member was asked of a value that has none. -/
  | notAnObject (typeName : String)
  /-- A value of the wrong type where only its use shows it. -/
  | wrongType (message : String)
  /-- A value out of range where only its use shows it. -/
  | wrongValue (message : String)
  /-- An integer that the store cannot hold. -/
  | integerTooLarge
  /-- An infinite number where an integer is needed. -/
  | infiniteInteger
  /-- A number beyond the range in which it is needed. -/
  | beyondRange (message : String)
  /-- A text that no encoding has. -/
  | notEncodable (points : List Nat)
  /-- More values than one query of the database engine takes. -/
  | tooManyVariables
  /-- The store file is no database. -/
  | notADatabase
  /-- The store file is a damaged database. -/
  | malformedFile
  /-- The store file cannot be opened. -/
  | cannotOpen
  /-- Another holds the lock of the store. -/
  | locked
  /-- Whatever else the database engine reports; the sentence quotes its statement with the values. -/
  | database (name message : String)
  /-- A text nested deeper than the reader goes. -/
  | nestedTooDeep
  /-- A file that is not text. -/
  | notText
  /-- No attempt at the write lock was allowed. -/
  | noAttempt
  /-- An environment variable that should hold JSON for a setting does not. -/
  | unreadableVariable (field : String)
  /-- What a part of another library stops with. -/
  | raised (name message : String)
  /-- Anything else, by its sentence. -/
  | other (message : String)
  deriving Repr, DecidableEq

namespace Mishap

def name : Mishap → String
  | .notAnObject _ => "AttributeError"
  | .wrongType _ => "TypeError"
  | .wrongValue _ => "ValueError"
  | .integerTooLarge => "OverflowError"
  | .infiniteInteger => "OverflowError"
  | .beyondRange _ => "OverflowError"
  | .notEncodable _ => "UnicodeEncodeError"
  | .tooManyVariables => "OperationalError"
  | .notADatabase => "DatabaseError"
  | .malformedFile => "DatabaseError"
  | .cannotOpen => "OperationalError"
  | .locked => "OperationalError"
  | .database name _ => name
  | .nestedTooDeep => "RecursionError"
  | .notText => "UnicodeDecodeError"
  | .noAttempt => "AssertionError"
  | .unreadableVariable _ => "SettingsError"
  | .raised name _ => name
  | .other _ => "RuntimeError"

def message : Mishap → String
  | .notAnObject typeName => "'" ++ typeName ++ "' object has no attribute 'get'"
  | .wrongType message => message
  | .wrongValue message => message
  | .integerTooLarge => "Python int too large to convert to SQLite INTEGER"
  | .infiniteInteger => "cannot convert float infinity to integer"
  | .beyondRange message => message
  | .notEncodable points => Writing.encodingFault points
  | .tooManyVariables => "(sqlite3.OperationalError) too many SQL variables"
  | .notADatabase => "(sqlite3.DatabaseError) file is not a database"
  | .malformedFile => "(sqlite3.DatabaseError) database disk image is malformed"
  | .cannotOpen => "(sqlite3.OperationalError) unable to open database file"
  | .locked => "(sqlite3.OperationalError) database is locked"
  | .database _ message => message
  | .nestedTooDeep => "maximum recursion depth exceeded"
  | .notText => "invalid text"
  | .noAttempt => "unreachable"
  | .unreadableVariable field =>
    "error parsing value for field \"" ++ field ++ "\" from source \"EnvSettingsSource\""
  | .raised _ message => message
  | .other message => message

end Mishap

def Writing.encoded : Writing → Except Mishap String
  | .whole s => .ok s
  | .broken points => .error (.notEncodable points)

inductive Trouble where
  | failure (f : Failure)
  | mishap (m : Mishap)

def Trouble.toString : Trouble → String
  | .failure f => f.toString
  | .mishap m => m.message

end CodeIndex
