import CodeIndex.Failure.Basic

/-!
# Errors of tools

A failure as a tool's caller sees it: one of a few codes, a hint what to do, and whether the index has
to be rebuilt first.
-/

namespace CodeIndex.Tool

inductive Code where
  | invalidParams
  | storeUnavailable
  | schemaMissing
  | extractionFailed
  | internal
  deriving Repr, DecidableEq

namespace Code

def all : List Code :=
  [.invalidParams, .storeUnavailable, .schemaMissing, .extractionFailed, .internal]

def label : Code → String
  | .invalidParams => "INVALID_PARAMS"
  | .storeUnavailable => "STORE_UNAVAILABLE"
  | .schemaMissing => "SCHEMA_MISSING"
  | .extractionFailed => "EXTRACTION_FAILED"
  | .internal => "INTERNAL_ERROR"

def ofLabel? (s : String) : Option Code :=
  all.find? (·.label == s)

def remediation : Code → String
  | .invalidParams => "Fix the request parameters and retry."
  | .storeUnavailable =>
    "Check that the index directory is writable, then call refresh with no paths to rebuild the index."
  | .schemaMissing => "The index has never been built. Call refresh with no paths."
  | .extractionFailed =>
    "Check the extractor command in .contextdex/config.yaml. Queued changes are kept."
  | .internal => "Retry; if it persists, check the server log."

def ofFailure : Failure → Code
  | .configUnreadable .. => .invalidParams
  | .configInvalid .. => .invalidParams
  | .storeUnavailable .. => .storeUnavailable
  | .schemaMissing .. => .schemaMissing
  | .extractorFailed .. => .extractionFailed
  | .templateUnreadable .. => .extractionFailed
  | _ => .internal

end Code

structure Error where
  code : Code
  message : String
  remediation : String
  rebuildRequired : Bool
  context : Value.Members

namespace Error

/-- An error with a code; an empty hint gives way to the code's own. -/
def make (code : Code) (message remediation : String) (rebuildRequired : Bool)
    (context : Value.Members) : Error :=
  { code, message, rebuildRequired, context
    remediation := if remediation == "" then code.remediation else remediation }

/-- Names that no detail of a failure can have. -/
def reservedNames : List String :=
  ["self", "code", "message"]

/-- Whether some detail of a failure has a name that it cannot have. -/
def hasReserved (f : Failure) : Bool :=
  f.details.any fun (k, _) => reservedNames.contains k

/-- A failure as an error.  Its details become the context, except whether a rebuild is required and a
hint of their own. -/
def ofFailure (f : Failure) : Error :=
  make (.ofFailure f) f.message
    (match f.details.get? "remediation" with
      | some (.text hint) => hint
      | _ => "")
    ((f.details.get? "rebuild_required").any Value.isTruthy)
    (Value.Members.erase (f.details.erase "rebuild_required") "remediation")

def toValue (e : Error) : Value :=
  .map [("code", .text e.code.label), ("message", .text e.message),
    ("remediation", .text e.remediation), ("rebuild_required", .bool e.rebuildRequired),
    ("context", .map e.context)]

end Error

end CodeIndex.Tool
