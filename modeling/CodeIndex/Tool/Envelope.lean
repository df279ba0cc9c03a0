import CodeIndex.Tool.Error
import CodeIndex.Validation.Fault

/-!
# Envelopes

The answer to a call: its result, or what kept it from one.
-/

namespace CodeIndex.Tool

inductive Ending where
  | returned (result : Value.Members)
  | failed (f : Failure)
  /-- An error that is meant for the caller as it is. -/
  | refused (e : Error)
  /-- Anything else, by its kind and its sentence. -/
  | broken (kind message : String)

inductive Envelope where
  | success (result : Value.Members)
  /-- The parameters are not right. -/
  | invalid (faults : List Fault)
  | failure (e : Error)

namespace Envelope

def faultLimit : Nat := 5

def faultValue (f : Fault) : Value :=
  .map [("field", .text f.location), ("message", .text f.complaint.message)]

def firstFault (faults : List Fault) : String :=
  match faults with
  | [] => ""
  | f :: _ => f.complaint.message

def toValue : Envelope → Value
  | .success result =>
    .map [("result", .map result), ("meta", .map []), ("success", .bool true), ("error", .null)]
  | .invalid faults =>
    .map [("result", .null),
      ("meta", .map [("error_type", .text "validation"),
        ("validation_errors", .list ((faults.take faultLimit).map faultValue))]),
      ("success", .bool false), ("error", .text ("Validation error: " ++ firstFault faults))]
  | .failure e =>
    .map [("result", .null), ("meta", .map [("error", e.toValue)]), ("success", .bool false),
      ("error", .text e.message)]

end Envelope

end CodeIndex.Tool
