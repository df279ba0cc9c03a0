import CodeIndex.Value.Basic

/-!
# Validation faults

What can be wrong with a value that should have a given shape, where it is wrong, and the wording.  A
`Checked` result holds a value or all the faults that were found: parts that are checked side by side
report their faults together, in order.
-/

namespace CodeIndex

inductive Place where
  | key (name : String)
  | index (i : Nat)
  deriving Repr, DecidableEq

def Place.toString : Place → String
  | .key name => name
  | .index i => Nat.repr i

inductive Complaint where
  | missing
  | extraForbidden
  | stringType
  | stringUnicode
  | stringTooShort
  | intType
  | intParsing
  | intParsingSize
  | intFromFloat
  | finiteNumber
  | atLeast (bound : Int)
  | atMost (bound : Int)
  | boolType
  | boolParsing
  | floatType
  | floatParsing
  | listType
  | objectType (name : String)
  | option (options : List String)
  | kind (options : List String)
  | rule (message : String)
  deriving Repr, DecidableEq

def choiceText (options : List String) : String :=
  let shown := options.map fun o => "'" ++ o ++ "'"
  match shown.getLast? with
  | none => ""
  | some last => if shown.length < 2 then last else ", ".intercalate shown.dropLast ++ " or " ++ last

def Complaint.code : Complaint → String
  | .missing => "missing"
  | .extraForbidden => "extra_forbidden"
  | .stringType => "string_type"
  | .stringUnicode => "string_unicode"
  | .stringTooShort => "string_too_short"
  | .intType => "int_type"
  | .intParsing => "int_parsing"
  | .intParsingSize => "int_parsing_size"
  | .intFromFloat => "int_from_float"
  | .finiteNumber => "finite_number"
  | .atLeast _ => "greater_than_equal"
  | .atMost _ => "less_than_equal"
  | .boolType => "bool_type"
  | .boolParsing => "bool_parsing"
  | .floatType => "float_type"
  | .floatParsing => "float_parsing"
  | .listType => "list_type"
  | .objectType _ => "model_type"
  | .option _ => "literal_error"
  | .kind _ => "enum"
  | .rule _ => "value_error"

def Complaint.message : Complaint → String
  | .missing => "Field required"
  | .extraForbidden => "Extra inputs are not permitted"
  | .stringType => "Input should be a valid string"
  | .stringUnicode => "Input should be a valid string, unable to parse raw data as a unicode string"
  | .stringTooShort => "String should have at least 1 character"
  | .intType => "Input should be a valid integer"
  | .intParsing => "Input should be a valid integer, unable to parse string as an integer"
  | .intParsingSize => "Unable to parse input string as an integer, exceeded maximum size"
  | .intFromFloat => "Input should be a valid integer, got a number with a fractional part"
  | .finiteNumber => "Input should be a finite number"
  | .atLeast bound => s!"Input should be greater than or equal to {bound}"
  | .atMost bound => s!"Input should be less than or equal to {bound}"
  | .boolType => "Input should be a valid boolean"
  | .boolParsing => "Input should be a valid boolean, unable to interpret input"
  | .floatType => "Input should be a valid number"
  | .floatParsing => "Input should be a valid number, unable to parse string as a number"
  | .listType => "Input should be a valid list"
  | .objectType name => s!"Input should be a valid dictionary or instance of {name}"
  | .option options => "Input should be " ++ choiceText options
  | .kind options => "Input should be " ++ choiceText options
  | .rule message => "Value error, " ++ message

/-- A complaint about the part of a value that the places lead to; `input` is what was found there. -/
structure Fault where
  places : List Place
  complaint : Complaint
  input : Value
  deriving Repr

def Fault.inside (place : Place) (fault : Fault) : Fault :=
  { fault with places := place :: fault.places }

def Fault.location (fault : Fault) : String :=
  ".".intercalate (fault.places.map Place.toString)

/-- A value, or everything that is wrong with the input for it. -/
inductive Checked (α : Type) where
  | ok (value : α)
  | faults (faults : List Fault)

namespace Checked

variable {α β : Type}

def complain (complaint : Complaint) (input : Value) : Checked α :=
  .faults [⟨[], complaint, input⟩]

def map (f : α → β) : Checked α → Checked β
  | .ok x => .ok (f x)
  | .faults fs => .faults fs

/-- Two parts side by side: the faults of both count, in order. -/
def both (f : Checked (α → β)) (x : Checked α) : Checked β :=
  match f, x with
  | .ok f, .ok x => .ok (f x)
  | .faults fs, .ok _ => .faults fs
  | .ok _, .faults gs => .faults gs
  | .faults fs, .faults gs => .faults (fs ++ gs)

instance : Functor Checked where
  map := Checked.map

instance : Applicative Checked where
  pure := .ok
  seq f x := both f (x ())

def andThen (x : Checked α) (f : α → Checked β) : Checked β :=
  match x with
  | .ok x => f x
  | .faults fs => .faults fs

def inside (place : Place) : Checked α → Checked α
  | .ok x => .ok x
  | .faults fs => .faults (fs.map (Fault.inside place))

def all (f : β → Checked α) (items : List β) (start : Nat) : Checked (List α) :=
  match items with
  | [] => .ok []
  | v :: rest => both ((f v).inside (.index start) |>.map List.cons) (all f rest (start + 1))

end Checked

end CodeIndex
