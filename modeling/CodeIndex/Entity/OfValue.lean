import CodeIndex.Entity.Basic
import CodeIndex.Text.Pieces
import CodeIndex.Validation.Scalar
import CodeIndex.Value.Json
import CodeIndex.Value.Shown

/-!
# Entities from values

What an extractor emits is taken for an entity with some leniency: older spellings of members count
where the newer ones are missing, documentation that is not a text is kept as JSON, references lose
their repeats.  The result is in normal form: it has an identity, and it does not end before it starts.
-/

namespace CodeIndex.Entity

open CodeIndex.Validation

variable {α : Type}

/-- Kinds by their written forms, older ones included; a missing kind is a definition. -/
def kindOf : Value → Checked Kind
  | .null => .ok .definition
  | .text s =>
    let s := if s == "function" then Kind.definition.label
      else if s == "macro" then Kind.macroDefinition.label
      else s
    match Kind.ofLabel? s with
    | some k => .ok k
    | none => .complain (.kind (Kind.all.map Kind.label)) (.text s)
  | v => .complain (.kind (Kind.all.map Kind.label)) v

/-- Documentation: a text as it is, anything else as JSON. -/
def docOf : Value → Checked (Option Writing)
  | .null => .ok none
  | .text s => .ok (some s)
  | .broken points => .ok (some (.broken points))
  | v => .ok (some v.json)

def mentionOf : Value → Writing
  | .broken points => .broken points
  | v => .whole v.shown

/-- References: each item by its text, without repeats. -/
def referencesOf : Value → Checked (List Writing)
  | .null => .ok []
  | .list items => .ok (Text.distinct (items.map mentionOf))
  | v => .complain .listType v

/-- A member that may have an older spelling and has to be there. -/
def requiredSpelled (members : Value.Members) (names : List String) (check : Value → Checked α) :
    Checked α :=
  match spelled? members names with
  | some (name, v) => (check v).inside (.key name)
  | none => Checked.inside (.key (names.headD "")) (.complain .missing (.map members))

/-- A member that may have an older spelling, with a default. -/
def memberSpelled (members : Value.Members) (names : List String) (check : Value → Checked α)
    (default : α) : Checked α :=
  match spelled? members names with
  | some (name, v) => (check v).inside (.key name)
  | none => .ok default

/-- The last line of an entity: never before its first one. -/
def lastLine (start : Nat) (stop : Option Int) : Nat :=
  match stop with
  | none => start
  | some n => if n < start then max start (max n 0).toNat else n.toNat

def build (id container name : Writing) (arity : Nat) (kind : Kind) (path : Writing)
    (startLine : Nat) (endLine : Option Int) (signature doc spec : Option Writing)
    (lexicalText : Writing) (rawText : Option Writing) (references : List Writing) : Draft :=
  { id, container, name, arity, kind, path, startLine
    endLine := lastLine startLine endLine
    signature, doc, spec, lexicalText, rawText, references }

def describedBy (d : Draft) : Writing :=
  (d.container.append "|").append <| (d.name.append ("|" ++ toString d.arity ++ "|")).append d.path

/-- A draft with an identity: that which its record states, or else the hash of what it describes, which
has to be encoded for that. -/
def identified (input : Value) (d : Draft) : Checked Draft :=
  if d.id == .whole "" then
    match describedBy d with
    | .whole s => .ok { d with id := .whole (Digest.sha256 s) }
    | .broken points => .complain (.rule (Writing.encodingFault points)) input
  else .ok d

end CodeIndex.Entity

namespace CodeIndex

open CodeIndex.Validation Entity

def Draft.ofMembers (m : Value.Members) : Checked Draft :=
  (build <$> member m "id" text ""
    <*> requiredSpelled m ["container", "module"] text
    <*> required m "name" text
    <*> required m "arity" natural
    <*> member m "kind" kindOf .definition
    <*> Writing.whole <$> required m "path" nonEmptyText
    <*> required m "start_line" natural
    <*> member m "end_line" (optional int) none
    <*> member m "signature" (optional text) none
    <*> member m "doc" docOf none
    <*> member m "spec" docOf none
    <*> member m "lexical_text" text ""
    <*> memberSpelled m ["raw_text", "struct_text"] (optional text) none
    <*> memberSpelled m ["references", "calls"] referencesOf []).andThen
    (identified (.map m))

def Draft.ofValue (v : Value) : Checked Draft :=
  match v with
  | .map members => Draft.ofMembers members
  | _ => .complain (.objectType "Entity") v

def Entity.ofValue (v : Value) : Checked Entity :=
  (Draft.ofValue v).andThen fun d =>
    match d.whole? with
    | some e => .ok e
    | none => .complain .stringUnicode v

end CodeIndex
