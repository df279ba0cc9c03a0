import CodeIndex.Digest.Sha256
import CodeIndex.Value.Basic

/-!
# Entities

An entity is one structural unit found in the code: a definition, a macro, a module, a template.  Its
identity hashes where it lives and what it is called, never its line numbers, and its reference is the
text by which other entities point to it.
-/

namespace CodeIndex

inductive Kind where
  | definition
  | privateDefinition
  | macroDefinition
  | macroInvocation
  | declaration
  | module
  | template
  | usingDirective
  deriving Repr, DecidableEq, Inhabited

namespace Kind

/-- All kinds, in the order in which messages list them. -/
def all : List Kind :=
  [.definition, .privateDefinition, .macroDefinition, .macroInvocation, .declaration, .module,
   .template, .usingDirective]

def label : Kind → String
  | .definition => "definition"
  | .privateDefinition => "private-definition"
  | .macroDefinition => "macro-definition"
  | .macroInvocation => "macro-invocation"
  | .declaration => "declaration"
  | .module => "module"
  | .template => "template"
  | .usingDirective => "using-directive"

def ofLabel? (s : String) : Option Kind :=
  all.find? (·.label == s)

theorem ofLabel?_label (k : Kind) : ofLabel? k.label = some k := by
  cases k <;> decide

end Kind

def identityText (container name : String) (arity : Int) (path : String) : String :=
  container ++ "|" ++ name ++ "|" ++ toString arity ++ "|" ++ path

/-- The identity of what a container, name, arity and path describe. -/
def identity (container name : String) (arity : Int) (path : String) : String :=
  Digest.sha256 (identityText container name arity path)

def referenceText (container name : String) (arity : Option Int) : String :=
  container ++ "." ++ name ++ "/" ++
    match arity with
    | some n => toString n
    | none => "None"

/-- One structural unit of the code.  What is stored has texts of characters only. -/
structure Entity (τ : Type := String) where
  id : τ
  container : τ
  name : τ
  arity : Nat
  kind : Kind := .definition
  path : τ
  startLine : Nat
  endLine : Nat
  signature : Option τ := none
  doc : Option τ := none
  spec : Option τ := none
  lexicalText : τ
  rawText : Option τ := none
  references : List τ := []
  deriving Repr, DecidableEq, Inhabited

/-- An entity as a record gives it: its texts may be any that a program may hold. -/
abbrev Draft := Entity Writing

namespace Entity

variable {τ υ : Type}

def reference (e : Entity) : String :=
  referenceText e.container e.name (some e.arity)

def map (f : τ → υ) (e : Entity τ) : Entity υ :=
  { id := f e.id, container := f e.container, name := f e.name, arity := e.arity, kind := e.kind
    path := f e.path, startLine := e.startLine, endLine := e.endLine
    signature := e.signature.map f, doc := e.doc.map f, spec := e.spec.map f
    lexicalText := f e.lexicalText, rawText := e.rawText.map f, references := e.references.map f }

def draft (e : Entity) : Draft :=
  e.map .whole

def texts (e : Entity τ) : List τ :=
  [e.id, e.container, e.name, e.path, e.lexicalText] ++ e.signature.toList ++ e.doc.toList
    ++ e.spec.toList ++ e.rawText.toList ++ e.references

section

variable [Textual τ]

def toMembers (e : Entity τ) : Value.Members :=
  [("id", Textual.value e.id), ("container", Textual.value e.container),
   ("name", Textual.value e.name), ("arity", .nat e.arity), ("kind", .text e.kind.label),
   ("path", Textual.value e.path), ("start_line", .nat e.startLine), ("end_line", .nat e.endLine),
   ("signature", Textual.value? e.signature), ("doc", Textual.value? e.doc),
   ("spec", Textual.value? e.spec), ("lexical_text", Textual.value e.lexicalText),
   ("raw_text", Textual.value? e.rawText),
   ("references", .list (e.references.map Textual.value))]

def toValue (e : Entity τ) : Value :=
  .map e.toMembers

/-- The fields that its row in the entity table holds, in the order of the columns. -/
def rowValues (e : Entity τ) : List Value :=
  [Textual.value e.id, Textual.value e.container, Textual.value e.name, .nat e.arity,
   .text e.kind.label, Textual.value e.path, .nat e.startLine, .nat e.endLine,
   Textual.value? e.signature, Textual.value? e.spec, Textual.value? e.doc,
   Textual.value e.lexicalText, Textual.value? e.rawText]

end

end Entity

def Entity.whole? (d : Draft) : Option Entity :=
  if d.texts.all (·.whole?.isSome) then some (d.map Writing.legible) else none

end CodeIndex
