import CodeIndex.LineSearch.Basic
import CodeIndex.Store.Basic

/-!
# Search results

What a search answers: hits of the index first, and behind them matches of the line search at places
that no hit has.
-/

namespace CodeIndex.Search

inductive Source where
  | index
  | template
  | fallback
  deriving Repr, DecidableEq

def Source.label : Source → String
  | .index => "index"
  | .template => "template"
  | .fallback => "fallback"

/-- One result.  A match of the line search has neither identity nor arity nor kind. -/
structure Result where
  id : Option String
  container : String
  name : Option String
  arity : Option Nat
  kind : Option Kind
  path : String
  startLine : Int
  endLine : Int
  score : Float
  source : Source
  context : Option String

def maxCount : Int := 100

namespace Result

def toValue (r : Result) : Value :=
  .map [("id", .ofText? r.id), ("container", .text r.container), ("name", .ofText? r.name),
    ("arity", .ofInt? (r.arity.map Int.ofNat)), ("kind", .ofText? (r.kind.map Kind.label)),
    ("path", .text r.path), ("start_line", .int r.startLine), ("end_line", .int r.endLine),
    ("score", .float r.score), ("source", .text r.source.label), ("context", .ofText? r.context)]

def place (r : Result) : String × Int :=
  (r.path, r.startLine)

def ofHit (h : Store.Hit) : Result :=
  let e := h.entity
  { id := some e.id, container := e.container, name := some e.name, arity := some e.arity
    kind := some e.kind, path := e.path, startLine := e.startLine, endLine := e.endLine
    score := h.score, source := if e.kind == .template then .template else .index
    context := e.signature }

def ofMatch (s : Settings.Index) (m : LineSearch.Match) : Result :=
  { id := none
    container := LineSearch.containerOf m.path s.primarySourceDirs s.extensions
    name := LineSearch.definedName? m.text, arity := none, kind := none, path := m.path
    startLine := m.line, endLine := m.line, score := Validation.floatOfInt m.score
    source := .fallback, context := some m.text }

end Result

/-- The number of results asked for, within the most that are given. -/
def limitOf (k : Int) : Int :=
  min k maxCount

/-- Whether a search is content with the hits of the index. -/
def isEnough (s : Settings.Search) (hits : List Store.Hit) (useFallback : Bool) : Bool :=
  s.minIndexResults ≤ hits.length || !useFallback

/-- Hits and matches together: of several results at one place the first stays. -/
def together (s : Settings.Index) (hits : List Store.Hit) (found : List LineSearch.Match) :
    List Result :=
  LineSearch.distinctBy Result.place (hits.map Result.ofHit ++ found.map (Result.ofMatch s))

end CodeIndex.Search
