import CodeIndex.Search.Result

/-!
# Context packs

A bundle of text about some entities: for each a section with its definition and those of its
neighbours, and the places of all that is shown.
-/

namespace CodeIndex.Search

structure Location where
  path : String
  startLine : Nat
  endLine : Nat
  deriving Repr, DecidableEq

def locationOf (e : Entity) : Location :=
  { path := e.path, startLine := e.startLine, endLine := e.endLine }

def Location.toValue (l : Location) : Value :=
  .map [("path", .text l.path), ("start_line", .nat l.startLine), ("end_line", .nat l.endLine)]

structure Pack where
  text : String := ""
  sources : List Location := []

def Pack.toValue (p : Pack) : Value :=
  .map [("text", .text p.text), ("sources", .list (p.sources.map Location.toValue))]

namespace Pack

/-- How many neighbours of each kind are shown, unless asked otherwise. -/
def neighborLimit : Int := 5

def isGiven (s : Option String) : Bool :=
  s.any (· != "")

/-- The text that defines an entity: its raw text, or else its signature. -/
def definition (e : Entity) : String :=
  if isGiven e.rawText then e.rawText.getD "" else e.signature.getD ""

def brief (e : Entity) : String :=
  e.reference ++ " (" ++ e.path ++ ":" ++ Nat.repr e.startLine ++ ")"

def optionalLine (label : String) (s : Option String) : List String :=
  if isGiven s then [label ++ s.getD ""] else []

def listLine (label : String) (es : List Entity) : List String :=
  if es.isEmpty then [] else [label ++ ", ".intercalate (es.map brief)]

def neighborLines (e : Entity) : List String :=
  ["", "Neighbor: " ++ e.reference ++ " at " ++ e.path ++ ":" ++ Nat.repr e.startLine, definition e]

def sectionText (e : Entity) (n : Store.Neighbors) : String :=
  let lines :=
    ["### " ++ e.reference, "Path: " ++ e.path ++ ":" ++ Nat.repr e.startLine]
      ++ optionalLine "Spec: " e.spec ++ optionalLine "Doc: " e.doc
      ++ ["Definition: " ++ definition e]
      ++ listLine "Calls: " n.callees ++ listLine "Called by: " n.callers
      ++ (n.callees ++ n.callers).flatMap neighborLines
  "\n".intercalate lines ++ "\n\n"

/-- Adds a place unless one with its path and start is there. -/
def addSource (sources : List Location) (e : Entity) : List Location :=
  if sources.any fun l => l.path == e.path && l.startLine == e.startLine then sources
  else sources ++ [locationOf e]

def ofEntities (entities : List (Entity × Store.Neighbors)) : Pack :=
  { text := String.join (entities.map fun (e, n) => sectionText e n)
    sources := entities.foldl (fun sources (e, n) =>
      (e :: n.callees ++ n.callers).foldl addSource sources) [] }

/-- The neighbours that a pack shows of an entity; none if the limit is not positive. -/
def neighborsOf (limit : Int) (e : Entity) : Store.Action (Entity × Store.Neighbors) :=
  if limit ≤ 0 then return (e, {})
  else return (e, ← Store.neighbors e.id limit)

/-- What a pack is asked for: entities by identity, or else those that a query matches. -/
structure Request where
  ids : List Writing := []
  query : Option Writing := none
  k : Int := 10

def Request.entities (r : Request) : Store.Action (List Entity) := do
  if !r.ids.isEmpty then Store.getEntities r.ids
  else
    match r.query with
    | none => return []
    | some (.whole "") => return []
    | some query =>
      let hits ← Store.search query (limitOf r.k)
      Store.getEntities (hits.map fun hit => .whole hit.entity.id)

def ofRequest (r : Request) (limit : Int) : Store.Action Pack := do
  let entities ← r.entities
  return ofEntities (← entities.mapM (neighborsOf limit))

end Pack

end CodeIndex.Search
