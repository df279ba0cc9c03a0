import CodeIndex.Entity.Basic
import CodeIndex.FullText.Rank
import CodeIndex.Text.Pieces

/-!
# Tables

The three tables of the index: one row per entity, one edge per reference of an entity, and one
full-text row per entity.  Rows keep the order in which they were inserted.  Every change is a function
on all three, so that it happens as a whole or not at all.
-/

namespace CodeIndex.Store

/-- A reference of an entity to something by its reference text. -/
structure Edge (τ : Type := String) where
  source : τ
  target : τ
  deriving Repr, DecidableEq

def Edge.kind : String := "call"

/-- The three tables.  An entity in its table has no references; they are its edges. -/
structure Tables where
  entities : List Entity := []
  edges : List Edge := []
  texts : List FullText.Row := []
  deriving Repr, DecidableEq

namespace Tables

def row (e : Entity) : Entity :=
  { e with references := [] }

def textRow (e : Entity) : FullText.Row :=
  { id := e.id, container := e.container, lexicalText := e.lexicalText }

def edgesOf {τ : Type} (e : Entity τ) : List (Edge τ) :=
  e.references.map fun target => ⟨e.id, target⟩

def idsAt (t : Tables) (path : String) : List String :=
  (t.entities.filter (·.path == path)).map Entity.id

/-- Removes everything that belongs to the entities with a path. -/
def purge (t : Tables) (path : String) : Tables :=
  let ids := t.idsAt path
  { texts := t.texts.filter fun r => !ids.contains r.id
    edges := t.edges.filter fun e => !ids.contains e.source
    entities := t.entities.filter fun e => e.path != path }

/-- Removes everything that belongs to the entities with one of some paths. -/
def purgeAll (t : Tables) (paths : List String) : Tables :=
  paths.foldl purge t

/-- Puts an entity row last, in place of any row with its identity. -/
def putRow (rows : List Entity) (e : Entity) : List Entity :=
  rows.filter (·.id != e.id) ++ [row e]

/-- Adds an edge unless it is there. -/
def putEdge (edges : List Edge) (e : Edge) : List Edge :=
  if edges.contains e then edges else edges ++ [e]

/-- Inserts entities, in place of those with their identities. -/
def insert (t : Tables) (entities : List Entity) : Tables :=
  let ids := entities.map Entity.id
  { texts := t.texts.filter (fun r => !ids.contains r.id) ++ entities.map textRow
    edges := (entities.flatMap edgesOf).foldl putEdge
      (t.edges.filter fun e => !ids.contains e.source)
    entities := entities.foldl putRow t.entities }

def merge (t : Tables) (paths : List String) (entities : List Entity) : Tables :=
  (t.purgeAll paths).insert entities

/-! ## Reading -/

def find? (t : Tables) (id : String) : Option Entity :=
  t.entities.find? (·.id == id)

def referencesOf (t : Tables) (id : String) : List String :=
  (t.edges.filter (·.source == id)).map Edge.target

def get? (t : Tables) (id : String) : Option Entity :=
  (t.find? id).map fun e => { e with references := t.referencesOf id }

/-- The entities with some identities, in the order asked for and without repeats. -/
def getAll (t : Tables) (ids : List String) : List Entity :=
  (Text.distinct ids).filterMap t.get?

/-- The entities that an entity refers to, itself apart, by identity. -/
def callees (t : Tables) (id : String) : List Entity :=
  let targets := t.referencesOf id
  (t.entities.filter fun e => targets.contains e.reference && e.id != id).mergeSort
    fun a b => a.id ≤ b.id

/-- The entities that refer to an entity, itself apart, in the order of their references. -/
def callers (t : Tables) (id : String) : List Entity :=
  match t.find? id with
  | none => []
  | some e =>
    let sources := (t.edges.filter (·.target == e.reference)).map Edge.source
    ((Text.distinct sources).filter (· != id)).filterMap t.find?

/-- The entities whose rows a query matches, the most relevant first. -/
def search (t : Tables) (q : FullText.Query) : List (Entity × Float) :=
  (FullText.ranked q t.texts).filterMap fun (r, score) => (t.find? r.id).map fun e => (e, score)

/-- All rows: entities by identity, edges and full-text rows in the order of their insertion. -/
def toValue (t : Tables) : Value :=
  let entities := t.entities.mergeSort fun a b => a.id ≤ b.id
  .map [("functions", .list (entities.map fun e => .list e.rowValues)),
    ("edges", .list (t.edges.map fun e => .texts [e.source, e.target, Edge.kind])),
    ("fts", .list (t.texts.map fun r => .texts [r.id, r.container, r.lexicalText]))]

end Tables

end CodeIndex.Store
