import CodeIndex.Store.Disk

/-!
# Statements

What a change has the database engine do, one statement after another.  A statement works on one table and
in place.  It is given texts and numbers that the tables may be unable to hold: one over many rows is
stopped at the first of these, and leaves in the table what it did before.
-/

namespace CodeIndex.Store

/-- The least number that a table cannot hold. -/
def integerBound : Nat := Nat.pow 2 63

/-- Whether the tables can hold the numbers of an entity. -/
def fits {τ : Type} (e : Entity τ) : Bool :=
  e.arity < integerBound && e.startLine < integerBound && e.endLine < integerBound

inductive Table where
  | entities
  | edges
  | texts
  deriving Repr, DecidableEq

/-- A statement that changes the database. -/
inductive Statement where
  | drop (table : Table)
  | create (table : Table)
  /-- Removes what a table holds for the entities with a path. -/
  | deleteAt (table : Table) (path : Writing)
  /-- Removes what the edge or full-text table holds for identities. -/
  | deleteOf (table : Table) (ids : List Writing)
  | putEntities (entities : List Draft)
  | addTexts (entities : List Draft)
  | putEdges (edges : List (Edge Writing))
  | commit
  deriving Repr, DecidableEq

/-- What a statement leaves of a database, and the number of rows that it answers or what stopped it. -/
abbrev Engine := Statement → Database → Database × Except Mishap Nat

namespace Database

def idsAt (d : Database) (path : String) : List String :=
  ((d.entities.getD []).filter (·.path == path)).map Entity.id

/-- The database without what one table holds for some identities. -/
def delete (d : Database) (ids : List String) : Table → Database
  | .entities => { d with entities := d.entities.map (·.filter fun e => !ids.contains e.id) }
  | .edges => { d with edges := d.edges.map (·.filter fun e => !ids.contains e.source) }
  | .texts => { d with texts := d.texts.map (·.filter fun r => !ids.contains r.id) }

/-- The database with a table that is missing or has just been made. -/
def withTable (d : Database) (there : Bool) : Table → Database
  | .entities => { d with entities := if there then some [] else none }
  | .edges => { d with edges := if there then some [] else none }
  | .texts => { d with texts := if there then some [] else none }

end Database

/-! ## What can be held -/

def storedNumber (n : Nat) : Except Mishap Nat :=
  if n < integerBound then .ok n else .error .integerTooLarge

/-- The row that an entity becomes; its fields are looked at in the order of the columns. -/
def rowOf (d : Draft) : Except Mishap Entity := do
  let id ← d.id.encoded
  let container ← d.container.encoded
  let name ← d.name.encoded
  let arity ← storedNumber d.arity
  let path ← d.path.encoded
  let startLine ← storedNumber d.startLine
  let endLine ← storedNumber d.endLine
  let signature ← d.signature.mapM Writing.encoded
  let spec ← d.spec.mapM Writing.encoded
  let doc ← d.doc.mapM Writing.encoded
  let lexicalText ← d.lexicalText.encoded
  let rawText ← d.rawText.mapM Writing.encoded
  return { id, container, name, arity, kind := d.kind, path, startLine, endLine, signature, doc, spec
           lexicalText, rawText }

def textRowOf (d : Draft) : Except Mishap FullText.Row := do
  return { id := ← d.id.encoded, container := ← d.container.encoded
           lexicalText := ← d.lexicalText.encoded }

def edgeOf (e : Edge Writing) : Except Mishap Edge := do
  return { source := ← e.source.encoded, target := ← e.target.encoded }

/-- What can be held of some items, up to the first that cannot, and what the engine answers. -/
def held {α β : Type} (hold : α → Except Mishap β) : List α → List β × Except Mishap Nat
  | [] => ([], .ok 0)
  | a :: rest =>
    match hold a with
    | .ok b => let (more, answer) := held hold rest; (b :: more, answer)
    | .error m => ([], .error m)

def Statement.apply : Engine
  | .drop table, d => (d.withTable false table, .ok 0)
  | .create table, d => (d.withTable true table, .ok 0)
  | .deleteAt table path, d =>
    match path.encoded, table with
    | .error m, _ => (d, .error m)
    | .ok path, .entities =>
      let kept := d.entities.map (·.filter fun e => e.path != path)
      ({ d with entities := kept }, .ok ((d.entities.getD []).length - (kept.getD []).length))
    | .ok path, table => (d.delete (d.idsAt path) table, .ok 0)
  | .deleteOf table ids, d =>
    let (ids, answer) := held Writing.encoded ids
    (d.delete ids table, answer)
  | .putEntities entities, d =>
    let (rows, answer) := held rowOf entities
    ({ d with entities := d.entities.map fun old => rows.foldl Tables.putRow old }, answer)
  | .addTexts entities, d =>
    let (rows, answer) := held textRowOf entities
    ({ d with texts := d.texts.map (· ++ rows) }, answer)
  | .putEdges edges, d =>
    let (edges, answer) := held edgeOf edges
    ({ d with edges := d.edges.map fun rows => edges.foldl Tables.putEdge rows }, answer)
  | .commit, d => (d, .ok 0)

end CodeIndex.Store
