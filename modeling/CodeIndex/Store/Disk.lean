import CodeIndex.Failure.Basic
import CodeIndex.Settings.Basic
import CodeIndex.Store.Tables
import CodeIndex.Text.Utf8

/-!
# The store file

What stands where the store file should be: nothing, a place where no file can be, something that is no
database or a damaged one, or a database, in which any of the three tables may be missing.
-/

namespace CodeIndex.Store

/-- A database, of which each table may be missing. -/
structure Database where
  entities : Option (List Entity) := none
  edges : Option (List Edge) := none
  texts : Option (List FullText.Row) := none
  deriving Repr, DecidableEq

def Database.ofTables (t : Tables) : Database :=
  { entities := some t.entities, edges := some t.edges, texts := some t.texts }

/-- The tables of a database, if none is missing. -/
def Database.tables? (d : Database) : Option Tables :=
  match d.entities, d.edges, d.texts with
  | some entities, some edges, some texts => some { entities, edges, texts }
  | _, _, _ => none

/-- What stands at the store's path. -/
inductive Disk where
  | absent
  /-- The directory for the store file cannot be made. -/
  | noDirectory (reason : String)
  /-- Something that is no file. -/
  | noFile
  /-- A file that is no database. -/
  | garbage
  /-- A file that starts like a database, without the pages that it speaks of. -/
  | torn
  | database (d : Database)
  deriving Repr, DecidableEq

/-- What the first bytes of a database are. -/
def databaseHeader : Bytes :=
  Text.toBytes "SQLite format 3\x00"

/-- Bytes at fixed places in the header of every database: limits of its tree pages. -/
def payloadLimits : Bytes := [64, 32, 32]

def startsDatabase (b : Bytes) : Bool :=
  databaseHeader.isPrefixOf b && (b.drop 21).take 3 == payloadLimits

/-- What the database engine takes a file of bytes for that no engine has written as a whole.  A file of a
single byte counts as empty, and an empty one is a database without tables. -/
def Disk.ofBytes (b : Bytes) : Disk :=
  if b.length ≤ 1 then .database {}
  else if startsDatabase b then .torn
  else .garbage

def Disk.tables? : Disk → Option Tables
  | .database d => d.tables?
  | _ => none

def Disk.isThere : Disk → Bool
  | .absent => false
  | .noDirectory _ => false
  | _ => true

/-- The objects of a database: type, name and the table that each belongs to, by type and name. -/
def Database.listing (d : Database) : List (String × String × String) :=
  let edges := d.edges.isSome
  let entities := d.entities.isSome
  let index := fun (there : Bool) name table =>
    if there then [("index", name, table)] else []
  let table := fun (there : Bool) name => if there then [("table", name, name)] else []
  index edges "idx_edges_target" "edges"
    ++ index entities "idx_functions_container_name_arity" "functions"
    ++ index entities "idx_functions_kind" "functions"
    ++ index entities "idx_functions_path" "functions"
    ++ table edges "edges" ++ table entities "functions" ++ table d.texts.isSome "functions_fts"

/-- A database without one of its tables. -/
def Database.drop (d : Database) (table : String) : Database :=
  if table == "functions" then { d with entities := none }
  else if table == "edges" then { d with edges := none }
  else if table == "functions_fts" then { d with texts := none }
  else d

end CodeIndex.Store
