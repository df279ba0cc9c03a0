import CodeIndex.Entity.OfValue
import CodeIndex.Text.Blank
import CodeIndex.Text.Lines
import CodeIndex.Value.JsonReader

/-!
# Batches of records

Records come as entities, as values, or as lines of JSON, one record a line.  A record that is no
entity is put aside with the reason and never stops the batch; only a line that the reader refuses to
read at all does.
-/

namespace CodeIndex

/-- A record that is no entity: where it stood and why. -/
structure Malformed where
  line : Option Int
  source : Option String
  reason : String
  deriving Repr, DecidableEq

inductive Record where
  | draft (d : Draft)
  | line (s : String)
  | value (v : Value)

def Record.entity (e : Entity) : Record :=
  .draft e.draft

inductive Reading where
  | blank
  | draft (d : Draft)
  | malformed (reason : String)
  /-- The reader gave up on the text itself. -/
  | refused (fault : Value.JsonFault)

/-- A value as an entity, or why it is none. -/
def Reading.ofValue (v : Value) : Reading :=
  match v with
  | .map _ =>
    match Draft.ofValue v with
    | .ok d => .draft d
    | .faults faults => .malformed ("invalid fields: " ++ ",".intercalate (faults.map Fault.location))
  | _ => .malformed ("expected object, got " ++ v.typeName)

def Reading.ofLine (s : String) (depth : Nat := Value.depthLimit) : Reading :=
  let stripped := Text.strip s
  if stripped == "" then .blank
  else
    match Value.ofJson? stripped depth with
    | .ok v => .ofValue v
    | .error .tooDeep => .refused .tooDeep
    | .error .numberTooLong => .refused .numberTooLong
    | .error fault => .malformed ("invalid JSON: " ++ fault.message)

/-- The entities of a batch and the records put aside, both in order, and why reading stopped if it
did. -/
structure Batch where
  drafts : List Draft := []
  malformed : List Malformed := []
  stopped : Option Value.JsonFault := none

namespace Batch

def entities (b : Batch) : List Entity :=
  b.drafts.filterMap Entity.whole?

def push (line : Option Int) (source : Option String) (reading : Reading) (rest : Batch) : Batch :=
  match reading with
  | .blank => rest
  | .draft d => { rest with drafts := d :: rest.drafts }
  | .malformed reason => { rest with malformed := ⟨line, source, reason⟩ :: rest.malformed }
  | .refused fault => { stopped := some fault }

def ofReadings (source : Option String) : List (Option Int × Reading) → Batch
  | [] => {}
  | (line, reading) :: rest => push line source reading (ofReadings source rest)

/-- Items with their positions, counted from one. -/
def numbered {α : Type} (items : List α) : List (Option Int × α) :=
  items.zipIdx.map fun (x, i) => (some ((i : Int) + 1), x)

def ofLine (s : String) (line : Option Int) (source : Option String)
    (depth : Nat := Value.depthLimit) : Batch :=
  ofReadings source [(line, .ofLine s depth)]

def ofText (s : String) (source : Option String) (depth : Nat := Value.depthLimit) : Batch :=
  ofReadings source ((numbered (Text.lines s)).map fun (i, line) => (i, .ofLine line depth))

def readingOf : Record → Reading
  | .draft d => .draft d
  | .line s => .ofLine s
  | .value v => .ofValue v

def ofRecords (records : List Record) : Batch :=
  ofReadings none ((numbered records).map fun (i, r) => (i, readingOf r))

end Batch

end CodeIndex
