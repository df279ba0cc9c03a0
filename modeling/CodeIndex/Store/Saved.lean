import CodeIndex.Entity.OfValue
import CodeIndex.Store.Disk
import CodeIndex.Value.Json
import CodeIndex.Value.JsonReader

/-!
# Saved stores

The tables as the text of a file: a first line that tells what it is, and the rows in JSON.  A row of the
entity table is written as its entity.
-/

namespace CodeIndex.Store

/-- The first line of a saved store. -/
def savedHeader : String := "code index 1\n"

def Edge.toValue (e : Edge) : Value :=
  .texts [e.source, e.target]

def Edge.ofValue? : Value → Option Edge
  | .list [.text source, .text target] => some { source, target }
  | _ => none

def textRowValue (r : FullText.Row) : Value :=
  .texts [r.id, r.container, r.lexicalText]

def textRowOf? : Value → Option FullText.Row
  | .list [.text id, .text container, .text lexicalText] => some { id, container, lexicalText }
  | _ => none

def entityOf? (v : Value) : Option Entity :=
  match Entity.ofValue v with
  | .ok e => some e
  | .faults _ => none

def itemsOf? : Value → Option (List Value)
  | .list items => some items
  | _ => none

def Tables.saved (t : Tables) : String :=
  savedHeader ++ (Value.list [.list (t.entities.map Entity.toValue), .list (t.edges.map Edge.toValue),
    .list (t.texts.map textRowValue)]).json

def Tables.ofValue? : Value → Option Tables
  | .list [entities, edges, texts] => do
    return { entities := ← (← itemsOf? entities).mapM entityOf?
             edges := ← (← itemsOf? edges).mapM Edge.ofValue?
             texts := ← (← itemsOf? texts).mapM textRowOf? }
  | _ => none

/-- The tables of a saved store; nothing if a text is none. -/
def Tables.ofSaved? (s : String) : Option Tables :=
  if Text.startsWith s savedHeader then
    (Value.ofJson? (Text.withoutStart s savedHeader)).toOption.bind Tables.ofValue?
  else none

end CodeIndex.Store
