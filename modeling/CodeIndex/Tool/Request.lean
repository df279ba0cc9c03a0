import CodeIndex.Tool.Basic
import CodeIndex.Validation.Scalar

/-!
# Requests

A call of a tool with checked parameters.  Unknown parameters are faults, reported after those of the
known ones.
-/

namespace CodeIndex.Tool

open CodeIndex.Validation

variable {α : Type}

inductive Request where
  | search (query : String) (count : Int) (useFallback : Bool)
  | packContext (ids : Option (List Writing)) (query : Option Writing) (count : Int)
  | refresh (paths : Option (List String))
  | indexStatus
  | health
  deriving Repr, DecidableEq

def count (v : Value) : Checked Int :=
  (int v).andThen fun n =>
    if greatestCount < n then .complain (.atMost greatestCount) v
    else if n < leastCount then .complain (.atLeast leastCount) v
    else .ok n

/-- Complaints about parameters that a tool does not have. -/
def strangers (t : Tool) (m : Value.Members) : Checked Unit :=
  match m.filter fun (k, _) => !(t.parameters.map Parameter.name).contains k with
  | [] => .ok ()
  | strange => .faults (strange.map fun (k, v) => ⟨[.key k], .extraForbidden, v⟩)

def closed (t : Tool) (m : Value.Members) (r : Checked Request) : Checked Request :=
  (fun r () => r) <$> r <*> t.strangers m

def hasSelector (ids : Option (List Writing)) (query : Option Writing) : Bool :=
  ids.any (!·.isEmpty) || query.any (· != .whole "")

/-- The request for a pack; it has to say what to pack. -/
def packRequest (m : Value.Members) : Checked Request :=
  let r := Request.packContext <$> member m "ids" (optional (list text)) none
    <*> member m "query" (optional text) none
    <*> member m "k" count defaultCount
  (closed .packContext m r).andThen fun
    | .packContext ids query k =>
      if hasSelector ids query then .ok (.packContext ids query k)
      else .complain (.rule "Provide ids or query") (.map m)
    | r => .ok r

def check (t : Tool) (m : Value.Members) : Checked Request :=
  match t with
  | .search => closed .search m
      (Request.search <$> required m "query" nonEmptyText
        <*> member m "k" count defaultCount
        <*> member m "use_fallback" bool true)
  | .packContext => packRequest m
  | .refresh => closed .refresh m (Request.refresh <$> member m "paths" (optional (list wholeText)) none)
  | .indexStatus => closed .indexStatus m (.ok .indexStatus)
  | .health => closed .health m (.ok .health)

/-- A list of texts as a value, or null for none. -/
def textsOrNullValue {τ : Type} [Textual τ] : Option (List τ) → Value
  | some items => .list (items.map Textual.value)
  | none => .null

def Request.toMembers : Request → Value.Members
  | .search query k useFallback =>
    [("query", .text query), ("k", .int k), ("use_fallback", .bool useFallback)]
  | .packContext ids query k =>
    [("ids", textsOrNullValue ids), ("query", Textual.value? query), ("k", .int k)]
  | .refresh paths => [("paths", textsOrNullValue paths)]
  | .indexStatus => []
  | .health => []

end CodeIndex.Tool
