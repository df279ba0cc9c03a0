import CodeIndex.Value.Basic

/-!
# Summaries

What a call and its result come to in a line or in a log event.
-/

namespace CodeIndex.Tool

def firstChars (n : Nat) (s : String) : String :=
  String.ofList (s.toList.take n)

/-- A query in a summary: a long one is cut. -/
def shownQuery (query : String) : String :=
  if query.length ≤ 20 then query else firstChars 17 query ++ "..."

/-- A search in a line: how many results, and how many of them from the line search. -/
def searchSummary (sources : List String) (query : String) : String :=
  let query := "\x22" ++ shownQuery query ++ "\x22"
  if sources.isEmpty then "no results for " ++ query
  else
    let fallback := sources.count "fallback"
    Nat.repr sources.length ++ " results for " ++ query ++
      if fallback == 0 then "" else " (" ++ Nat.repr fallback ++ " from fallback)"

/-- The parameters of a call as they are logged: null ones left out, long ones shortened. -/
def loggedParameters (m : Value.Members) : Value.Members :=
  m.filterMap fun
    | (_, .null) => none
    | (k, .text s) => some (k, .text (if 50 < s.length then firstChars 50 s ++ "..." else s))
    | (k, .broken points) => some (k, if 50 < points.length
        then .broken (points.take 50 ++ [46, 46, 46]) else .broken points)
    | (k, .list items) => some (k, if 3 < items.length
        then .text ("[" ++ Nat.repr items.length ++ " items]") else .list items)
    | other => some other

/-- What is logged of a result: its counts. -/
def loggedResult (m : Value.Members) : Value.Members :=
  let count := match m.get? "count" with
    | some v => [("count", v)]
    | none => []
  let sources := match m.get? "sources" with
    | some (.list items) => [("sources", .nat items.length)]
    | _ => []
  let entities := match m.get? "entities" with
    | some v => [("entities", v)]
    | none => []
  count ++ sources ++ entities

end CodeIndex.Tool
