import CodeIndex.Value.Basic

/-!
# Tools

What callers can ask for by name: each tool has a description and publishes what parameters it takes.
-/

namespace CodeIndex

inductive Tool where
  | search
  | packContext
  | refresh
  | indexStatus
  | health
  deriving Repr, DecidableEq, Inhabited

namespace Tool

/-- All tools, in the order in which they are published. -/
def all : List Tool :=
  [.search, .packContext, .refresh, .indexStatus, .health]

def label : Tool → String
  | .search => "search"
  | .packContext => "pack_context"
  | .refresh => "refresh"
  | .indexStatus => "index_status"
  | .health => "health"

def ofLabel? (s : String) : Option Tool :=
  all.find? (·.label == s)

theorem ofLabel?_label (t : Tool) : ofLabel? t.label = some t := by
  cases t <;> decide

def description : Tool → String
  | .search => "Search indexed entities; falls back to ripgrep when the index has few matches"
  | .packContext => "Pack entities and their call neighbours into a compact text bundle"
  | .refresh => "Refresh the index: full rebuild without paths, incremental with paths"
  | .indexStatus => "Index store counts and scheduler state"
  | .health => "Server and store health"

/-! ## Published parameters -/

structure Parameter where
  name : String
  title : String
  description : String
  /-- The shape of its values. -/
  shape : Value.Members
  /-- Its default; one that has none is required. -/
  default : Option Value := none

def textShape : Value.Members :=
  [("type", .text "string")]

def textsShape : Value.Members :=
  [("type", .text "array"), ("items", .map textShape)]

def orNull (shape : Value.Members) : Value.Members :=
  [("anyOf", .list [.map shape, .map [("type", .text "null")]])]

/-- The least and the greatest number of results that can be asked for, and the number given if none is
asked for. -/
def leastCount : Int := 1
def greatestCount : Int := 100
def defaultCount : Int := 10

def countShape : Value.Members :=
  [("type", .text "integer"), ("minimum", .int leastCount), ("maximum", .int greatestCount)]

def parameters : Tool → List Parameter
  | .search =>
    [{ name := "query", title := "Query", description := "Search query"
       shape := textShape ++ [("minLength", .int 1)] },
     { name := "k", title := "K", description := "Maximum results", shape := countShape
       default := some (.int defaultCount) },
     { name := "use_fallback", title := "Use Fallback"
       description := "Run ripgrep when the index returns too few results"
       shape := [("type", .text "boolean")], default := some (.bool true) }]
  | .packContext =>
    [{ name := "ids", title := "Ids", description := "Entity ids from search results"
       shape := orNull textsShape, default := some .null },
     { name := "query", title := "Query", description := "Index query selecting entities"
       shape := orNull textShape, default := some .null },
     { name := "k", title := "K", description := "Maximum entities for a query", shape := countShape
       default := some (.int defaultCount) }]
  | .refresh =>
    [{ name := "paths", title := "Paths"
       description := "Project-relative paths to refresh incrementally"
       shape := orNull textsShape, default := some .null }]
  | .indexStatus => []
  | .health => []

def parametersTitle : Tool → String × String
  | .search => ("SearchParams", "Parameters for search.")
  | .packContext =>
    ("PackContextParams", "Parameters for pack_context. Exactly one selector is used; ids win.")
  | .refresh => ("RefreshParams", "Parameters for refresh. No paths means a full rebuild.")
  | .indexStatus => ("StatusParams", "Parameters for index_status.")
  | .health => ("HealthParams", "Parameters for health.")

def Parameter.toMember (p : Parameter) : String × Value :=
  (p.name, .map (p.shape ++ [("title", .text p.title), ("description", .text p.description)] ++
    match p.default with
    | some v => [("default", v)]
    | none => []))

def schema (t : Tool) : Value :=
  let (title, about) := t.parametersTitle
  let required := (t.parameters.filter (·.default.isNone)).map Parameter.name
  .map ([("type", .text "object"), ("title", .text title), ("description", .text about),
    ("additionalProperties", .bool false),
    ("properties", .map (t.parameters.map Parameter.toMember))] ++
    if required.isEmpty then [] else [("required", .texts required)])

def published (t : Tool) : String × Value :=
  (t.label, .map [("description", .text t.description), ("parameters", t.schema)])

end Tool

end CodeIndex
