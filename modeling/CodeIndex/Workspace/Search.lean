import CodeIndex.Search.Pack
import CodeIndex.Search.Result
import CodeIndex.Workspace.Basic

/-!
# Searching a workspace

The search that callers see.  The index answers first; only if it has too few hits the line search adds
to them.  A line search that cannot run leaves the hits as they are.
-/

namespace CodeIndex.Workspace

def lineScope (w : Workspace) : LineSearch.Scope :=
  { settings := w.settings.fallback, extensions := w.settings.index.extensions
    excludedDirs := w.settings.index.excludedDirs
    primaryDirs := w.settings.index.primarySourceDirs, depth := w.depth }

def runLineSearch (query : String) : Action Program.Outcome := do
  let w ← get
  let name := w.settings.fallback.executable
  match w.executableAt name with
  | .error _ => return .notFound
  | .ok p => runAt p name (w.lineScope.arguments name query).tail

/-- All matches of a line search, in the order of the program's answer. -/
def lineMatches (query : String) : Action (List LineSearch.Match) := do
  let outcome ← runLineSearch query
  liftExcept ((← get).lineScope.found outcome)
where
  liftExcept {α : Type} : Except Trouble α → Action α
    | .ok a => return a
    | .error t => throw t

/-- The best matches of a line search, at most so many. -/
def lineSearch (query : String) (limit : Int) : Action (List LineSearch.Match) :=
  return LineSearch.best limit (← lineMatches query)

def reasonOf (f : Failure) : Value :=
  (Value.Members.get? f.details "reason").getD .null

/-- What a search asks: an index, and a line search unless it goes without one. -/
structure Engine where
  settings : Settings.Search
  layout : Settings.Index
  /-- The hits for a query, at most so many. -/
  index : String → Int → Action (List Store.Hit)
  /-- All matches for a query, in the order of the line search. -/
  lines : Option (String → Action (List LineSearch.Match))

/-- The results of a search, at most `k` and at most the most that are given. -/
def Engine.search (engine : Engine) (query : String) (k : Option Int) (useFallback : Option Bool) :
    Action (List Search.Result) := do
  let k := k.getD engine.settings.defaultCount
  if k ≤ 0 then return []
  let limit := Search.limitOf k
  let hits ← engine.index query limit
  let results := hits.map Search.Result.ofHit
  if Search.isEnough engine.settings hits (useFallback.getD engine.settings.useFallback) then
    return LineSearch.firsts limit results
  match engine.lines with
  | none => return LineSearch.firsts limit results
  | some lines =>
    let found ← try
        pure (some (LineSearch.best limit (← lines query)))
      catch
        | .failure (.fallbackUnavailable reason code) => do
          log .warning "fallback_unavailable"
            [("query", .text query), ("reason", reasonOf (.fallbackUnavailable reason code))]
          pure none
        | trouble => throw trouble
    match found with
    | none => return LineSearch.firsts limit results
    | some found =>
      let merged := Search.together engine.layout hits found
      log .debug "hybrid_search_merged"
        [("index", .nat hits.length), ("fallback", .nat found.length), ("merged", .nat merged.length)]
      return LineSearch.firsts limit merged

def engine (w : Workspace) : Engine :=
  { settings := w.settings.search, layout := w.settings.index
    index := fun query limit => onStore (Store.search query limit)
    lines := some lineMatches }

def search (query : String) (k : Option Int) (useFallback : Option Bool) :
    Action (List Search.Result) := do
  (← get).engine.search query k useFallback

def pack (r : Search.Pack.Request) (neighborLimit : Int) : Action Search.Pack :=
  onStore (Search.Pack.ofRequest r neighborLimit)

end CodeIndex.Workspace
