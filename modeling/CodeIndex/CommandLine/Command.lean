import CodeIndex.CommandLine.Grammar

/-!
# Commands

What can be asked for on the command line, with the grammar of each command.
-/

namespace CodeIndex.CommandLine

inductive Command where
  /-- Scans a project and builds its index anew. -/
  | build (start : Option Path)
  /-- Reads records from a file, or from the input for a dash. -/
  | ingest (source : Path) (isIncremental : Bool) (start : Option Path)
  /-- Searches. -/
  | query (query : String) (count : Option Nat) (useFallback isPack isJson : Bool) (start : Option Path)
  /-- Refreshes some files, or all. -/
  | refresh (paths : List Path) (start : Option Path)
  /-- Tells how index and daemon are. -/
  | status (start : Option Path) (isJson : Bool)
  /-- Serves over HTTP. -/
  | up (start : Option Path) (port : Option Int)
  /-- Serves over the standard streams. -/
  | mcp (start : Option Path) (watches : Bool)
  deriving Repr, DecidableEq

inductive Verb where
  | build
  | ingest
  | query
  | refresh
  | status
  | up
  | mcp
  deriving Repr, DecidableEq, Inhabited

namespace Verb

def all : List Verb :=
  [.build, .ingest, .query, .refresh, .status, .up, .mcp]

def label : Verb → String
  | .build => "build"
  | .ingest => "ingest"
  | .query => "query"
  | .refresh => "refresh"
  | .status => "status"
  | .up => "up"
  | .mcp => "mcp"

def ofLabel? (s : String) : Option Verb :=
  all.find? (·.label == s)

theorem ofLabel?_label (v : Verb) : ofLabel? v.label = some v := by
  cases v <;> decide

end Verb

def programName : String := "cdx"

def groupGrammar : Grammar :=
  { call := programName, operand := none, isMixed := false
    switches := [{ names := ["--version"] }, { names := ["--verbose", "-v"] }] }

def rootSwitch : Switch :=
  { names := ["--root"], value := some .directory }

def rootOperand : Operand :=
  { label := "[PATH]", kind := .existing, times := .atMostOnce }

def Verb.switches : Verb → List Switch
  | .build => []
  | .ingest => [{ names := ["--incremental"] }, rootSwitch]
  | .query => [{ names := ["--k"], value := some (.count 1 100) }, { names := ["--no-fallback"] },
      { names := ["--pack"] }, { names := ["--json"] }, rootSwitch]
  | .refresh => [rootSwitch]
  | .status => [{ names := ["--json"] }]
  | .up => [{ names := ["--port", "-p"], value := some .integer }]
  | .mcp => [{ names := ["--no-watch"] }]

def Verb.operand : Verb → Operand
  | .ingest => { label := "SOURCE", kind := .path, times := .once }
  | .query => { label := "QUERY", kind := .text, times := .once }
  | .refresh => { label := "[PATHS]...", kind := .path, times := .anyNumber }
  | _ => rootOperand

def Verb.grammar (v : Verb) : Grammar :=
  { call := programName ++ " " ++ v.label, switches := v.switches, operand := some v.operand }

/-- The command that a verb and what was given make, once it is found to be without fault. -/
def Verb.command (v : Verb) (given : Given) : Command :=
  let root := (given.value? "--root").map Path.ofString
  let first := given.operands.head?.map Path.ofString
  match v with
  | .build => .build first
  | .ingest => .ingest (first.getD default) (given.has "--incremental") root
  | .query =>
    let count := ((given.value? "--k").bind integer?).map Int.toNat
    .query (given.operands.headD "") count (!given.has "--no-fallback") (given.has "--pack")
      (given.has "--json") root
  | .refresh => .refresh (given.operands.map Path.ofString) root
  | .status => .status first (given.has "--json")
  | .up => .up first ((given.value? "--port").bind integer?)
  | .mcp => .mcp first (!given.has "--no-watch")

/-! ## Reading a command -/

inductive Request where
  /-- How a command is used. -/
  | help (g : Grammar)
  | version
  | command (c : Command) (isVerbose : Bool)
  deriving Inhabited

/-- Arguments that cannot be read, with the grammar that they do not keep to. -/
structure Refusal where
  grammar : Grammar
  fault : Fault

def Given.asksHelp (given : Given) : Bool :=
  given.has helpSwitch.key

def Verb.read (v : Verb) (place : Place) (isVerbose : Bool) (arguments : List String) :
    Except Refusal Request := do
  let refuse := fun fault => ({ grammar := v.grammar, fault } : Refusal)
  let given ← (v.grammar.scan arguments).mapError refuse
  if given.asksHelp then return .help v.grammar
  match v.grammar.fault? place given with
  | some fault => throw (refuse fault)
  | none => return .command (v.command given) isVerbose

def Request.ofArguments (place : Place) (arguments : List String) : Except Refusal Request := do
  let refuse := fun fault => ({ grammar := groupGrammar, fault } : Refusal)
  let given ← (groupGrammar.scan arguments).mapError refuse
  let eager := given.options.find? fun (key, _) => key == "--version" || key == helpSwitch.key
  match eager, given.operands with
  | some ("--version", _), _ => return .version
  | some _, _ => return .help groupGrammar
  | none, [] => if arguments.isEmpty then return .help groupGrammar else throw (refuse .noCommand)
  | none, word :: rest =>
    match Verb.ofLabel? word with
    | some v => v.read place (given.has "--verbose") rest
    | none =>
      if isDashed word then discard <| (groupGrammar.scan [word]).mapError refuse
      throw (refuse (.unknownCommand word))

end CodeIndex.CommandLine
