import CodeIndex.Failure.Basic
import CodeIndex.LineSearch.Heuristics
import CodeIndex.Program.Outcome
import CodeIndex.Settings.Basic
import CodeIndex.Text.Digit
import CodeIndex.Text.Lines
import CodeIndex.Text.Pieces
import CodeIndex.Validation.Scalar
import CodeIndex.Value.JsonReader
import CodeIndex.Value.Shown

/-!
# Line search

The search for a text in the lines of the indexed files, which an external program does.  It is told
what to search by its arguments and answers with one event in JSON per line; only the events that
report a match count.  Any way in which it can fail is a failure of its own kind, so that a caller can
go on without it.
-/

namespace CodeIndex.LineSearch

structure Match where
  path : String
  line : Int
  text : String
  score : Int
  deriving Repr, DecidableEq

def Match.toValue (m : Match) : Value :=
  .map [("path", .text m.path), ("line_number", .int m.line), ("line_text", .text m.text),
    ("score", .int m.score)]

structure Scope where
  settings : Settings.Fallback
  extensions : List String
  excludedDirs : List String := []
  primaryDirs : List String := ["lib"]
  /-- How deep events are read. -/
  depth : Nat := Value.depthLimit

/-- The arguments of the search program, itself first. -/
def Scope.arguments (scope : Scope) (executable query : String) : List String :=
  [executable, "--json", "--max-count", Nat.repr scope.settings.maxCountPerFile]
    ++ (if scope.settings.smartCase then ["--smart-case"] else [])
    ++ scope.extensions.flatMap (fun e => ["--glob", "*" ++ e])
    ++ scope.excludedDirs.flatMap (fun d => ["--glob", "!**/" ++ d ++ "/**"])
    ++ ["--", query, "."]

/-! ## Reading the program's answer -/

/-- A member of an object; anything but an object has none. -/
def memberOf (v : Value) (key : String) : Except Mishap Value :=
  match v with
  | .map m => .ok ((Value.Members.get? m key).getD .null)
  | v => .error (.notAnObject v.typeName)

/-- A member of an object, where nothing and an empty value stand for an empty object. -/
def objectMember (v : Value) (key : String) : Except Mishap Value :=
  (memberOf v key).map fun v => if v.isTruthy then v else .map []

/-- A text; anything else has no text to work on. -/
def textOf : Value → Except Mishap String
  | .text s => .ok s
  | .broken points =>
    .ok (String.ofList (points.map fun n => if n.isValidChar then Char.ofNat n else Text.replacement))
  | v => .error (.notAnObject v.typeName)

/-- The digits of a numeral with single underscores between digits. -/
def plainDigits? (cs : List Char) : Option (List Char) :=
  let digits := cs.filter (· != '_')
  if !digits.isEmpty && digits.all Text.isAsciiDigit && cs.head? != some '_' &&
      cs.getLast? != some '_' && !Validation.hasDoubleUnderscore cs then some digits
  else none

/-- The integer that a text spells between blanks, in the digits of any script. -/
def numeral? (s : String) : Option Int :=
  let cs := (Text.trimBoth Text.isWhite s.toList).map Text.withAsciiDigit
  let (negative, body) := match cs with
    | '-' :: rest => (true, rest)
    | '+' :: rest => (false, rest)
    | _ => (false, cs)
  match plainDigits? body with
  | some digits =>
    if 4300 < digits.length then none
    else
      let n : Int := Decimal.natOfDigits digits
      some (if negative then -n else n)
  | none => none

/-- A line number: a whole number, a number cut to its integer part, or a numeral. -/
def lineNumber : Value → Except Mishap Int
  | .int n => .ok n
  | .bool b => .ok (if b then 1 else 0)
  | .float x =>
    match Decimal.truncate? x with
    | some n => .ok n
    | none =>
      if x.isNaN then .error (.wrongValue "cannot convert float NaN to integer")
      else .error .infiniteInteger
  | .text s =>
    match numeral? s with
    | some n => .ok n
    | none => .error (.wrongValue ("invalid literal for int() with base 10: " ++ Text.quoted s))
  | .broken _ => .error (.wrongValue "invalid literal for int() with base 10")
  | v => .error (.wrongType v.typeName)

/-- A text without line ends at its end. -/
def withoutLineEnd (s : String) : String :=
  String.ofList (Text.trimEnd (fun c => c == '\r' || c == '\n') s.toList)

/-- The match that the data of a match event describes; none if a part is missing or not text. -/
def Scope.matchOf? (scope : Scope) (data : Value) : Except Mishap (Option Match) := do
  let path ← objectMember data "path" >>= (memberOf · "text")
  let line ← objectMember data "lines" >>= (memberOf · "text")
  let number ← memberOf data "line_number"
  match path, line, number with
  | .null, _, _ => return none
  | _, .null, _ => return none
  | _, _, .null => return none
  | _, _, _ =>
    let path := Text.withoutStart (← textOf path) "./"
    let line := withoutLineEnd (← textOf line)
    return some
      { path, line := ← lineNumber number, text := Text.strip line
        score := score path line scope.primaryDirs scope.settings.testDirs
          scope.settings.longLineThreshold }

def Scope.eventOf? (scope : Scope) (line : String) : Except Mishap (Option Match) :=
  if Text.allBlank line then .ok none
  else
    match Value.ofJson? line scope.depth with
    | .error .tooDeep => .error .nestedTooDeep
    | .error .numberTooLong => .error (.wrongValue "Exceeds the limit for integer string conversion")
    | .error _ => .ok none
    | .ok event => do
      match ← memberOf event "type" with
      | .text "match" => scope.matchOf? (← objectMember event "data")
      | _ => return none

def Scope.matches? (scope : Scope) (output : String) : Except Mishap (List Match) :=
  ((Text.lines output).mapM scope.eventOf?).map fun found => found.filterMap id

/-- The items before a limit; a negative limit counts from the end. -/
def firsts {α : Type} (limit : Int) (items : List α) : List α :=
  if 0 ≤ limit then items.take limit.toNat else items.take (items.length - limit.natAbs)

/-- The matches by falling score, equal ones in their order. -/
def byScore (found : List Match) : List Match :=
  found.mergeSort fun a b => b.score ≤ a.score

/-- The best matches, at most so many. -/
def best (limit : Int) (found : List Match) : List Match :=
  firsts limit (byScore found)

/-- All matches of a line search, from what came of running the program. -/
def Scope.found (scope : Scope) : Program.Outcome → Except Trouble (List Match)
  | .notFound =>
    .error (.failure (.fallbackUnavailable
      ("executable not found: " ++ scope.settings.executable) none))
  | .notStarted reason =>
    .error (.failure (.fallbackUnavailable ("cannot start ripgrep: " ++ reason) none))
  | .timedOut =>
    .error (.failure (.fallbackUnavailable
      ("timed out after " ++ Value.shownFloat scope.settings.timeout ++ " seconds") none))
  | .exited code output errors =>
    if code == 1 then .ok []
    else if code != 0 then
      let reason := Text.strip (Text.ofBytes errors)
      .error (.failure (.fallbackUnavailable
        (if reason == "" then "exited with code " ++ toString code else reason) (some code)))
    else
      match scope.matches? (Text.ofBytes output) with
      | .ok found => .ok found
      | .error m => .error (.mishap m)

end CodeIndex.LineSearch
