import CodeIndex.FileTree.Basic
import CodeIndex.Text.Blank
import CodeIndex.Text.Similar
import CodeIndex.Text.Quoted
import CodeIndex.Decimal.Read

/-!
# Grammars of commands

What a command can be given: options, most of which are switches, and operands.  A grammar reads arguments
into values and says what is wrong with them.  Options are read wherever they stand; of an option that is
given twice the last value counts, and it is checked at the place of the first.
-/

namespace CodeIndex.CommandLine

inductive Fault where
  | unknownOption (name : String) (similar : List String)
  /-- An option stands at the end and needs a value. -/
  | valueMissing (name : String)
  /-- An option has a value and takes none. -/
  | valueUnwanted (name : String)
  | badValue (parameter reason : String)
  | operandMissing (label : String)
  | tooMany (arguments : List String)
  | unknownCommand (name : String)
  | noCommand
  deriving Repr, DecidableEq

def hint : List String → String
  | [] => ""
  | [name] => " Did you mean " ++ name ++ "?"
  | names => " (Possible options: " ++ ", ".intercalate (names.mergeSort fun a b => a ≤ b) ++ ")"

def Fault.message : Fault → String
  | .unknownOption name similar => "No such option: " ++ name ++ hint similar
  | .valueMissing name => "Option " ++ Text.quoted name ++ " requires an argument."
  | .valueUnwanted name => "Option " ++ Text.quoted name ++ " does not take a value."
  | .badValue parameter reason => "Invalid value for " ++ parameter ++ ": " ++ reason
  | .operandMissing label => "Missing argument '" ++ label ++ "'."
  | .tooMany [argument] => "Got unexpected extra argument (" ++ argument ++ ")"
  | .tooMany arguments => "Got unexpected extra arguments (" ++ " ".intercalate arguments ++ ")"
  | .unknownCommand name => "No such command " ++ Text.quoted name ++ "."
  | .noCommand => "Missing command."

/-! ## Values -/

inductive Kind where
  | text
  | integer
  /-- An integer within bounds. -/
  | count (least greatest : Int)
  /-- A path, whether it leads to something or not. -/
  | path
  /-- A path that leads to something. -/
  | existing
  /-- A path that leads to a directory. -/
  | directory
  deriving Repr, DecidableEq

/-- The digits of an integer, single underscores between them being dropped. -/
def digits? : List Char → Option (List Char)
  | [] => none
  | [c] => if Text.isAsciiDigit c then some [c] else none
  | c :: '_' :: rest => if Text.isAsciiDigit c then (digits? rest).map (c :: ·) else none
  | c :: rest => if Text.isAsciiDigit c then (digits? rest).map (c :: ·) else none

/-- The integer that a text spells: digits with an optional sign, and blanks around them. -/
def integer? (s : String) : Option Int :=
  let read := fun (cs : List Char) => (digits? cs).map fun ds => (Decimal.natOfDigits ds : Int)
  match (Text.strip s).toList with
  | '-' :: rest => (read rest).map (-·)
  | '+' :: rest => read rest
  | cs => read cs

structure Place where
  tree : Node
  here : Path

/-- The entry that a path leads to; the empty text leads nowhere. -/
def Place.find? (place : Place) (s : String) : Option Node :=
  if s == "" then none else place.tree.find? (place.here.under (Path.ofString s))

/-- Why a text is no integer within bounds. -/
def countFault? (least greatest : Int) (s : String) : Option String :=
  match integer? s with
  | none => some (Text.quoted s ++ " is not a valid integer range.")
  | some n =>
    if least ≤ n && n ≤ greatest then none
    else some (toString n ++ " is not in the range " ++ toString least ++ "<=x<="
      ++ toString greatest ++ ".")

/-- Why a value is not what it has to be. -/
def Kind.fault? (place : Place) (s : String) : Kind → Option String
  | .text => none
  | .path => none
  | .integer => if (integer? s).isSome then none else some (Text.quoted s ++ " is not a valid integer.")
  | .count least greatest => countFault? least greatest s
  | .existing =>
    if (place.find? s).isSome then none else some ("Path " ++ Text.quoted s ++ " does not exist.")
  | .directory =>
    match place.find? s with
    | none => some ("Directory " ++ Text.quoted s ++ " does not exist.")
    | some n => if n.isFile then some ("Directory " ++ Text.quoted s ++ " is a file.") else none

/-! ## Grammars -/

/-- An option by its names, the long one first.  One without a kind of value is a switch. -/
structure Switch where
  names : List String
  value : Option Kind := none

def Switch.key (s : Switch) : String :=
  s.names.headD ""

def Switch.label (s : Switch) : String :=
  " / ".intercalate (s.names.map Text.quoted)

inductive Times where
  | once
  | atMostOnce
  | anyNumber
  deriving Repr, DecidableEq

structure Operand where
  label : String
  kind : Kind
  times : Times

structure Grammar where
  /-- The words that call the command. -/
  call : String
  switches : List Switch
  operand : Option Operand
  /-- Whether options may stand behind operands. -/
  isMixed : Bool := true

/-- The switch that asks for help, which every command has. -/
def helpSwitch : Switch :=
  { names := ["--help"] }

def Grammar.allSwitches (g : Grammar) : List Switch :=
  g.switches ++ [helpSwitch]

def Grammar.usage (g : Grammar) : String :=
  "Usage: " ++ g.call ++ " [OPTIONS] " ++ match g.operand with
    | some o => o.label
    | none => "COMMAND [ARGS]..."

def Grammar.switch? (g : Grammar) (name : String) : Option Switch :=
  g.allSwitches.find? (·.names.contains name)

def Grammar.longNames (g : Grammar) : List String :=
  (g.allSwitches.flatMap Switch.names).filter (2 < ·.length)

/-- What was given: options with their values by first appearance, and operands. -/
structure Given where
  options : List (String × String) := []
  operands : List String := []
  deriving Repr, DecidableEq

/-- Sets the value of an option, in place if it was given before. -/
def setOption (options : List (String × String)) (key value : String) : List (String × String) :=
  match options with
  | [] => [(key, value)]
  | (k, v) :: rest => if k == key then (k, value) :: rest else (k, v) :: setOption rest key value

abbrev Taken := Except Fault (List (String × String) × List String)

/-- Takes an option: its value is the one attached to it, or else the next argument. -/
def takeOption (s : Switch) (name : String) (attached : Option String)
    (options : List (String × String)) (rest : List String) : Taken :=
  match s.value, attached, rest with
  | none, none, rest => .ok (setOption options s.key "", rest)
  | none, some _, _ => .error (.valueUnwanted name)
  | some _, some value, rest => .ok (setOption options s.key value, rest)
  | some _, none, value :: rest => .ok (setOption options s.key value, rest)
  | some _, none, [] => .error (.valueMissing name)

/-- Takes options of one letter that stand together; what follows one that takes a value is its value. -/
def takeLetters (g : Grammar) (options : List (String × String)) (rest : List String) :
    List Char → Taken
  | [] => .ok (options, rest)
  | c :: letters =>
    let name := String.ofList ['-', c]
    match g.switch? name with
    | none => .error (.unknownOption name [])
    | some s =>
      if s.value.isSome then
        takeOption s name (if letters.isEmpty then none else some (String.ofList letters)) options rest
      else takeLetters g (setOption options s.key "") rest letters

def takeDashed (g : Grammar) (options : List (String × String)) (argument : String)
    (rest : List String) : Taken :=
  let name := String.ofList (argument.toList.takeWhile (· != '='))
  let attached := if name == argument then none
    else some (String.ofList (argument.toList.drop (name.length + 1)))
  match (g.longNames.find? (· == name)).bind g.switch? with
  | some s => takeOption s name attached options rest
  | none =>
    if Text.startsWith argument "--" then
      .error (.unknownOption name (Text.mostSimilar name g.longNames))
    else takeLetters g options rest argument.toList.tail

def isDashed (argument : String) : Bool :=
  Text.startsWith argument "-" && argument != "-"

/-- Reads arguments; each step takes at least one of them. -/
def Grammar.scanFrom (g : Grammar) : Nat → List String → Given → Except Fault Given
  | 0, rest, given => .ok { given with operands := given.operands ++ rest }
  | _, [], given => .ok given
  | fuel + 1, argument :: rest, given =>
    if argument == "--" then .ok { given with operands := given.operands ++ rest }
    else if isDashed argument then
      match takeDashed g given.options argument rest with
      | .ok (options, rest) => g.scanFrom fuel rest { given with options }
      | .error fault => .error fault
    else if g.isMixed then
      g.scanFrom fuel rest { given with operands := given.operands ++ [argument] }
    else .ok { given with operands := given.operands ++ argument :: rest }

def Grammar.scan (g : Grammar) (arguments : List String) : Except Fault Given :=
  g.scanFrom arguments.length arguments {}

/-- The first fault in the values of options. -/
def Grammar.optionFault? (g : Grammar) (place : Place) (given : Given) : Option Fault :=
  given.options.findSome? fun (key, value) =>
    (g.switch? key).bind fun s =>
      s.value.bind fun kind => (kind.fault? place value).map fun reason => .badValue s.label reason

def Operand.fault? (o : Operand) (place : Place) (operands : List String) : Option Fault :=
  match o.times, operands with
  | .once, [] => some (.operandMissing o.label)
  | .atMostOnce, [] => none
  | .anyNumber, operands =>
    operands.findSome? fun s => (o.kind.fault? place s).map fun reason => badValue o reason
  | _, s :: rest =>
    match o.kind.fault? place s with
    | some reason => some (badValue o reason)
    | none => if rest.isEmpty then none else some (.tooMany rest)
where
  badValue (o : Operand) (reason : String) : Fault :=
    .badValue ("'" ++ o.label ++ "'") reason

/-- What is wrong with what was given: options come before operands. -/
def Grammar.fault? (g : Grammar) (place : Place) (given : Given) : Option Fault :=
  (g.optionFault? place given).or (g.operand.bind fun o => o.fault? place given.operands)

def Given.has (given : Given) (key : String) : Bool :=
  (given.options.lookup key).isSome

def Given.value? (given : Given) (key : String) : Option String :=
  given.options.lookup key

end CodeIndex.CommandLine
