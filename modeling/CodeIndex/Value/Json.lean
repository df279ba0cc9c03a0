import CodeIndex.Decimal.Shortest
import CodeIndex.Text.Quoted
import CodeIndex.Value.Basic

/-!
# Writing JSON

JSON text in ASCII: every character outside the printable ASCII range is escaped, one beyond the
sixteen-bit range as a surrogate pair.  A value is written on one line, or spread over indented lines.
-/

namespace CodeIndex.Value

open CodeIndex.Text (hexDigits)

def jsonNumbers : Decimal.Style :=
  { nan := "NaN", infinity := "Infinity", leastPoint := -3, greatestPoint := 16 }

/-- The separators between items and after keys. -/
structure JsonLayout where
  item : String := ", "
  key : String := ": "
  /-- Blanks per level of nesting; on one line if absent. -/
  indent : Option Nat := none

def unitEscape (n : Nat) : List Char :=
  '\\' :: 'u' :: hexDigits 4 n

def jsonPoint (n : Nat) : List Char :=
  if n == 0x22 then ['\\', '\x22']
  else if n == 0x5C then ['\\', '\\']
  else if n == 10 then ['\\', 'n']
  else if n == 13 then ['\\', 'r']
  else if n == 9 then ['\\', 't']
  else if n == 12 then ['\\', 'f']
  else if n == 8 then ['\\', 'b']
  else if 0x20 ≤ n && n ≤ 0x7E then [Char.ofNat n]
  else if n < 0x10000 then unitEscape n
  else unitEscape (0xD800 + (n - 0x10000) / 0x400) ++ unitEscape (0xDC00 + (n - 0x10000) % 0x400)

def jsonString (s : String) : String :=
  String.ofList ('\x22' :: s.toList.flatMap (fun c => jsonPoint c.toNat) ++ ['\x22'])

/-- A line break followed by the indent of a level, or nothing on one line. -/
def JsonLayout.breakLine (layout : JsonLayout) (level : Nat) : String :=
  match layout.indent with
  | some width => "\n" ++ String.ofList (List.replicate (width * level) ' ')
  | none => ""

mutual

def toJson (layout : JsonLayout) (level : Nat) : Value → String
  | .null => "null"
  | .bool b => if b then "true" else "false"
  | .int n => toString n
  | .float x => Decimal.write jsonNumbers x
  | .text s => jsonString s
  | .broken points => String.ofList ('\x22' :: points.flatMap jsonPoint ++ ['\x22'])
  | .moment shown => jsonString shown
  | .list [] => "[]"
  | .list (v :: rest) =>
    "[" ++ layout.breakLine (level + 1) ++ toJson layout (level + 1) v ++
      itemsToJson layout (level + 1) rest ++ layout.breakLine level ++ "]"
  | .map [] => "\x7b\x7d"
  | .map ((k, v) :: rest) =>
    "\x7b" ++ layout.breakLine (level + 1) ++ jsonString k ++ layout.key ++
      toJson layout (level + 1) v ++ membersToJson layout (level + 1) rest ++
      layout.breakLine level ++ "\x7d"

/-- The items after the first of a list. -/
def itemsToJson (layout : JsonLayout) (level : Nat) : List Value → String
  | [] => ""
  | v :: rest =>
    layout.item ++ layout.breakLine level ++ toJson layout level v ++ itemsToJson layout level rest

/-- The members after the first of a map. -/
def membersToJson (layout : JsonLayout) (level : Nat) : List (String × Value) → String
  | [] => ""
  | (k, v) :: rest =>
    layout.item ++ layout.breakLine level ++ jsonString k ++ layout.key ++ toJson layout level v ++
      membersToJson layout level rest

end

/-- A value in JSON on one line, with a blank after each separator. -/
def json (v : Value) : String :=
  v.toJson {} 0

/-- A value in JSON over several lines, indented by `width`. -/
def indentedJson (width : Nat) (v : Value) : String :=
  v.toJson { item := ",", indent := some width } 0

end CodeIndex.Value
