import CodeIndex.Decimal.Shortest
import CodeIndex.Text.Quoted
import CodeIndex.Value.Basic

/-!
# Values in messages

The text of a value where a message or a reference list shows it: a text stands for itself, anything
else is written out, texts inside it between quotes.
-/

namespace CodeIndex.Value

open CodeIndex.Text (escapeChar numberEscape quoted)

def shownNumbers : Decimal.Style :=
  { nan := "nan", infinity := "inf", leastPoint := -3, greatestPoint := 16 }

def shownFloat (x : Float) : String :=
  Decimal.write shownNumbers x

def quotedPoints (points : List Nat) : String :=
  let isChar := fun (n : Nat) => !(0xD800 ≤ n && n ≤ 0xDFFF)
  let quote := Text.quoteFor ((points.filter isChar).map Char.ofNat)
  String.ofList (quote ::
    points.flatMap (fun n => if isChar n then escapeChar quote (Char.ofNat n) else numberEscape n) ++
    [quote])

mutual

def nested : Value → String
  | .null => "None"
  | .bool b => if b then "True" else "False"
  | .int n => toString n
  | .float x => shownFloat x
  | .text s => quoted s
  | .broken points => quotedPoints points
  | .moment shown => shown
  | .list [] => "[]"
  | .list (v :: rest) => "[" ++ nested v ++ nestedItems rest ++ "]"
  | .map [] => "\x7b\x7d"
  | .map ((k, v) :: rest) =>
    "\x7b" ++ quoted k ++ ": " ++ nested v ++ nestedMembers rest ++ "\x7d"

/-- The items after the first of a list. -/
def nestedItems : List Value → String
  | [] => ""
  | v :: rest => ", " ++ nested v ++ nestedItems rest

/-- The members after the first of a map. -/
def nestedMembers : List (String × Value) → String
  | [] => ""
  | (k, v) :: rest => ", " ++ quoted k ++ ": " ++ nested v ++ nestedMembers rest

end

/-! ## Values that are not written out -/

mutual

/-- Whether a value, or one inside it, is of a kind; how deep it stands is told too. -/
def hasPart (p : Nat → Value → Bool) (level : Nat) : Value → Bool
  | .list items => p level (.list items) || hasPartItems p (level + 1) items
  | .map members => p level (.map members) || hasPartMembers p (level + 1) members
  | v => p level v

def hasPartItems (p : Nat → Value → Bool) (level : Nat) : List Value → Bool
  | [] => false
  | v :: rest => hasPart p level v || hasPartItems p level rest

def hasPartMembers (p : Nat → Value → Bool) (level : Nat) : List (String × Value) → Bool
  | [] => false
  | (_, v) :: rest => hasPart p level v || hasPartMembers p level rest

end

/-- Whether a value has an integer of more digits than are written. -/
def hasLongInteger (v : Value) : Bool :=
  v.hasPart (fun _ part => match part with
    | .int n => Nat.pow 10 digitLimit ≤ n.natAbs
    | _ => false) 0

/-- Whether lists and maps are nested in a value more than so many times. -/
def isDeeper (limit : Nat) (v : Value) : Bool :=
  v.hasPart (fun level part => match part with
    | .list _ => limit ≤ level
    | .map _ => limit ≤ level
    | _ => false) 0

/-- What is said of an integer that is not written out. -/
def digitFault : String :=
  "Exceeds the limit (4300 digits) for integer string conversion; "
    ++ "use sys.set_int_max_str_digits() to increase the limit"

def shown : Value → String
  | .text s => s
  | v => v.nested

end CodeIndex.Value
