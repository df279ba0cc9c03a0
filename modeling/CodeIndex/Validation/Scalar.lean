import CodeIndex.Decimal.Binary
import CodeIndex.Decimal.Read
import CodeIndex.Text.Blank
import CodeIndex.Validation.Fault
import CodeIndex.Value.Basic

/-!
# Checked scalars

How a dynamic value is taken for a text, an integer, a number, a truth value or a list.  Numerals in
texts are read, whole numbers count as integers and truth values as 0 and 1; nothing else is turned
into a text.
-/

namespace CodeIndex.Validation

open Text (isAsciiDigit)

variable {α : Type}

def text : Value → Checked Writing
  | .text s => .ok s
  | .broken points => .ok (.broken points)
  | v => .complain .stringType v

/-- A text as settings hold it: surrogates are replaced. -/
def legibleText (v : Value) : Checked String :=
  (text v).map Writing.legible

def wholeText : Value → Checked String
  | .text s => .ok s
  | .broken points => .complain .stringUnicode (.broken points)
  | v => .complain .stringType v

/-- A text with at least one character.  A bound on the length is counted on the encoded text. -/
def nonEmptyText (v : Value) : Checked String :=
  (wholeText v).andThen fun s => if s == "" then .complain .stringTooShort v else .ok s

/-- What is left of a numeral after its leading zeros; one zero stays before a point or the end. -/
def dropLeadingZeros (cs : List Char) : Option (List Char) :=
  match cs with
  | [] => none
  | '0' :: rest => go '0' rest
  | c :: _ => if ('1' ≤ c && c ≤ '9') || c == '-' then some cs else none
where
  go (last : Char) : List Char → Option (List Char)
    | [] => some [last]
    | c :: rest =>
      if c == '0' || c == '_' then go c rest
      else if '1' ≤ c && c ≤ '9' then some (c :: rest)
      else if c == '.' then some (last :: c :: rest)
      else none

/-- A numeral without a fraction of zeros. -/
def dropZeroFraction (cs : List Char) : List Char :=
  let whole := cs.takeWhile (· != '.')
  match cs.drop whole.length with
  | '.' :: zeros => if zeros.all (· == '0') then whole else cs
  | _ => cs

def hasDoubleUnderscore : List Char → Bool
  | '_' :: '_' :: _ => true
  | _ :: rest => hasDoubleUnderscore rest
  | [] => false

/-- A numeral without its underscores, if they are single and inside. -/
def withoutUnderscores? (cs : List Char) : Option (List Char) :=
  if cs.head? == some '_' || cs.getLast? == some '_' || hasDoubleUnderscore cs || !cs.contains '_' then
    none
  else
    some (cs.filter (· != '_'))

def intOfText (s : String) : Checked Int :=
  let cs := Text.trimBoth Text.isWhite s.toList
  let cs? := match cs with
    | '+' :: '-' :: _ => none
    | '+' :: rest => some rest
    | _ => some cs
  match cs?.bind dropLeadingZeros with
  | none => .complain .intParsing (.text s)
  | some cs =>
    let cs := dropZeroFraction cs
    let cs := (withoutUnderscores? cs).getD cs
    let (negative, digits) := match cs with
      | '-' :: rest => (true, rest)
      | _ => (false, cs)
    if digits.isEmpty || !digits.all isAsciiDigit || (digits.head? == some '0' && digits.length != 1) then
      .complain .intParsing (.text s)
    else if 4300 < digits.length then .complain .intParsingSize (.text s)
    else
      let n : Int := Decimal.natOfDigits digits
      .ok (if negative then -n else n)

def intOfFloat (x : Float) : Checked Int :=
  if !Decimal.isFinite x then .complain .finiteNumber (.float x)
  else
    match Decimal.wholePart? x with
    | none => .complain .intFromFloat (.float x)
    | some n => if n.natAbs < Nat.pow 2 63 then .ok n else .complain .intParsingSize (.float x)

def int : Value → Checked Int
  | .int n => .ok n
  | .bool b => .ok (if b then 1 else 0)
  | .float x => intOfFloat x
  | .text s => intOfText s
  | .broken points => .complain .intParsing (.broken points)
  | v => .complain .intType v

/-- An integer that is not below a bound. -/
def intFrom (bound : Int) (v : Value) : Checked Int :=
  (int v).andThen fun n => if n < bound then .complain (.atLeast bound) v else .ok n

def natural (v : Value) : Checked Nat :=
  (intFrom 0 v).map Int.toNat

def boolOfText? (s : String) : Option Bool :=
  let s := String.ofList (s.toList.map Char.toLower)
  if ["1", "t", "true", "y", "yes", "on"].contains s then some true
  else if ["0", "f", "false", "n", "no", "off"].contains s then some false
  else none

def boolOfInt (n : Int) (input : Value) : Checked Bool :=
  if n == 0 then .ok false else if n == 1 then .ok true else .complain .boolParsing input

def bool : Value → Checked Bool
  | .bool b => .ok b
  | .int n =>
    if -Int.pow 2 63 ≤ n && n < Int.pow 2 63 then boolOfInt n (.int n) else .complain .boolType (.int n)
  | .float x =>
    match intOfFloat x with
    | .ok n => boolOfInt n (.float x)
    | .faults _ => .complain .boolType (.float x)
  | .text s =>
    match boolOfText? s with
    | some b => .ok b
    | none => .complain .boolParsing (.text s)
  | .broken points => .complain .boolParsing (.broken points)
  | v => .complain .boolType v

def floatOfText (s : String) : Checked Float :=
  let cs := Text.trimBoth Text.isWhite s.toList
  match Decimal.read? cs with
  | some x => .ok x
  | none =>
    match (withoutUnderscores? s.toList).bind Decimal.read? with
    | some x => .ok x
    | none => .complain .floatParsing (.text s)

def floatOfInt (n : Int) : Float :=
  let x := Decimal.nearest n.natAbs 0
  if n < 0 then -x else x

def float : Value → Checked Float
  | .float x => .ok x
  | .int n => if Decimal.isFinite (floatOfInt n) then .ok (floatOfInt n) else .complain .floatType (.int n)
  | .bool b => .ok (if b then 1.0 else 0.0)
  | .text s => floatOfText s
  | .broken points => .complain .floatParsing (.broken points)
  | v => .complain .floatType v

def list (item : Value → Checked α) : Value → Checked (List α)
  | .list items => Checked.all item items 0
  | v => .complain .listType v

def optional (item : Value → Checked α) : Value → Checked (Option α)
  | .null => .ok none
  | v => (item v).map some

def option (options : List String) : Value → Checked String
  | .text s => if options.contains s then .ok s else .complain (.option options) (.text s)
  | v => .complain (.option options) v

def required (members : Value.Members) (name : String) (check : Value → Checked α) : Checked α :=
  match members.get? name with
  | some v => (check v).inside (.key name)
  | none => Checked.inside (.key name) (.complain .missing (.map members))

def member (members : Value.Members) (name : String) (check : Value → Checked α) (default : α) :
    Checked α :=
  match members.get? name with
  | some v => (check v).inside (.key name)
  | none => .ok default

/-- The first of several spellings of a member that is there. -/
def spelled? (members : Value.Members) : List String → Option (String × Value)
  | [] => none
  | name :: rest =>
    match members.get? name with
    | some v => some (name, v)
    | none => spelled? members rest

end CodeIndex.Validation
