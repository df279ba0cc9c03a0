import CodeIndex.Decimal.Binary
import CodeIndex.Decimal.Read
import CodeIndex.Failure.Basic
import CodeIndex.Text.Blank
import CodeIndex.Text.Digit
import CodeIndex.Text.Pieces
import CodeIndex.Text.Quoted

/-!
# YAML scalars

What an unquoted scalar stands for: null, a truth value, an integer in one of several bases, a number,
a date, or, failing all, a text.  Underscores inside numerals say nothing, and colons separate places
of base sixty.  The form of a scalar tells what it is to be; that it names such a thing is another matter,
and one that does not stops the reader.
-/

namespace CodeIndex.Yaml

open Text (isAsciiDigit)

inductive Refusal where
  /-- The text is not well-formed. -/
  | malformed
  /-- Something else stopped the reader. -/
  | stopped (m : Mishap)
  deriving Repr, DecidableEq

def orMalformed {α : Type} : Option α → Except Refusal α
  | some a => .ok a
  | none => .error .malformed

/-- What a scalar stands for before its place in the document is known. -/
inductive Reading where
  | value (v : Value)
  /-- The merge key. -/
  | merge
  /-- The default key. -/
  | default
  | stopped (m : Mishap)

def truthWords : List (String × Bool) :=
  [("yes", true), ("Yes", true), ("YES", true), ("no", false), ("No", false), ("NO", false),
   ("true", true), ("True", true), ("TRUE", true), ("false", false), ("False", false),
   ("FALSE", false), ("on", true), ("On", true), ("ON", true), ("off", false), ("Off", false),
   ("OFF", false)]

def nullWords : List String :=
  ["", "~", "null", "Null", "NULL"]

/-- What a digit counts in bases up to sixteen; digits may be of any script. -/
def digit? (c : Char) : Option Nat :=
  (Text.decimalDigit? c).or <|
    if 'a' ≤ c && c ≤ 'f' then some (c.toNat - 87)
    else if 'A' ≤ c && c ≤ 'F' then some (c.toNat - 55)
    else none

def natOfBase (base : Nat) (digits : List Char) : Nat :=
  digits.foldl (fun n c => base * n + (digit? c).getD 0) 0

def isHexDigit (c : Char) : Bool :=
  isAsciiDigit c || ('a' ≤ c && c ≤ 'f') || ('A' ≤ c && c ≤ 'F')

def isNumeralPart (p : Char → Bool) (c : Char) : Bool :=
  p c || c == '_'

/-- A text without a sign at its front. -/
def unsigned (cs : List Char) : List Char :=
  match cs with
  | '-' :: rest => rest
  | '+' :: rest => rest
  | _ => cs

/-- A place of base sixty: one digit, or two digits below sixty. -/
def isSexagesimalPlace : List Char → Bool
  | [d] => isAsciiDigit d
  | [t, d] => '0' ≤ t && t ≤ '5' && isAsciiDigit d
  | _ => false

def isDigitRun : List Char → Bool
  | [] => false
  | d :: rest => isAsciiDigit d && rest.all (isNumeralPart isAsciiDigit)

/-- A run of digits, and behind colons at least one place of base sixty. -/
def isSexagesimal (cs : List Char) : Bool :=
  match Text.piecesBy (· == ':') cs with
  | first :: second :: rest => isDigitRun first && (second :: rest).all isSexagesimalPlace
  | _ => false

def isInt (cs : List Char) : Bool :=
  match unsigned cs with
  | '0' :: 'b' :: d :: rest => (d :: rest).all (isNumeralPart fun c => c == '0' || c == '1')
  | '0' :: 'x' :: d :: rest => (d :: rest).all (isNumeralPart isHexDigit)
  | '0' :: rest => rest.all (isNumeralPart fun c => '0' ≤ c && c ≤ '7')
  | body => isDigitRun body || isSexagesimal body

/-- The part of a numeral from its exponent mark on: nothing, or a mark, a sign and digits. -/
def isSignedExponent : List Char → Bool
  | [] => true
  | e :: s :: d :: rest =>
    (e == 'e' || e == 'E') && (s == '-' || s == '+') && (d :: rest).all isAsciiDigit
  | _ => false

/-- Whether an unquoted scalar has the form of a number with a point. -/
def isFloat (cs : List Char) : Bool :=
  let body := unsigned cs
  if [".inf", ".Inf", ".INF"].contains (String.ofList body) then true
  else if [".nan", ".NaN", ".NAN"].contains (String.ofList cs) then true
  else
    let whole := body.takeWhile (· != '.')
    match body.drop whole.length with
    | '.' :: tail =>
      let fraction := tail.takeWhile (isNumeralPart isAsciiDigit)
      let mark := tail.drop fraction.length
      if whole.isEmpty then body.length == cs.length && isDigitRun fraction && isSignedExponent mark
      else (isDigitRun whole && isSignedExponent mark) || (isSexagesimal whole && mark.isEmpty)
    | _ => false

/-! ## Numbers -/

/-- What a numeral without digits stops with where its first character is asked for. -/
def noCharacter : Mishap :=
  .raised "IndexError" "string index out of range"

/-- The integer that digits spell in a base, with a sign and the mark of the base if they are there. -/
def intIn (base : Nat) (cs : List Char) : Except Mishap Int :=
  let cs := Text.trimBoth Text.isBlank cs
  let body := unsigned cs
  let digits := match body with
    | '0' :: mark :: rest =>
      if (base, mark.toLower) ∈ [(2, 'b'), (8, 'o'), (16, 'x')] then rest else body
    | _ => body
  if digits.isEmpty || !digits.all fun c => (digit? c).any (· < base) then
    .error (.wrongValue ("invalid literal for int() with base " ++ Nat.repr base ++ ": "
      ++ Text.quoted (String.ofList cs)))
  else if base == 10 && Value.digitLimit < digits.length then
    .error (.wrongValue ("Exceeds the limit (4300 digits) for integer string conversion: value has "
      ++ Nat.repr digits.length ++ " digits; use sys.set_int_max_str_digits() to increase the limit"))
  else
    let n : Int := natOfBase base digits
    .ok (if cs.head? == some '-' then -n else n)

def floatIn (cs : List Char) : Except Mishap Float :=
  match Decimal.read? (Text.trimBoth Text.isBlank cs) with
  | some x => .ok x
  | none => .error (.wrongValue ("could not convert string to float: " ++ Text.quoted (String.ofList cs)))

/-- The integer that the text of a scalar names: its base is told by its start. -/
def toInt (cs : List Char) : Except Mishap Int :=
  let cs := cs.filter (· != '_')
  let signed := fun (n : Int) => if cs.head? == some '-' then -n else n
  match unsigned cs with
  | [] => .error noCharacter
  | ['0'] => .ok 0
  | '0' :: 'b' :: rest => (intIn 2 rest).map signed
  | '0' :: 'x' :: rest => (intIn 16 rest).map signed
  | '0' :: rest => (intIn 8 ('0' :: rest)).map signed
  | body =>
    ((Text.piecesBy (· == ':') body).mapM (intIn 10)).map fun places =>
      signed (places.foldl (fun n place => 60 * n + place) 0)

/-- Adds places of base sixty, the last place first, of which the next one counts `unit`. -/
def addPlaces (sum : Float) (unit : Nat) : List Float → Except Mishap Float
  | [] => .ok sum
  | x :: rest =>
    if Decimal.isFinite (Decimal.nearest unit 0) then
      addPlaces (sum + x * Decimal.nearest unit 0) (60 * unit) rest
    else .error (.beyondRange "int too large to convert to float")

def toFloat (cs : List Char) : Except Mishap Float := do
  let cs := (cs.filter (· != '_')).map Char.toLower
  let signed := fun (x : Float) => if cs.head? == some '-' then -x else x
  let body := unsigned cs
  if cs.isEmpty then throw noCharacter
  else if body == ".inf".toList then return signed (1.0 / 0.0)
  else if body == ".nan".toList then return 0.0 / 0.0
  else if body.contains ':' then
    return signed (← addPlaces 0.0 1 (← (Text.piecesBy (· == ':') body).mapM floatIn).reverse)
  else return signed (← floatIn body)

/-! ## Dates -/

def daysIn (year month : Nat) : Nat :=
  if month == 2 then
    if year % 4 == 0 && (year % 100 != 0 || year % 400 == 0) then 29 else 28
  else if [4, 6, 9, 11].contains month then 30
  else 31

def twoDigits (n : Nat) : String :=
  if n < 10 then "0" ++ Nat.repr n else Nat.repr n

/-- The date at the start of a text with digits and hyphens, its month and day of one or two digits. -/
def dateParts? (cs : List Char) : Option (Nat × List Char × List Char × List Char) :=
  let year := cs.takeWhile isAsciiDigit
  match cs.drop year.length with
  | '-' :: rest =>
    let month := rest.takeWhile isAsciiDigit
    match rest.drop month.length with
    | '-' :: rest =>
      let day := rest.takeWhile isAsciiDigit
      if year.length == 4 && 1 ≤ month.length && month.length ≤ 2 && 1 ≤ day.length && day.length ≤ 2
      then some (Decimal.natOfDigits year, month, day, rest.drop day.length)
      else none
    | _ => none
  | _ => none

/-- The time of day after a date: hours, minutes, seconds, fraction, zone. -/
def timeOfDay? (cs : List Char) : Option (Nat × Nat × Nat × List Char × List Char) :=
  let rest? := match cs with
    | c :: rest =>
      if c == 'T' || c == 't' then some rest
      else if c == ' ' || c == '\t' then some (rest.dropWhile (fun c => c == ' ' || c == '\t'))
      else none
    | [] => none
  match rest? with
  | none => none
  | some rest =>
    let hour := rest.takeWhile isAsciiDigit
    match rest.drop hour.length with
    | ':' :: m1 :: m2 :: ':' :: s1 :: s2 :: rest =>
      if 1 ≤ hour.length && hour.length ≤ 2 && [m1, m2, s1, s2].all isAsciiDigit then
        let (fraction, rest) := match rest with
          | '.' :: more => (more.takeWhile isAsciiDigit, more.dropWhile isAsciiDigit)
          | _ => ([], rest)
        some (Decimal.natOfDigits hour, Decimal.natOfDigits [m1, m2], Decimal.natOfDigits [s1, s2],
          fraction, rest.dropWhile (fun c => c == ' ' || c == '\t'))
      else none
    | _ => none

/-- The zone after a time: none, `Z`, or a sign with hours and minutes; its distance in minutes. -/
def zone? : List Char → Option (Option Int)
  | [] => some none
  | ['Z'] => some (some 0)
  | sign :: rest =>
    if sign == '+' || sign == '-' then
      let hours := rest.takeWhile isAsciiDigit
      let minutes? := match rest.drop hours.length with
        | [] => some 0
        | [':', a, b] => if isAsciiDigit a && isAsciiDigit b then some (Decimal.natOfDigits [a, b]) else none
        | _ => none
      match minutes? with
      | some m =>
        if 1 ≤ hours.length && hours.length ≤ 2 then
          let distance : Int := 60 * Decimal.natOfDigits hours + m
          some (some (if sign == '-' then -distance else distance))
        else none
      | none => none
    else none

def zoneText (distance : Int) : String :=
  (if distance < 0 then "-" else "+") ++ twoDigits (distance.natAbs / 60) ++ ":"
    ++ twoDigits (distance.natAbs % 60)

def fourDigits (n : Nat) : String :=
  let s := Nat.repr n
  "".pushn '0' (4 - s.length) ++ s

/-- What is wrong with a date, if anything. -/
def dateFault? (year month day : Nat) : Option String :=
  if year < 1 then some "year 0 is out of range"
  else if month < 1 || 12 < month then some "month must be in 1..12"
  else if day < 1 || daysIn year month < day then some "day is out of range for month"
  else none

/-- What is wrong with a time of day, if anything. -/
def timeFault? (hour minute second : Nat) : Option String :=
  if 24 ≤ hour then some "hour must be in 0..23"
  else if 60 ≤ minute then some "minute must be in 0..59"
  else if 60 ≤ second then some "second must be in 0..59"
  else none

/-- What is wrong with a zone, if anything: it is a day or more away. -/
def zoneFault? (distance : Option Int) : Option String :=
  if distance.any fun d => 1440 ≤ d.natAbs then
    some "offset must be strictly between -timedelta(hours=24) and timedelta(hours=24)"
  else none

/-- The date or time that the text of a scalar names; nothing if it has not the form of one. -/
def moment? (cs : List Char) : Option (Except Mishap String) :=
  match dateParts? cs with
  | none => none
  | some (year, month, day, rest) =>
    let m := Decimal.natOfDigits month
    let d := Decimal.natOfDigits day
    let date := fourDigits year ++ "-" ++ twoDigits m ++ "-" ++ twoDigits d
    if rest.isEmpty then
      some (match dateFault? year m d with
        | some fault => .error (.wrongValue fault)
        | none => .ok date)
    else
      match timeOfDay? rest with
      | none => none
      | some (h, min, sec, fraction, zone) =>
        (zone? zone).map fun distance =>
          match ((zoneFault? distance).or (dateFault? year m d)).or (timeFault? h min sec) with
          | some fault => .error (.wrongValue fault)
          | none =>
            let micro := (fraction.take 6) ++ List.replicate (6 - (fraction.take 6).length) '0'
            let point := if micro.all (· == '0') then "" else "." ++ String.ofList micro
            .ok (date ++ " " ++ twoDigits h ++ ":" ++ twoDigits min ++ ":" ++ twoDigits sec ++ point
              ++ (distance.map zoneText).getD "")

/-- Whether an unquoted scalar has the form of a date or a time. -/
def isMoment (cs : List Char) : Bool :=
  match dateParts? cs with
  | none => false
  | some (_, month, day, rest) =>
    if rest.isEmpty then month.length == 2 && day.length == 2 else (moment? cs).isSome

/-! ## Scalars -/

def Reading.ofResult {α : Type} (value : α → Value) : Except Mishap α → Reading
  | .ok a => .value (value a)
  | .error m => .stopped m

def resolve (s : String) : Reading :=
  let cs := s.toList
  match truthWords.lookup s with
  | some b => .value (.bool b)
  | none =>
    if nullWords.contains s then .value .null
    else if s == "<<" then .merge
    else if s == "=" then .default
    else if isInt cs then .ofResult .int (toInt cs)
    else if isFloat cs then .ofResult .float (toFloat cs)
    else if isMoment cs then
      match moment? cs with
      | some result => .ofResult .moment result
      | none => .value (.text s)
    else .value (.text s)

end CodeIndex.Yaml
