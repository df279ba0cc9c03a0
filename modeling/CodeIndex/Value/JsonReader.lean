import CodeIndex.Decimal.Read
import CodeIndex.Value.Basic

/-!
# Reading JSON

A reader for one JSON text.  Beyond the standard it takes the three tokens for numbers that are not
finite.  It stops at the first fault and names it; text nested deeper than it is to go and integers of more
than `digitLimit` digits are refused as such, not as faults of the text.
-/

namespace CodeIndex.Value

open Text (isAsciiDigit)

inductive JsonFault where
  | expectingValue
  | expectingName
  | expectingColon
  | expectingComma
  | extraData
  | unterminatedString
  | controlCharacter
  | invalidEscape
  | invalidUnicodeEscape
  | byteOrderMark
  /-- Nested deeper than the reader goes. -/
  | tooDeep
  /-- An integer with more digits than the reader converts. -/
  | numberTooLong
  deriving Repr, DecidableEq

def JsonFault.message : JsonFault → String
  | .expectingValue => "Expecting value"
  | .expectingName => "Expecting property name enclosed in double quotes"
  | .expectingColon => "Expecting ':' delimiter"
  | .expectingComma => "Expecting ',' delimiter"
  | .extraData => "Extra data"
  | .unterminatedString => "Unterminated string starting at"
  | .controlCharacter => "Invalid control character at"
  | .invalidEscape => "Invalid \\escape"
  | .invalidUnicodeEscape => "Invalid \\uXXXX escape"
  | .byteOrderMark => "Unexpected UTF-8 BOM (decode using utf-8-sig)"
  | .tooDeep => "nested too deep"
  | .numberTooLong => "integer too long"

/-- How deep a reader goes that is not told otherwise.  How deep one can go depends on how much the machine
has already to remember. -/
def depthLimit : Nat := 990

def isJsonBlank (c : Char) : Bool :=
  c == ' ' || c == '\t' || c == '\n' || c == '\r'

def skipBlanks (cs : List Char) : List Char :=
  cs.dropWhile isJsonBlank

def hexValue? (c : Char) : Option Nat :=
  if isAsciiDigit c then some (c.toNat - 48)
  else if 'a' ≤ c && c ≤ 'f' then some (c.toNat - 87)
  else if 'A' ≤ c && c ≤ 'F' then some (c.toNat - 55)
  else none

def fourHex? : List Char → Option (Nat × List Char)
  | a :: b :: c :: d :: rest =>
    match hexValue? a, hexValue? b, hexValue? c, hexValue? d with
    | some a, some b, some c, some d =>
      if rest.isEmpty then none else some (((a * 16 + b) * 16 + c) * 16 + d, rest)
    | _, _, _, _ => none
  | _ => none

def shortEscape? (c : Char) : Option Nat :=
  if c == '\x22' || c == '\\' || c == '/' then some c.toNat
  else if c == 'b' then some 8
  else if c == 'f' then some 12
  else if c == 'n' then some 10
  else if c == 'r' then some 13
  else if c == 't' then some 9
  else none

/-- The code points of a string after its opening quote, and what follows its closing one.  An escaped
high surrogate joins an escaped low one right after it. -/
def readString : Nat → List Nat → List Char → Except JsonFault (List Nat × List Char)
  | 0, _, _ => .error .unterminatedString
  | _, _, [] => .error .unterminatedString
  | fuel + 1, points, c :: rest =>
    if c == '\x22' then .ok (points.reverse, rest)
    else if c.toNat < 0x20 then .error .controlCharacter
    else if c != '\\' then readString fuel (c.toNat :: points) rest
    else
      match rest with
      | [] => .error .unterminatedString
      | 'u' :: digits =>
        match fourHex? digits with
        | none => .error .invalidUnicodeEscape
        | some (n, after) =>
          if 0xD800 ≤ n && n ≤ 0xDBFF then
            match after with
            | '\\' :: 'u' :: more =>
              if more.length ≤ 4 then readString fuel (n :: points) after
              else
                match fourHex? more with
                | none => .error .invalidUnicodeEscape
                | some (low, beyond) =>
                  if 0xDC00 ≤ low && low ≤ 0xDFFF then
                    readString fuel ((0x10000 + (n - 0xD800) * 0x400 + (low - 0xDC00)) :: points) beyond
                  else readString fuel (n :: points) after
            | _ => readString fuel (n :: points) after
          else readString fuel (n :: points) after
      | e :: more =>
        match shortEscape? e with
        | some n => readString fuel (n :: points) more
        | none => .error .invalidEscape

def ofPoints (points : List Nat) : Value :=
  if points.any isSurrogate then .broken points else .text (String.ofList (points.map Char.ofNat))

/-- A key from its code points; an unpaired surrogate becomes the replacement character. -/
def keyOfPoints (points : List Nat) : String :=
  (Writing.broken points).legible

def readNumber (cs : List Char) : Except JsonFault (Value × List Char) :=
  let (negative, body) := match cs with
    | '-' :: rest => (true, rest)
    | _ => (false, cs)
  let (whole, rest) := match body with
    | '0' :: rest => (['0'], rest)
    | _ => (body.takeWhile isAsciiDigit, body.dropWhile isAsciiDigit)
  if whole.isEmpty then .error .expectingValue
  else
    let (fraction, rest) := match rest with
      | '.' :: more =>
        let digits := more.takeWhile isAsciiDigit
        if digits.isEmpty then ([], rest) else (digits, more.dropWhile isAsciiDigit)
      | _ => ([], rest)
    let (exponent, rest) := match rest with
      | c :: more =>
        if c == 'e' || c == 'E' then
          match Decimal.exponent? more with
          | some (e, beyond) => (some e, beyond)
          | none => (none, rest)
        else (none, rest)
      | [] => (none, rest)
    if fraction.isEmpty && exponent.isNone then
      if digitLimit < whole.length then .error .numberTooLong
      else
        let n : Int := Decimal.natOfDigits whole
        .ok (.int (if negative then -n else n), rest)
    else
      let x := Decimal.Numeral.toFloat ⟨whole, fraction, exponent.getD 0⟩
      .ok (.float (if negative then -x else x), rest)

def after? : List Char → List Char → Option (List Char)
  | [], cs => some cs
  | _ :: _, [] => none
  | p :: ps, c :: cs => if p == c then after? ps cs else none

def constants : List (List Char × Value) :=
  [("null".toList, .null), ("true".toList, .bool true), ("false".toList, .bool false),
   ("NaN".toList, .float (0.0 / 0.0)), ("Infinity".toList, .float (1.0 / 0.0)),
   ("-Infinity".toList, .float (-(1.0 / 0.0)))]

def readScalar (cs : List Char) : Except JsonFault (Value × List Char) :=
  match constants.findSome? (fun (word, v) => (after? word cs).map (v, ·)) with
  | some found => .ok found
  | none => readNumber cs

mutual

/-- A value at the start of a text, and what follows it. -/
def readValue (depth : Nat) : Nat → List Char → Except JsonFault (Value × List Char)
  | 0, _ => .error .expectingValue
  | _, [] => .error .expectingValue
  | fuel + 1, c :: rest =>
    if c == '\x22' then do
      let (points, rest) ← readString (rest.length + 1) [] rest
      return (ofPoints points, rest)
    else if c == '[' then
      match depth with
      | 0 => .error .tooDeep
      | depth + 1 =>
        match skipBlanks rest with
        | ']' :: rest => .ok (.list [], rest)
        | rest => readItems depth fuel [] rest
    else if c == '\x7b' then
      match depth with
      | 0 => .error .tooDeep
      | depth + 1 =>
        match skipBlanks rest with
        | '\x7d' :: rest => .ok (.map [], rest)
        | rest => readMembers depth fuel [] rest
    else readScalar (c :: rest)

def readItems (depth : Nat) : Nat → List Value → List Char → Except JsonFault (Value × List Char)
  | 0, _, _ => .error .expectingValue
  | fuel + 1, items, cs => do
    let (v, rest) ← readValue depth fuel cs
    match skipBlanks rest with
    | ']' :: rest => return (.list (v :: items).reverse, rest)
    | ',' :: rest => readItems depth fuel (v :: items) (skipBlanks rest)
    | _ => .error .expectingComma

def readMembers (depth : Nat) : Nat → List (String × Value) → List Char →
    Except JsonFault (Value × List Char)
  | 0, _, _ => .error .expectingValue
  | fuel + 1, members, cs =>
    match cs with
    | '\x22' :: rest => do
      let (points, rest) ← readString (rest.length + 1) [] rest
      match skipBlanks rest with
      | ':' :: rest => do
        let (v, rest) ← readValue depth fuel (skipBlanks rest)
        let members := (keyOfPoints points, v) :: members
        match skipBlanks rest with
        | '\x7d' :: rest => return (.map (Members.ofPairs members.reverse), rest)
        | ',' :: rest => readMembers depth fuel members (skipBlanks rest)
        | _ => .error .expectingComma
      | _ => .error .expectingColon
    | _ => .error .expectingName

end

/-- The value of a whole JSON text, nested no deeper than the reader goes. -/
def ofJson? (s : String) (depth : Nat := depthLimit) : Except JsonFault Value :=
  let cs := s.toList
  if cs.head? == some '\uFEFF' then .error .byteOrderMark
  else do
    let start := skipBlanks cs
    let (v, rest) ← readValue depth (2 * start.length + 2) start
    if (skipBlanks rest).isEmpty then return v else .error .extraData

end CodeIndex.Value
