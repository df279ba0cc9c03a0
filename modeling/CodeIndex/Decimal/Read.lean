import CodeIndex.Text.Word

/-!
# Reading numbers

A decimal numeral becomes the nearest binary number; what lies beyond the largest one is infinite.
-/

namespace CodeIndex.Decimal

open Text (isAsciiDigit)

def natOfDigits (digits : List Char) : Nat :=
  digits.foldl (fun n c => 10 * n + (c.toNat - 48)) 0

/-- The number nearest to `digits · 10 ^ exponent`. -/
def nearest (digits : Nat) (exponent : Int) : Float :=
  if digits == 0 then 0.0
  else
    let size : Int := (Nat.log2 digits * 30103 / 100000 : Nat)
    if 400 < size + exponent then 1.0 / 0.0
    else if size + exponent < -400 then 0.0
    else if 0 ≤ exponent then Float.ofScientific (digits * Nat.pow 10 exponent.toNat) false 0
    else Float.ofScientific digits true (-exponent).toNat

/-- The parts of a decimal numeral without its sign. -/
structure Numeral where
  whole : List Char
  fraction : List Char
  exponent : Int
  deriving Repr

def Numeral.toFloat (n : Numeral) : Float :=
  nearest (natOfDigits (n.whole ++ n.fraction)) (n.exponent - n.fraction.length)

def exponent? (cs : List Char) : Option (Int × List Char) :=
  let (negative, body) := match cs with
    | '-' :: rest => (true, rest)
    | '+' :: rest => (false, rest)
    | _ => (false, cs)
  let digits := body.takeWhile isAsciiDigit
  if digits.isEmpty then none
  else
    -- an exponent beyond a million is as good as infinite
    let value : Int := if digits.length < 7 then natOfDigits digits else
      (let d := digits.dropWhile (· == '0'); if d.length < 7 then (natOfDigits d : Int) else 1000000)
    some (if negative then -value else value, body.dropWhile isAsciiDigit)

/-- The longest numeral at the start of a text: digits on at least one side of an optional point, and
an optional exponent. -/
def numeral? (cs : List Char) : Option (Numeral × List Char) :=
  let whole := cs.takeWhile isAsciiDigit
  let rest := cs.dropWhile isAsciiDigit
  let (fraction, rest) := match rest with
    | '.' :: more => (more.takeWhile isAsciiDigit, more.dropWhile isAsciiDigit)
    | _ => ([], rest)
  if whole.isEmpty && fraction.isEmpty then none
  else
    match rest with
    | c :: more =>
      if c == 'e' || c == 'E' then
        match exponent? more with
        | some (e, rest) => some (⟨whole, fraction, e⟩, rest)
        | none => some (⟨whole, fraction, 0⟩, rest)
      else some (⟨whole, fraction, 0⟩, rest)
    | [] => some (⟨whole, fraction, 0⟩, rest)

/-- The number that a whole text names, with an optional sign; also the names of the infinities and of
the undefined number, in any case. -/
def read? (cs : List Char) : Option Float :=
  let (negative, body) := match cs with
    | '-' :: rest => (true, rest)
    | '+' :: rest => (false, rest)
    | _ => (false, cs)
  let signed := fun (x : Float) => if negative then -x else x
  let name := String.ofList (body.map Char.toLower)
  if name == "inf" || name == "infinity" then some (signed (1.0 / 0.0))
  else if name == "nan" then some (0.0 / 0.0)
  else
    match numeral? body with
    | some (n, []) => some (signed n.toFloat)
    | _ => none

end CodeIndex.Decimal
