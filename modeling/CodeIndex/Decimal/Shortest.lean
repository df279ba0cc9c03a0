import CodeIndex.Decimal.Binary

/-!
# The fewest digits that read back

For 1, 2, … 17 digits the two neighbours of a number on the decimal grid of that many digits are
tested against the interval of reals that round to the number; the first grid with a hit wins, and of
two hits the nearer one.
-/

namespace CodeIndex.Decimal

/-- Digits `d` and exponent `e` standing for `d · 10 ^ e`. -/
structure Scientific where
  digits : Nat
  exponent : Int
  deriving Repr, DecidableEq

/-- The least `k ≤ start + fuel` from `start` up with `num < den · 10 ^ k`. -/
def magnitudeFrom (num den : Nat) : Nat → Nat → Nat
  | 0, k => k
  | fuel + 1, k => if num < den * Nat.pow 10 k then k else magnitudeFrom num den fuel (k + 1)

/-- The number of zeros, at most `fuel`, between the point and the first digit of `num / den`. -/
def leadingZeros (num den : Nat) : Nat → Nat → Nat
  | 0, j => j
  | fuel + 1, j => if den ≤ num * Nat.pow 10 (j + 1) then j else leadingZeros num den fuel (j + 1)

/-- The `k` with `10 ^ (k - 1) ≤ num / den < 10 ^ k`. -/
def magnitude (num den : Nat) : Int :=
  if den ≤ num then
    let low := (Nat.log2 (num / den) * 30102) / 100000
    (magnitudeFrom num den 330 low : Nat)
  else
    -(leadingZeros num den 400 0 : Nat)

/-- The interval of reals that round to `m · 2 ^ q`, over a common denominator. -/
structure RoundingInterval where
  low : Nat
  value : Nat
  high : Nat
  denominator : Nat
  closed : Bool
  deriving Repr

/-- The interval that rounds to `m · 2 ^ q`; below a power of two the grid is twice as fine. -/
def roundingInterval (m : Nat) (q : Int) : RoundingInterval :=
  let (num, den) := ratio (4 * m) q
  let step := num / (4 * m)
  let below := if m == Nat.pow 2 52 && q != -1074 then step else 2 * step
  { low := num - below, value := num, high := num + 2 * step, denominator := 4 * den,
    closed := m % 2 == 0 }

/-- Whether `d · 10 ^ (-scale)` lies in the interval. -/
def RoundingInterval.holds (iv : RoundingInterval) (d : Nat) (scale : Int) : Bool :=
  let up := Nat.pow 10 scale.toNat
  let down := Nat.pow 10 (-scale).toNat
  let x := d * down * iv.denominator
  if iv.closed then iv.low * up ≤ x && x ≤ iv.high * up
  else iv.low * up < x && x < iv.high * up

/-- The better of the two neighbours on the grid of step `10 ^ (-scale)`, if one reads back. -/
def RoundingInterval.onGrid? (iv : RoundingInterval) (scale : Int) : Option Nat :=
  let up := Nat.pow 10 scale.toNat
  let down := Nat.pow 10 (-scale).toNat
  let num := iv.value * up
  let den := iv.denominator * down
  let floor := num / den
  let rest := num % den
  let floorHolds := floor != 0 && iv.holds floor scale
  let ceilHolds := iv.holds (floor + 1) scale
  if floorHolds && ceilHolds then
    if 2 * rest < den || (2 * rest == den && floor % 2 == 0) then some floor else some (floor + 1)
  else if floorHolds then some floor
  else if ceilHolds then some (floor + 1)
  else none

/-- Tries `n`, `n + 1`, … digits. -/
def shortestFrom (iv : RoundingInterval) (k : Int) : Nat → Nat → Scientific
  | 0, n => ⟨iv.value * Nat.pow 10 ((n : Int) - k).toNat / iv.denominator, k - n⟩
  | fuel + 1, n =>
    let scale := (n : Int) - k
    match iv.onGrid? scale with
    | some d => ⟨d, -scale⟩
    | none => shortestFrom iv k fuel (n + 1)

def Scientific.normalize (s : Scientific) : Nat → Scientific
  | 0 => s
  | fuel + 1 =>
    if s.digits != 0 && s.digits % 10 == 0 then
      Scientific.normalize ⟨s.digits / 10, s.exponent + 1⟩ fuel
    else s

/-- The fewest digits that read back as `m · 2 ^ q`, for `m ≠ 0`. -/
def shortest (m : Nat) (q : Int) : Scientific :=
  let iv := roundingInterval m q
  let k := magnitude iv.value iv.denominator
  (shortestFrom iv k 17 1).normalize 20

structure Style where
  /-- The texts of the numbers that are not finite. -/
  nan : String
  infinity : String
  /-- Positional notation is used while the decimal point stands within these bounds. -/
  leastPoint : Int
  greatestPoint : Int

/-- Digits with the decimal point after `point` of them. -/
def positional (digits : List Char) (point : Int) : List Char :=
  if point ≤ 0 then
    '0' :: '.' :: List.replicate (-point).toNat '0' ++ digits
  else
    let p := point.toNat
    if digits.length ≤ p then
      digits ++ List.replicate (p - digits.length) '0' ++ ['.', '0']
    else
      digits.take p ++ '.' :: digits.drop p

/-- Digits in scientific notation, with a sign and at least two digits in the exponent. -/
def scientific (digits : List Char) (point : Int) : List Char :=
  let e := point - 1
  let size := Nat.toDigits 10 e.natAbs
  let size := if size.length < 2 then '0' :: size else size
  let mantissa := match digits with
    | [] => []
    | [d] => [d]
    | d :: rest => d :: '.' :: rest
  mantissa ++ 'e' :: (if e < 0 then '-' else '+') :: size

/-- A number written with the fewest digits that read back. -/
def write (style : Style) (x : Float) : String :=
  match parts x with
  | .nan => style.nan
  | .infinite negative => if negative then "-" ++ style.infinity else style.infinity
  | .finite negative m q =>
    let body :=
      if m == 0 then ['0', '.', '0']
      else
        let s := shortest m q
        let digits := Nat.toDigits 10 s.digits
        let point := digits.length + s.exponent
        if style.leastPoint ≤ point && point ≤ style.greatestPoint then positional digits point
        else scientific digits point
    String.ofList (if negative then '-' :: body else body)

end CodeIndex.Decimal
