/-!
# Binary floating point numbers as integers

A finite number is `± m · 2 ^ q`.  Everything that prints a number starts from these integers, so
that no digit depends on a rounded computation.
-/

namespace CodeIndex.Decimal

inductive Parts where
  | nan
  | infinite (negative : Bool)
  | finite (negative : Bool) (m : Nat) (q : Int)
  deriving Repr, DecidableEq

def parts (x : Float) : Parts :=
  let bits := x.toBits.toNat
  let negative := bits / Nat.pow 2 63 == 1
  let exponent : Nat := bits / Nat.pow 2 52 % 2048
  let fraction : Nat := bits % Nat.pow 2 52
  if exponent == 2047 then
    if fraction == 0 then .infinite negative else .nan
  else if exponent == 0 then
    .finite negative fraction (-1074)
  else
    .finite negative (Nat.pow 2 52 + fraction) ((exponent : Int) - 1075)

/-- `m · 2 ^ q` as a quotient of naturals. -/
def ratio (m : Nat) (q : Int) : Nat × Nat :=
  if 0 ≤ q then (m * Nat.pow 2 q.toNat, 1) else (m, Nat.pow 2 (-q).toNat)

def isFinite (x : Float) : Bool :=
  match parts x with
  | .finite .. => true
  | _ => false

def wholePart? (x : Float) : Option Int :=
  match parts x with
  | .finite negative m q =>
    let (num, den) := ratio m q
    if num % den == 0 then
      let n : Int := (num / den : Nat)
      some (if negative then -n else n)
    else
      none
  | _ => none

/-- A finite number cut to its integer part, toward zero. -/
def truncate? (x : Float) : Option Int :=
  match parts x with
  | .finite negative m q =>
    let (num, den) := ratio m q
    let n : Int := (num / den : Nat)
    some (if negative then -n else n)
  | _ => none

end CodeIndex.Decimal
