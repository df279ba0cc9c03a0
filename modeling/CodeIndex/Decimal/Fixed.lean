import CodeIndex.Decimal.Binary

/-!
# Numbers with a fixed count of decimals

The exact value is rounded to the nearest multiple of the last place, a half going to the even
neighbour.
-/

namespace CodeIndex.Decimal

/-- The quotient `num / den` rounded to the nearest integer, a half going to the even one. -/
def roundHalfEven (num den : Nat) : Nat :=
  let floor := num / den
  let rest := num % den
  if 2 * rest < den then floor
  else if den < 2 * rest then floor + 1
  else if floor % 2 == 0 then floor else floor + 1

/-- An integer count of last places, written with `places` decimals. -/
def fixedDigits (places n : Nat) : List Char :=
  let digits := Nat.toDigits 10 n
  let digits := List.replicate (places + 1 - digits.length) '0' ++ digits
  if places == 0 then digits
  else digits.take (digits.length - places) ++ '.' :: digits.drop (digits.length - places)

def fixed (places : Nat) (x : Float) : String :=
  match parts x with
  | .nan => "nan"
  | .infinite negative => if negative then "-inf" else "inf"
  | .finite negative m q =>
    let (num, den) := ratio m q
    let body := fixedDigits places (roundHalfEven (num * Nat.pow 10 places) den)
    String.ofList (if negative then '-' :: body else body)

end CodeIndex.Decimal
