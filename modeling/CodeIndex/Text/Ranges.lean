/-!
# Tables of code points

Two shapes of table: ranges of code points that share a property, and runs of code points that a
mapping moves by one offset.
-/

namespace CodeIndex.Text

abbrev Ranges := Array (Nat × Nat)

def inRanges (ranges : Ranges) (n : Nat) : Bool :=
  ranges.any fun (lo, hi) => lo ≤ n && n ≤ hi

/-- A run of code points, every `stride`-th from `lo` to `hi`, that move by `delta`. -/
structure Shift where
  lo : Nat
  hi : Nat
  stride : Nat
  delta : Int
  deriving Repr

/-- The image of a code point under one run, if the run covers it. -/
def Shift.shifted? (run : Shift) (n : Nat) : Option Nat :=
  if run.lo ≤ n && n ≤ run.hi && (n - run.lo) % run.stride == 0 then
    some (Int.toNat (n + run.delta))
  else
    none

/-- The image of a code point under the first run that covers it. -/
def shift? (runs : Array Shift) (n : Nat) : Option Nat :=
  runs.findSome? (·.shifted? n)

end CodeIndex.Text
