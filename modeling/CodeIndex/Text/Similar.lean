/-!
# Similar texts

How much two texts have in common: their longest common block, and likewise what stands before it and
what stands behind it.  Two texts are similar if the blocks make up three fifths of both.
-/

namespace CodeIndex.Text

/-- The length of the longest common start of two texts. -/
def commonStart : List Char → List Char → Nat
  | a :: as, b :: bs => if a == b then commonStart as bs + 1 else 0
  | _, _ => 0

structure Block where
  /-- Where it starts in each text. -/
  left : Nat
  right : Nat
  size : Nat
  deriving Repr, DecidableEq

/-- The longer of two blocks, the first if they are equally long. -/
def Block.longer (a b : Block) : Block :=
  if a.size < b.size then b else a

/-- The longest common block, the first one of several. -/
def longestBlock (a b : List Char) : Block :=
  (List.range a.length).foldl (fun best i =>
    (List.range b.length).foldl (fun best j =>
      best.longer { left := i, right := j, size := commonStart (a.drop i) (b.drop j) }) best)
    { left := 0, right := 0, size := 0 }

def commonSize : Nat → List Char → List Char → Nat
  | 0, _, _ => 0
  | fuel + 1, a, b =>
    let block := longestBlock a b
    if block.size == 0 then 0
    else
      block.size + commonSize fuel (a.take block.left) (b.take block.right)
        + commonSize fuel (a.drop (block.left + block.size)) (b.drop (block.right + block.size))

/-- A text with the characters that it has in common with another, and the length of both. -/
structure Likeness where
  text : String
  common : Nat
  total : Nat

def likeness (s candidate : String) : Likeness :=
  { text := candidate
    common := commonSize candidate.length candidate.toList s.toList
    total := candidate.length + s.length }

/-- Whether the common characters, counted on both sides, make up three fifths of both texts. -/
def Likeness.isSimilar (l : Likeness) : Bool :=
  3 * l.total ≤ 10 * l.common

/-- Order on likenesses: the greater share first, and of equal shares the greater text. -/
def Likeness.precedes (a b : Likeness) : Bool :=
  b.common * a.total < a.common * b.total
    || (b.common * a.total == a.common * b.total && b.text ≤ a.text)

/-- The candidates that are most similar to a text, at most three. -/
def mostSimilar (s : String) (candidates : List String) : List String :=
  (((candidates.map (likeness s)).filter Likeness.isSimilar).mergeSort Likeness.precedes).map
    (·.text) |>.take 3

end CodeIndex.Text
