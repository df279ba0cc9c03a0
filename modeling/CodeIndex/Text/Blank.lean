/-!
# Blank characters

Two sets of blank characters are in use.  White space proper is the standard's property; the wider
set also has the four information separators U+001C to U+001F and is what trimming a line removes.
-/

namespace CodeIndex.Text

def isWhite (c : Char) : Bool :=
  let n := c.toNat
  (9 ≤ n && n ≤ 13) || n == 0x20 || n == 0x85 || n == 0xA0 || n == 0x1680 ||
    (0x2000 ≤ n && n ≤ 0x200A) || n == 0x2028 || n == 0x2029 || n == 0x202F || n == 0x205F ||
    n == 0x3000

def isBlank (c : Char) : Bool :=
  isWhite c || (0x1C ≤ c.toNat && c.toNat ≤ 0x1F)

def trimBoth (p : Char → Bool) (cs : List Char) : List Char :=
  ((cs.dropWhile p).reverse.dropWhile p).reverse

def trimEnd (p : Char → Bool) (cs : List Char) : List Char :=
  (cs.reverse.dropWhile p).reverse

/-- A text without the blanks around it. -/
def strip (s : String) : String :=
  String.ofList (trimBoth isBlank s.toList)

/-- Whether a text is empty or has only blanks. -/
def allBlank (s : String) : Bool :=
  s.toList.all isBlank

end CodeIndex.Text
