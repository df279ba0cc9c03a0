/-!
# Lines

A line ends at any of the line boundaries of the standard, a carriage return with a line feed
counting as one; the last line needs no end.  Text read from a file first has its line ends turned
into line feeds.
-/

namespace CodeIndex.Text

def isLineBreak (c : Char) : Bool :=
  let n := c.toNat
  (10 ≤ n && n ≤ 13) || (0x1C ≤ n && n ≤ 0x1E) || n == 0x85 || n == 0x2028 || n == 0x2029

/-- The lines of a text whose current line has the (reversed) start `current`. -/
def linesFrom (current : List Char) : List Char → List (List Char)
  | [] => if current.isEmpty then [] else [current.reverse]
  | '\r' :: '\n' :: rest => current.reverse :: linesFrom [] rest
  | c :: rest =>
    if isLineBreak c then current.reverse :: linesFrom [] rest else linesFrom (c :: current) rest

/-- The lines of a text, without their ends. -/
def lines (s : String) : List String :=
  (linesFrom [] s.toList).map String.ofList

/-- Carriage returns, alone or before a line feed, become line feeds. -/
def foldNewlines : List Char → List Char
  | [] => []
  | '\r' :: '\n' :: rest => '\n' :: foldNewlines rest
  | c :: rest => (if c == '\r' then '\n' else c) :: foldNewlines rest

/-- A text as it is read from a file, with line feeds for line ends. -/
def withLineFeeds (s : String) : String :=
  String.ofList (foldNewlines s.toList)

end CodeIndex.Text
