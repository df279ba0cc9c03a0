import CodeIndex.Text.Pieces

/-!
# Places in a YAML text

A cursor is a place in a text: what is still to be read, and the line and column it stands at.  The end
of the text counts as the end of a line and of a word.
-/

namespace CodeIndex.Yaml

structure Cursor where
  rest : List Char
  line : Nat := 0
  column : Nat := 0
  /-- The number of characters before this place. -/
  offset : Nat := 0

def isBreak (c : Char) : Bool :=
  c == '\n' || c == '\r' || c == '\x85' || c == '\u2028' || c == '\u2029'

def endsLine : Option Char → Bool
  | none => true
  | some c => isBreak c

def endsWord : Option Char → Bool
  | none => true
  | some c => c == ' ' || c == '\t' || isBreak c

def endsField : Option Char → Bool
  | none => true
  | some c => c == ' ' || isBreak c

def isAllowed (c : Char) : Bool :=
  let n := c.toNat
  n == 9 || n == 10 || n == 13 || (0x20 ≤ n && n ≤ 0x7E) || n == 0x85 ||
    (0xA0 ≤ n && n ≤ 0xD7FF) || (0xE000 ≤ n && n ≤ 0xFFFD) || 0x10000 ≤ n

namespace Cursor

def peek (c : Cursor) (n : Nat) : Option Char :=
  c.rest[n]?

def head? (c : Cursor) : Option Char :=
  c.rest.head?

/-- The place after one more character.  A byte-order mark has no width. -/
def next (c : Cursor) : Cursor :=
  match c.rest with
  | [] => c
  | x :: rest =>
    if isBreak x && !(x == '\r' && rest.head? == some '\n') then
      { rest, line := c.line + 1, column := 0, offset := c.offset + 1 }
    else if x == '\ufeff' then { c with rest, offset := c.offset + 1 }
    else { c with rest, column := c.column + 1, offset := c.offset + 1 }

def skip (c : Cursor) : Nat → Cursor
  | 0 => c
  | n + 1 => c.next.skip n

/-- The longest run of characters of one kind, and the place after it. -/
def span (c : Cursor) (p : Char → Bool) : List Char × Cursor :=
  let run := c.rest.takeWhile p
  (run, c.skip run.length)

def skipWhile (c : Cursor) (p : Char → Bool) : Cursor :=
  (c.span p).2

/-- Passes a line end, if one comes next: its text, and the place after it. -/
def passBreak (c : Cursor) : List Char × Cursor :=
  match c.rest with
  | '\r' :: '\n' :: _ => (['\n'], c.skip 2)
  | x :: _ =>
    if x == '\u2028' || x == '\u2029' then ([x], c.next)
    else if isBreak x then (['\n'], c.next)
    else ([], c)
  | [] => ([], c)

/-- Whether three equal marks of a document boundary come next. -/
def atMark (c : Cursor) (mark : Char) : Bool :=
  c.rest.take 3 == [mark, mark, mark] && endsWord (c.peek 3)

def atBoundary (c : Cursor) : Bool :=
  c.atMark '-' || c.atMark '.'

/-- Passes blanks, a comment and the end of the line; nothing if anything else stands there. -/
def passComment? (c : Cursor) : Option Cursor :=
  let c := c.skipWhile (· == ' ')
  let c := if c.head? == some '#' then c.skipWhile (!isBreak ·) else c
  if endsLine c.head? then some c.passBreak.2 else none

end Cursor

end CodeIndex.Yaml
