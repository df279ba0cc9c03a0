import CodeIndex.Text.Blank
import CodeIndex.Text.Case
import CodeIndex.Text.Columns

/-!
# Marked-up text

Text in which names between brackets style what follows them, up to the same name behind a slash.  On a
terminal without styles the marks are dropped; a bracket behind a backslash is text.
-/

namespace CodeIndex.CommandLine.Markup

def startsMark (c : Char) : Bool :=
  ('a' ≤ c && c ≤ 'z') || c == '#' || c == '/' || c == '@'

def mark? : List Char → Option (List Char × List Char)
  | '[' :: c :: rest =>
    let inside := fun (d : Char) => d != '[' && d != ']'
    match startsMark c, rest.dropWhile inside with
    | true, ']' :: after => some (c :: rest.takeWhile inside, after)
    | _, _ => none
  | _ => none

def styleName (cs : List Char) : String :=
  Text.lower (Text.strip (String.ofList (cs.takeWhile (· != '='))))

/-- The open styles after a mark, the innermost first; nothing if it closes what is not open. -/
def afterMark (opened : List String) : List Char → Option (List String)
  | '/' :: cs =>
    let name := styleName cs
    if name == "" then (if opened.isEmpty then none else some opened.tail)
    else if opened.contains name then some (opened.erase name)
    else none
  | cs => some (styleName cs :: opened)

/-- The text without its marks, and nothing if a mark closes what is not open. -/
def plainFrom : Nat → List String → List Char → Option (List Char)
  | 0, _, cs => some cs
  | _, _, [] => some []
  | fuel + 1, opened, c :: cs =>
    let slashes := (c :: cs).takeWhile (· == '\\')
    let rest := (c :: cs).dropWhile (· == '\\')
    match mark? rest with
    | some (inner, after) =>
      let kept := List.replicate (slashes.length / 2) '\\'
      if slashes.length % 2 == 1 then
        (plainFrom fuel opened after).map fun t => kept ++ '[' :: inner ++ ']' :: t
      else
        (afterMark opened inner).bind fun opened => (plainFrom fuel opened after).map (kept ++ ·)
    | none =>
      match slashes, rest with
      | _ :: fewer, '[' :: after => (plainFrom fuel opened after).map (fewer ++ '[' :: ·)
      | [], _ => (plainFrom fuel opened cs).map (c :: ·)
      | slashes, rest => (plainFrom fuel opened rest).map (slashes ++ ·)

def isDropped (c : Char) : Bool :=
  c == '\x07' || c == '\x08' || c == '\x0b' || c == '\x0c' || c == '\r'

/-- A text with blanks up to the next eighth column in place of each tab. -/
def withoutTabs (column : Nat) : List Char → List Char
  | [] => []
  | '\t' :: cs =>
    let width := 8 - column % 8
    List.replicate width ' ' ++ withoutTabs (column + width) cs
  | '\n' :: cs => '\n' :: withoutTabs 0 cs
  | c :: cs => c :: withoutTabs (column + Text.columnsOf c) cs

/-- What a terminal without styles shows of a marked-up text; nothing if its marks do not match. -/
def plain? (s : String) : Option String :=
  (plainFrom s.length [] s.toList).map fun cs =>
    String.ofList (withoutTabs 0 (cs.filter fun c => !isDropped c))

end CodeIndex.CommandLine.Markup
