import CodeIndex.Container
import CodeIndex.Path
import CodeIndex.Text.Blank
import CodeIndex.Text.Word

/-!
# Judging a line

What a line of code and its path tell without an extractor: whether the line defines something, what it
defines, and how relevant a match there is.
-/

namespace CodeIndex.LineSearch

/-- Keywords that open the definition of something callable, longer ones before their own starts. -/
def callableKeywords : List String :=
  ["defmacrop", "defmacro", "defguard", "defp", "def"]

def definitionKeywords : List String :=
  "defmodule" :: callableKeywords

/-- What follows a keyword and a blank at the front of a text. -/
def afterKeyword? (keywords : List String) (cs : List Char) : Option (List Char) :=
  keywords.findSome? fun keyword =>
    if keyword.toList.isPrefixOf cs then
      match cs.drop keyword.length with
      | c :: rest => if Text.isBlank c then some (c :: rest) else none
      | [] => none
    else none

/-- The first place, not inside a word, at which `f` finds something. -/
def firstAtWordStart {α : Type} (f : List Char → Option α) (inWord : Bool) : List Char → Option α
  | [] => none
  | c :: rest =>
    match if inWord then none else f (c :: rest) with
    | some x => some x
    | none => firstAtWordStart f (Text.isWord c) rest

def isNameStart (c : Char) : Bool :=
  ('a' ≤ c && c ≤ 'z') || c == '_'

/-- A character of a name after its first. -/
def isNameChar (c : Char) : Bool :=
  Text.isAsciiLetter c || Text.isAsciiDigit c || c == '_'

/-- The name at the front of a text: its characters, and at most one closing mark. -/
def nameAt? : List Char → Option String
  | [] => none
  | c :: rest =>
    if isNameStart c then
      let body := rest.takeWhile isNameChar
      let mark := (rest.drop body.length).take 1 |>.filter fun m => m == '?' || m == '!'
      some (String.ofList (c :: body ++ mark))
    else none

def isDefinition (line : String) : Bool :=
  (firstAtWordStart (afterKeyword? definitionKeywords) false line.toList).isSome

def definedName? (line : String) : Option String :=
  firstAtWordStart
    (fun cs => (afterKeyword? callableKeywords cs).bind fun rest => nameAt? (rest.dropWhile Text.isBlank))
    false line.toList

/-- What a match is worth at least, and what adds to it or takes from it. -/
structure Worth where
  base : Int := 100
  definition : Int := 50
  primaryDir : Int := 20
  testDir : Int := 10
  longLine : Int := 20

def worth : Worth := {}

def score (path line : String) (primaryDirs testDirs : List String) (longLine : Int) : Int :=
  let dirs := (Path.ofString path).parts.dropLast
  let hit := fun (names : List String) => dirs.any names.contains
  worth.base
    + (if isDefinition line then worth.definition else 0)
    + (if hit primaryDirs then worth.primaryDir else 0)
    - (if hit testDirs then worth.testDir else 0)
    - (if longLine < line.length then worth.longLine else 0)

def containerOf (path : String) (sourceDirs extensions : List String) : String :=
  containerOfPath path sourceDirs extensions "Unknown"

/-- The items without those whose key an earlier item has. -/
def distinctBy {α β : Type} [BEq β] (key : α → β) (items : List α) : List α :=
  go [] items
where
  go (seen : List β) : List α → List α
    | [] => []
    | x :: rest => if seen.contains (key x) then go seen rest else x :: go (key x :: seen) rest

end CodeIndex.LineSearch
