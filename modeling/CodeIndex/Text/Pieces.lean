/-!
# Cutting and joining

Cutting a text at a separator, tests on its ends, and lists of texts without repeats or in order.
-/

namespace CodeIndex.Text

/-- The pieces of a text between the characters that `p` picks; always at least one. -/
def piecesBy (p : Char → Bool) : List Char → List (List Char)
  | [] => [[]]
  | c :: rest =>
    if p c then [] :: piecesBy p rest
    else
      match piecesBy p rest with
      | [] => [[c]]
      | piece :: pieces => (c :: piece) :: pieces

/-- The pieces of a text between occurrences of a character. -/
def pieces (separator : Char) (s : String) : List String :=
  (piecesBy (· == separator) s.toList).map String.ofList

def endsWith (s ending : String) : Bool :=
  ending.toList.isSuffixOf s.toList

def startsWith (s start : String) : Bool :=
  start.toList.isPrefixOf s.toList

/-- A text without a given start, if it has that start. -/
def withoutStart (s start : String) : String :=
  if startsWith s start then String.ofList (s.toList.drop start.toList.length) else s

def occursIn (part s : String) : Bool :=
  go part.toList s.toList
where
  go (part : List Char) : List Char → Bool
    | [] => part.isEmpty
    | c :: rest => part.isPrefixOf (c :: rest) || go part rest

/-- The items of a list without later repeats. -/
def distinct {α : Type} [BEq α] (items : List α) : List α :=
  items.foldl (fun seen x => if seen.contains x then seen else seen ++ [x]) []

/-- Puts an item in front of the first that it is not above. -/
def insertBy {α : Type} (le : α → α → Bool) (x : α) : List α → List α
  | [] => [x]
  | y :: rest => if le x y then x :: y :: rest else y :: insertBy le x rest

def sortedBy {α : Type} (le : α → α → Bool) (items : List α) : List α :=
  items.foldr (insertBy le) []

end CodeIndex.Text
