import CodeIndex.Text.Pieces
import CodeIndex.Text.Word

/-!
# Names used in a template

Three kinds of use are found in a template's text: component tags `<.name`, bound variables `@name`
and calls, either qualified (`Mod.Sub.fun(`) or bare (`fun(`).
-/

namespace CodeIndex.Template

open Text (isAsciiDigit isAsciiLetter isWord)

/-- A character that starts a name: a lower-case ASCII letter or an underscore. -/
def isNameStart (c : Char) : Bool :=
  ('a' ≤ c && c ≤ 'z') || c == '_'

def isNameChar (c : Char) : Bool :=
  isNameStart c || isAsciiDigit c

/-- An upper-case ASCII letter, which starts a segment of a qualifier. -/
def isSegmentStart (c : Char) : Bool :=
  'A' ≤ c && c ≤ 'Z'

def isSegmentChar (c : Char) : Bool :=
  isAsciiLetter c || isAsciiDigit c

def nameAt? : List Char → Option (List Char)
  | [] => none
  | c :: rest => if isNameStart c then some (c :: rest.takeWhile isNameChar) else none

def nameAfter? (mark cs : List Char) : Option (List Char) :=
  if mark.isPrefixOf cs then nameAt? (cs.drop mark.length) else none

def namesAfter (mark : List Char) : List Char → List (List Char)
  | [] => []
  | c :: rest =>
    match nameAfter? mark (c :: rest) with
    | some name => name :: namesAfter mark rest
    | none => namesAfter mark rest

/-- The names of the component tags, each once. -/
def components (content : String) : List String :=
  Text.distinct ((namesAfter ['<', '.'] content.toList).map String.ofList)

/-- The names of the bound variables, each once. -/
def assigns (content : String) : List String :=
  Text.distinct ((namesAfter ['@'] content.toList).map String.ofList)

/-- The chain of segments `A.B.C` at the start of a text, given that its current segment is being read:
the longest one whose dots are followed by segments. -/
def chainTail : List Char → List Char
  | [] => []
  | [c] => if isSegmentChar c then [c] else []
  | c :: d :: rest =>
    if isSegmentChar c then c :: chainTail (d :: rest)
    else if c == '.' && isSegmentStart d then c :: chainTail (d :: rest)
    else []

/-- A qualified call at the start of a text: the chain and the name, and how many characters they take
with the dot between them and the parenthesis after them. -/
def qualifiedCallAt? : List Char → Option (List Char × Nat)
  | [] => none
  | c :: rest =>
    if isSegmentStart c then
      let chain := c :: chainTail rest
      match (c :: rest).drop chain.length with
      | '.' :: after =>
        match nameAt? after with
        | some name =>
          match after.drop name.length with
          | '(' :: _ => some (chain ++ '.' :: name, chain.length + 1 + name.length + 1)
          | _ => none
        | none => none
      | _ => none
    else
      none

/-- The qualified calls from left to right, none inside another, after `skip` characters. -/
def qualifiedCallsFrom : Nat → List Char → List (List Char)
  | _, [] => []
  | skip + 1, _ :: rest => qualifiedCallsFrom skip rest
  | 0, c :: rest =>
    match qualifiedCallAt? (c :: rest) with
    | some (call, size) => call :: qualifiedCallsFrom (size - 1) rest
    | none => qualifiedCallsFrom 0 rest

/-- The bare calls: names right before a parenthesis that no word character precedes.  `inWord` tells
whether the character before is a word character. -/
def bareCallsFrom (inWord : Bool) : List Char → List (List Char)
  | [] => []
  | c :: rest =>
    let found :=
      if inWord then none
      else
        match nameAt? (c :: rest) with
        | some name => if ((c :: rest).drop name.length).head? == some '(' then some name else none
        | none => none
    match found with
    | some name => name :: bareCallsFrom (isWord c) rest
    | none => bareCallsFrom (isWord c) rest

/-- Control keywords that stand before a parenthesis without being calls. -/
def controlKeywords : List String :=
  ["if", "for", "case", "cond", "with", "unless"]

/-- The calls of a template, qualified ones first, each once. -/
def calls (content : String) : List String :=
  let qualified := (qualifiedCallsFrom 0 content.toList).map String.ofList
  let bare := (bareCallsFrom false content.toList).map String.ofList
  Text.distinct (qualified ++ bare.filter fun name => !controlKeywords.contains name)

end CodeIndex.Template
