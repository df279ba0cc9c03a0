import CodeIndex.FullText.TokenTable
import CodeIndex.Text.Word

/-!
# Tokens

The tokens of a text are its runs of letters and numerals, in lower case and without diacritics.  An
underscore separates tokens like any punctuation.  ASCII is decided by rule, the rest by tables.
-/

namespace CodeIndex.FullText

def isTokenChar (c : Char) : Bool :=
  if c.toNat < 128 then Text.isAsciiLetter c || Text.isAsciiDigit c
  else !Text.inRanges separatorRanges c.toNat && !Text.inRanges markRanges c.toNat

/-- Whether a character is a mark, which neither starts nor ends a token. -/
def isMark (c : Char) : Bool :=
  128 ≤ c.toNat && Text.inRanges markRanges c.toNat

def foldChar (c : Char) : Char :=
  if c.toNat < 128 then (if 'A' ≤ c && c ≤ 'Z' then Char.ofNat (c.toNat + 32) else c)
  else ((Text.shift? foldRuns c.toNat).map Char.ofNat).getD c

/-- The tokens of a text, `current` being the reversed start of the token that is being read. -/
def tokensFrom (current : Option (List Char)) : List Char → List (List Char)
  | [] => current.toList.map List.reverse
  | c :: rest =>
    if isTokenChar c then tokensFrom (some (foldChar c :: current.getD [])) rest
    else
      match current with
      | none => tokensFrom none rest
      | some cs =>
        if isMark c then tokensFrom (some cs) rest else cs.reverse :: tokensFrom none rest

def tokens (s : String) : List String :=
  (tokensFrom none s.toList).map String.ofList

end CodeIndex.FullText
