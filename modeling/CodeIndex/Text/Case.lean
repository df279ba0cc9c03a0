import CodeIndex.Text.CaseTable

/-!
# Letter case

Upper and lower case by the standard's mappings.  Upper case may take several characters for one
(`ß` becomes `SS`), so a character maps to a list.
-/

namespace CodeIndex.Text

def upperChar (c : Char) : List Char :=
  if c.toNat < 128 then
    [if 'a' ≤ c && c ≤ 'z' then Char.ofNat (c.toNat - 32) else c]
  else
    match upperExpansions.find? (·.1 == c.toNat) with
    | some (_, image) => image.map Char.ofNat
    | none => [((shift? upperRuns c.toNat).map Char.ofNat).getD c]

def lowerChar (c : Char) : List Char :=
  if c.toNat < 128 then
    [if 'A' ≤ c && c ≤ 'Z' then Char.ofNat (c.toNat + 32) else c]
  else if c.toNat == 0x130 then
    ['i', Char.ofNat 0x307]
  else
    [((shift? lowerRuns c.toNat).map Char.ofNat).getD c]

def upper (s : String) : String :=
  String.ofList (s.toList.flatMap upperChar)

def lower (s : String) : String :=
  String.ofList (s.toList.flatMap lowerChar)

end CodeIndex.Text
