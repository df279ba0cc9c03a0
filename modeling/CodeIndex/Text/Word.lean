import CodeIndex.Text.WordTable

/-!
# Word characters

A word character is a letter or numeral of any script, or an underscore.  ASCII is decided by rule,
so that facts about ASCII words never look into the tables.
-/

namespace CodeIndex.Text

def isAsciiLetter (c : Char) : Bool :=
  ('a' ≤ c && c ≤ 'z') || ('A' ≤ c && c ≤ 'Z')

def isAsciiDigit (c : Char) : Bool :=
  '0' ≤ c && c ≤ '9'

def isAlphanumeric (c : Char) : Bool :=
  if c.toNat < 128 then isAsciiLetter c || isAsciiDigit c else inRanges wordRanges c.toNat

def isLetter (c : Char) : Bool :=
  if c.toNat < 128 then isAsciiLetter c
  else inRanges wordRanges c.toNat && !inRanges numeralRanges c.toNat

/-- A letter or numeral of any script, or an underscore. -/
def isWord (c : Char) : Bool :=
  c == '_' || isAlphanumeric c

theorem isWord_of_isAsciiLetter {c : Char} (h : isAsciiLetter c = true) : isWord c = true := by
  have hc : c.toNat < 128 := by
    simp only [isAsciiLetter, Bool.or_eq_true, Bool.and_eq_true, decide_eq_true_eq] at h
    rcases h with ⟨_, h⟩ | ⟨_, h⟩
    · have : c.toNat ≤ 122 := h
      omega
    · have : c.toNat ≤ 90 := h
      omega
  simp [isWord, isAlphanumeric, hc, h]

/-- The maximal runs of characters of one kind, in order. -/
def runsOf (p : Char → Bool) : List Char → List (List Char)
  | [] => []
  | c :: rest =>
    if p c then
      match rest, runsOf p rest with
      | [], _ => [[c]]
      | d :: _, run :: runs => if p d then (c :: run) :: runs else [c] :: run :: runs
      | _ :: _, [] => [[c]]
    else
      runsOf p rest

/-- The words of a text: its maximal runs of word characters. -/
def words (s : String) : List String :=
  (runsOf isWord s.toList).map String.ofList

end CodeIndex.Text
