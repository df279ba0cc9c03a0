import CodeIndex.Proofs.FullText.Phrase
import CodeIndex.Text.Blank

/-!
# A query of one word

An ASCII word of letters and digits is its own only token, up to case, and a query for that token, whether
it is written bare or, where it is the name of an operator, between quotes.  The query matches the rows of
which some column has the token.
-/

namespace CodeIndex.FullText

/-- Letters and digits of ASCII, at least one. -/
def IsWord (w : String) : Prop :=
  w.toList ≠ [] ∧ ∀ c ∈ w.toList, (Text.isAsciiLetter c || Text.isAsciiDigit c) = true

-- the characters of the word are looked at, and not all characters that there are
instance (w : String) : Decidable (IsWord w) :=
  decidable_of_iff (w.toList ≠ [] ∧
    (w.toList.all fun c => Text.isAsciiLetter c || Text.isAsciiDigit c) = true) (by
    rw [IsWord, List.all_eq_true])

def folded (w : String) : String :=
  String.ofList (w.toList.map foldChar)

theorem IsWord.exists_cons {w : String} (h : IsWord w) : ∃ c cs, w.toList = c :: cs ∧
    ∀ x ∈ c :: cs, (Text.isAsciiLetter x || Text.isAsciiDigit x) = true := by
  obtain ⟨c, cs, hcs⟩ := List.exists_cons_of_ne_nil h.1
  exact ⟨c, cs, hcs, hcs ▸ h.2⟩

/-! ## The characters of a word -/

section Characters

variable {c : Char}

theorem toNat_of_isAscii (h : (Text.isAsciiLetter c || Text.isAsciiDigit c) = true) :
    48 ≤ c.toNat ∧ c.toNat ≤ 122 := by
  have hle : ∀ a b : Char, a ≤ b → a.toNat ≤ b.toNat := fun _ _ h => h
  simp only [Text.isAsciiLetter, Text.isAsciiDigit, Bool.or_eq_true, Bool.and_eq_true,
    decide_eq_true_eq] at h
  rcases h with (⟨hlo, hhi⟩ | ⟨hlo, hhi⟩) | ⟨hlo, hhi⟩ <;>
  · have hlo := hle _ _ hlo
    have hhi := hle _ _ hhi
    simp only [Char.reduceToNat] at hlo hhi
    omega

theorem isTokenChar_of_isAscii (h : (Text.isAsciiLetter c || Text.isAsciiDigit c) = true) :
    isTokenChar c = true := by
  have := toNat_of_isAscii h
  unfold isTokenChar
  rw [if_pos (by omega), h]

theorem isWord_of_isAscii (h : (Text.isAsciiLetter c || Text.isAsciiDigit c) = true) :
    Text.isWord c = true := by
  have := toNat_of_isAscii h
  unfold Text.isWord Text.isAlphanumeric
  rw [if_pos (by omega), h, Bool.or_true]

theorem isBare_of_isAscii (h : (Text.isAsciiLetter c || Text.isAsciiDigit c) = true) :
    Query.isBare c = true := by
  unfold Query.isBare
  rw [h]
  rfl

theorem isBlank_of_isAscii (h : (Text.isAsciiLetter c || Text.isAsciiDigit c) = true) :
    Text.isBlank c = false := by
  have := toNat_of_isAscii h
  simp only [Text.isBlank, Text.isWhite, Bool.or_eq_false_iff, Bool.and_eq_false_iff, beq_eq_false_iff_ne,
    decide_eq_false_iff_not]
  omega

end Characters

/-! ## Tokens -/

theorem tokensFrom_of_all (current : List Char) {cs : List Char} (h : ∀ c ∈ cs, isTokenChar c = true) :
    tokensFrom (some current) cs = [current.reverse ++ cs.map foldChar] := by
  induction cs generalizing current with
  | nil => rw [List.map_nil, List.append_nil]; rfl
  | cons c rest ih =>
    rw [List.forall_mem_cons] at h
    rw [tokensFrom, if_pos h.1, ih _ h.2]
    simp

theorem IsWord.tokensFrom {w : String} (h : IsWord w) :
    tokensFrom none w.toList = [w.toList.map foldChar] := by
  obtain ⟨c, cs, hcs, hascii⟩ := h.exists_cons
  have hall : ∀ x ∈ c :: cs, isTokenChar x = true := fun x hx => isTokenChar_of_isAscii (hascii x hx)
  rw [List.forall_mem_cons] at hall
  rw [hcs, FullText.tokensFrom, if_pos hall.1, tokensFrom_of_all _ hall.2]
  rfl

theorem IsWord.words {w : String} (h : IsWord w) : Text.words w = [w] :=
  Text.words_of_all h.1 fun c hc => isWord_of_isAscii (h.2 c hc)

/-! ## The query -/

def Query.ofWord (w : String) : Query :=
  .group { phrases := [{ terms := [⟨folded w, false⟩] }] }

theorem IsWord.ofPhrase {w : String} (h : IsWord w) : Query.ofPhrase (tokens w) = Query.ofWord w := by
  rw [tokens, h.tokensFrom]
  rfl

/-- A word is a query for its token, or the name of an operator and no query. -/
theorem IsWord.ofString? {w : String} (h : IsWord w) :
    Query.ofString? w = some (Query.ofWord w) ∨ Query.ofString? w = none := by
  by_cases hop : w = "AND" ∨ w = "OR" ∨ w = "NOT"
  · rcases hop with rfl | rfl | rfl <;> exact .inr (by rfl)
  · left
    rw [not_or, not_or] at hop
    have hne : ∀ {s : String}, w ≠ s → ¬ (w.toList == s.toList) = true := fun hs hw =>
      hs (String.toList_inj.mp (beq_iff_eq.mp hw))
    have hbare : Query.ofBare w.toList = .string w.toList :=
      (if_neg (hne hop.1)).trans ((if_neg (hne hop.2.1)).trans (if_neg (hne hop.2.2)))
    rw [Query.ofString?_of_bare h.1 (fun c hc => isBare_of_isAscii (h.2 c hc)) hbare, h.ofPhrase]

/-- Between quotes, a word is a query for its token whatever it is the name of. -/
theorem IsWord.ofString?_quoteQuery {w : String} (h : IsWord w) :
    Query.ofString? (quoteQuery w) = some (Query.ofWord w) := by
  rw [Query.ofString?_quoteQuery h.words]
  change some (Query.single (quotedWord w).toList) = _
  rw [Query.single_eq, Query.unquoted_quotedWord, String.ofList_toList, h.ofPhrase]

theorem IsWord.allBlank {w : String} (h : IsWord w) : Text.allBlank w = false := by
  obtain ⟨c, cs, hcs, hascii⟩ := h.exists_cons
  rw [Text.allBlank, hcs, List.all_cons, isBlank_of_isAscii (hascii c List.mem_cons_self),
    Bool.false_and]

/-! ## What the query matches -/

/-- A row is found by a word if one of its columns has the token. -/
theorem accepts_ofWord {w : String} {r : Row} :
    (Query.ofWord w).accepts r = true ↔
      folded w ∈ tokens r.id ∨ folded w ∈ tokens r.container ∨ folded w ∈ tokens r.lexicalText := by
  have hphrase : Query.ofWord w = Query.ofPhrase [folded w] := rfl
  rw [hphrase, Query.accepts_ofPhrase (List.cons_ne_nil _ _), Column.exists_iff]
  simp only [List.singleton_infix_iff, Row.text]

end CodeIndex.FullText
