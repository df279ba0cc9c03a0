import CodeIndex.FullText.Query
import CodeIndex.FullText.Quote
import CodeIndex.Proofs.Text.Places

/-!
# Quoted words as a query

Strings side by side have to occur together, however many there are: they are read in a loop, so that
neither the stack of the reader nor the levels of operators grow with their number.  The words of a text
between quotes are such strings, and no word holds a quote or a null character, so that a query which is
made of them is always well-formed.
-/

namespace CodeIndex.FullText

namespace Query

/-! ## Strings side by side -/

def single (written : List Char) : Query :=
  .group { phrases := [{ terms := words written false }] }

def sideBySide (first : List Char) (more : List (List Char)) : Query :=
  more.foldl (fun q s => beside q (single s)) (single first)

theorem phraseTail_strings (depth : Nat) (terms : List Term) (more : List (List Char)) :
    phraseTail depth terms (more.map .string) = some (terms, more.map .string) := by
  cases more <;> rfl

theorem phrase?_strings {depth : Nat} (h : depth + 2 ≤ stackLimit) (s : List Char)
    (more : List (List Char)) :
    phrase? depth (.string s :: more.map .string) = some (words s false, more.map .string) := by
  have hs : phrase? depth (.string s :: more.map .string) =
      if stackLimit < depth + 2 then none
      else phraseTail depth (words s false) (more.map .string) := by
    cases more <;> rfl
  rw [hs, if_neg (by omega), phraseTail_strings]

-- the next sign, if any, is a string: neither a colon nor an opening parenthesis
theorem filter?_strings (s : List Char) (more : List (List Char)) :
    filter? (.string s :: more.map .string) = some (none, .string s :: more.map .string) := by
  cases more <;> rfl

theorem filtered?_strings {depth : Nat} (h : depth + 2 ≤ stackLimit) (s : List Char)
    (more : List (List Char)) :
    filtered? depth (.string s :: more.map .string) = some (single s, more.map .string) := by
  have hgroup : group? depth (.string s :: more.map .string) =
      (phrase? depth (.string s :: more.map .string)).map
        fun p => ({ phrases := [{ terms := p.1 }] }, p.2) := by
    cases more <;> rfl
  unfold filtered?
  rw [filter?_strings]
  simp only [hgroup, phrase?_strings h, Option.map_some]
  rfl

theorem besideTail_strings {depth fuel : Nat} (hdepth : depth + 3 ≤ stackLimit) (q : Query)
    {more : List (List Char)} (h : more.length < fuel) :
    besideTail depth q (more.map .string) fuel =
      some (more.foldl (fun q s => beside q (single s)) q, []) := by
  induction more generalizing q fuel with
  | nil =>
    obtain ⟨fuel, rfl⟩ := Nat.exists_eq_succ_of_ne_zero (Nat.ne_of_gt h)
    rfl
  | cons s more ih =>
    rw [List.length_cons] at h
    obtain ⟨fuel, rfl⟩ := Nat.exists_eq_succ_of_ne_zero (Nat.ne_of_gt (Nat.zero_lt_of_lt h))
    have hstarts : startsGroup (Sign.string s :: more.map Sign.string).head? = true := rfl
    rw [List.map_cons, besideTail, if_pos hstarts, filtered?_strings (by omega)]
    exact ih _ (by omega)

theorem expression?_strings (first : List Char) (more : List (List Char)) (fuel : Nat) :
    expression? 0 0 (.string first :: more.map .string) (fuel + 3) =
      some (sideBySide first more, []) := by
  have hoperand : operand? 0 (.string first :: more.map .string) (fuel + 2) =
      besideTail 0 (single first) (more.map .string) ((more.map Sign.string).length + 1) := by
    have hdepth : 0 + 2 ≤ stackLimit := by decide
    unfold operand?
    simp only [filter?_strings, filtered?_strings hdepth]
  rw [expression?, hoperand, besideTail_strings (by decide) _ (by rw [List.length_map]; omega)]
  rfl

/-! ## How deep such a query is -/

/-- Groups joined from left to right. -/
inductive IsChain : Query → Prop where
  | one (g : Group) : IsChain (.group g)
  | more {a : Query} (h : IsChain a) (g : Group) : IsChain (.both a (.group g))

theorem IsChain.height_le {q : Query} (h : IsChain q) : q.height ≤ 1 := by
  induction h with
  | one g => exact Nat.zero_le 1
  | @more a h g ih =>
    -- a chain on the left side is of the level of the operator that extends it
    have hleft : height a + (if isBoth a then 0 else 1) ≤ 1 := by
      cases h with
      | one g => exact Nat.le_refl 1
      | more h g => exact ih
    show max (height a + (if isBoth a then 0 else 1)) 1 ≤ 1
    omega

theorem IsChain.beside {a : Query} (h : IsChain a) (g : Group) : IsChain (a.beside (.group g)) := by
  unfold Query.beside
  split
  · exact h
  · cases h with
    | one _ =>
      simp only
      split
      · exact .one g
      · exact .more (.one _) g
    | more h _ =>
      simp only
      split
      · exact .more h g
      · exact .more (.more h _) g

theorem isChain_sideBySide (first : List Char) (more : List (List Char)) :
    IsChain (sideBySide first more) := by
  unfold sideBySide
  suffices h : ∀ q, IsChain q → IsChain (more.foldl (fun q s => beside q (single s)) q) from
    h _ (.one _)
  induction more with
  | nil => exact fun q hq => hq
  | cons s more ih => exact fun q hq => ih _ (hq.beside _)

/-- A text that is strings side by side is well-formed. -/
theorem ofString?_of_scan {text : String} {first : List Char} {more : List (List Char)}
    (hnull : '\x00' ∉ text.toList) (hstar : asksForFigure text.toList = false)
    (h : scan text.toList (text.toList.length + 1) = some ((first :: more).map .string)) :
    ofString? text = some (sideBySide first more) := by
  have htake : text.toList.takeWhile (· != '\x00') = text.toList := by
    rw [List.takeWhile_eq_self_iff]
    intro c hc
    rw [bne_iff_ne]
    rintro rfl
    exact hnull hc
  have hheight := (isChain_sideBySide first more).height_le
  have hread := expression?_strings first more (4 * (more.length + 1) + 5)
  unfold ofString?
  simp only [htake, hstar, h, Bool.false_eq_true, if_false, List.map_cons, List.length_cons,
    List.length_map, hread]
  exact if_neg (by show ¬ 256 < _; omega)

/-! ## Reading what is quoted -/

def escaped (cs : List Char) : List Char :=
  cs.flatMap fun c => if c == '\x22' then [c, c] else [c]

theorem toList_quotedWord (s : String) :
    (quotedWord s).toList = '\x22' :: escaped s.toList ++ ['\x22'] := String.toList_ofList

theorem escaped_cons_of_ne {c : Char} (h : c ≠ '\x22') (cs : List Char) :
    escaped (c :: cs) = c :: escaped cs := by
  simp [escaped, h]

/-- A quoted string ends at the first quote that no other follows. -/
theorem closing_escaped (cs : List Char) {rest : List Char} (h : rest.head? ≠ some '\x22') :
    closing (escaped cs ++ '\x22' :: rest) = some (escaped cs ++ ['\x22'], rest) := by
  induction cs with
  | nil =>
    cases rest with
    | nil => rfl
    | cons c rest =>
      have hc : c ≠ '\x22' := fun hc => h (by rw [hc]; rfl)
      show closing ('\x22' :: c :: rest) = some (['\x22'], c :: rest)
      simp [closing, hc]
  | cons c cs ih =>
    by_cases hc : c = '\x22'
    · subst hc
      show closing ('\x22' :: '\x22' :: (escaped cs ++ '\x22' :: rest)) =
        some ('\x22' :: '\x22' :: (escaped cs ++ ['\x22']), rest)
      rw [closing, ih]
      rfl
    · rw [escaped_cons_of_ne hc, List.cons_append, List.cons_append]
      simp [closing, hc, ih]

theorem unquoted_quotedWord (s : String) : unquoted (quotedWord s).toList = s.toList := by
  have hgo : ∀ cs, unquoted.go (escaped cs ++ ['\x22']) = cs := by
    intro cs
    induction cs with
    | nil => rfl
    | cons c cs ih =>
      by_cases hc : c = '\x22'
      · subst hc
        show '\x22' :: unquoted.go (escaped cs ++ ['\x22']) = '\x22' :: cs
        rw [ih]
      · rw [escaped_cons_of_ne hc, List.cons_append]
        simp [unquoted.go, hc, ih]
  rw [toList_quotedWord]
  exact hgo s.toList

theorem scan_quotedWord (s : String) {rest : List Char} (h : rest.head? ≠ some '\x22') (fuel : Nat) :
    scan ((quotedWord s).toList ++ rest) (fuel + 1) =
      (scan rest fuel).map (.string (quotedWord s).toList :: ·) := by
  have hquoted : (quotedWord s).toList ++ rest = '\x22' :: (escaped s.toList ++ '\x22' :: rest) := by
    simp [toList_quotedWord]
  rw [hquoted, toList_quotedWord]
  simp [scan, closing_escaped _ h]

/-- Quoted words are scanned back to the strings that they are. -/
theorem scan_quotedWords (word : String) (more : List String) {fuel : Nat}
    (h : (" ".intercalate ((word :: more).map quotedWord)).toList.length < fuel) :
    scan (" ".intercalate ((word :: more).map quotedWord)).toList fuel =
      some ((word :: more).map fun s => .string (quotedWord s).toList) := by
  induction more generalizing word fuel with
  | nil =>
    rw [List.map_singleton, String.intercalate_singleton] at h ⊢
    obtain ⟨fuel, rfl⟩ : ∃ n, fuel = n + 2 := by
      rw [toList_quotedWord, List.length_append, List.length_cons] at h
      exact ⟨fuel - 2, by omega⟩
    have hend : ([] : List Char).head? ≠ some '\x22' := by decide
    have hscan := scan_quotedWord word hend (fuel + 1)
    rw [List.append_nil] at hscan
    rw [hscan]
    rfl
  | cons next more ih =>
    rw [List.map_cons, List.map_cons, String.intercalate_cons_cons, ← List.map_cons,
      String.toList_append, String.toList_append, List.append_assoc] at h ⊢
    -- one sign for the word, none for the blank after it
    obtain ⟨fuel, rfl⟩ : ∃ n, fuel = n + 2 := by
      rw [toList_quotedWord, List.length_append, List.length_append, List.length_cons] at h
      exact ⟨fuel - 2, by omega⟩
    have hblank : ∀ rest, scan (" ".toList ++ rest) (fuel + 1) = scan rest fuel := fun _ => rfl
    have hlength : (" ".intercalate ((next :: more).map quotedWord)).toList.length < fuel := by
      simp only [List.length_append, toList_quotedWord word, List.length_cons] at h
      omega
    rw [scan_quotedWord word (by simp), hblank, ih next hlength]
    rfl

theorem mem_of_mem_quotedWord {s : String} {c : Char} (h : c ∈ (quotedWord s).toList) :
    c = '\x22' ∨ c ∈ s.toList := by
  rw [toList_quotedWord, List.mem_append, List.mem_cons, List.mem_singleton] at h
  rcases h with (h | h) | h
  · exact .inl h
  · obtain ⟨x, hx, hc⟩ := List.mem_flatMap.mp h
    split at hc <;> simp only [List.mem_cons, List.not_mem_nil, or_false, or_self] at hc <;>
      exact .inr (hc ▸ hx)
  · exact .inl h

theorem mem_intercalate {texts : List String} {c : Char} (h : c ∈ (" ".intercalate texts).toList) :
    c = ' ' ∨ ∃ s ∈ texts, c ∈ s.toList := by
  induction texts with
  | nil => cases h
  | cons s more ih =>
    cases more with
    | nil =>
      rw [String.intercalate_singleton] at h
      exact .inr ⟨s, List.mem_singleton_self s, h⟩
    | cons next more =>
      rw [String.intercalate_cons_cons, String.toList_append, String.toList_append, List.append_assoc,
        List.mem_append, List.mem_append] at h
      rcases h with h | h | h
      · exact .inr ⟨s, List.mem_cons_self, h⟩
      · exact .inl (List.mem_singleton.mp h)
      · apply (ih h).imp_right
        rintro ⟨x, hx, hc⟩
        exact ⟨x, List.mem_cons_of_mem s hx, hc⟩

theorem null_notMem_quoteQuery (s : String) : '\x00' ∉ (quoteQuery s).toList := by
  intro h
  rcases mem_intercalate h with h | ⟨quoted, hquoted, h⟩
  · cases h
  · obtain ⟨word, hword, rfl⟩ := List.mem_map.mp hquoted
    have hchar := (mem_of_mem_quotedWord h).resolve_left (by decide)
    exact absurd ((Text.isRun_of_mem_words hword).2 _ hchar) (by decide)

/-- The words of a text between quotes are well-formed, and are read as one string each. -/
theorem ofString?_quoteQuery {s word : String} {more : List String} (h : Text.words s = word :: more) :
    ofString? (quoteQuery s) =
      some (sideBySide (quotedWord word).toList (more.map fun s => (quotedWord s).toList)) := by
  apply ofString?_of_scan (null_notMem_quoteQuery s)
  · rw [quoteQuery, h]
    cases more with
    | nil =>
      rw [List.map_singleton, String.intercalate_singleton, toList_quotedWord]
      rfl
    | cons next more =>
      rw [List.map_cons, List.map_cons, String.intercalate_cons_cons, String.toList_append,
        String.toList_append, toList_quotedWord]
      rfl
  · rw [quoteQuery, h, scan_quotedWords word more (Nat.lt_succ_self _), List.map_cons, List.map_cons,
      List.map_map]
    rfl

end Query

theorem words_ne_nil_of_quoteQuery {s : String} (h : quoteQuery s ≠ "") : Text.words s ≠ [] := by
  intro hwords
  rw [quoteQuery, hwords] at h
  exact h rfl

/-- What is quoted is a query, whatever the text was. -/
theorem exists_ofString?_quoteQuery {s : String} (h : quoteQuery s ≠ "") :
    ∃ q, Query.ofString? (quoteQuery s) = some q := by
  obtain ⟨word, more, hwords⟩ := List.exists_cons_of_ne_nil (words_ne_nil_of_quoteQuery h)
  exact ⟨_, Query.ofString?_quoteQuery hwords⟩

end CodeIndex.FullText
