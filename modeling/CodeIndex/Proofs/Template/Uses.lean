import CodeIndex.Proofs.FullText.Word
import CodeIndex.Proofs.Template.Grammar
import CodeIndex.Template.Basic

/-!
# Names as queries

A name that a template uses is a query that the template's lexical text answers.  A bare name needs no
quotes and asks for its tokens side by side.  A qualified call is no query because of its dots, and between
quotes it asks for each of its words.  Either way the lexical text has what is asked for: its parts are
between blanks, and dots and blanks are no part of any token.
-/

namespace CodeIndex

open FullText (isBreak tokens Query)

/-- Where what is not a word character ends a token, the tokens of a word stand side by side in the text. -/
theorem FullText.infix_of_mem_words {text word : String} (h : word ∈ Text.words text)
    (hchars : ∀ c ∈ text.toList, Text.isWord c = true ∨ isBreak c = true) :
    tokens word <:+: tokens text := by
  obtain ⟨run, hrun, rfl⟩ := List.mem_map.mp h
  obtain ⟨front, rest, htext, hfront, -, -, after, rfl, hafter⟩ :=
    (Text.finds_runsOf Text.isWord text.toList).exists_of_mem hrun
  rw [List.nil_append] at htext
  have hbreak : ∀ c ∈ text.toList, Text.isWord c = false → isBreak c = true := by
    intro c hc hword
    exact (hchars c hc).resolve_left (Bool.eq_false_iff.mp hword)
  rw [tokens, tokens, String.toList_ofList, htext, ← List.append_assoc]
  rw [htext] at hbreak
  refine List.IsInfix.map _ (infix_tokensFrom ?_ ?_)
  · intro c hc
    refine hbreak c ?_ (hfront c hc)
    exact List.mem_append_left _ (List.mem_of_getLast? hc)
  · intro c hc
    refine hbreak c ?_ (hafter c hc)
    exact List.mem_append_right _ (List.mem_append_right _ (List.mem_of_head? hc))

namespace Template

/-! ## Bare names -/

theorem isAscii_of_isNameChar {c : Char} (h : isNameChar c = true) :
    c = '_' ∨ (Text.isAsciiLetter c || Text.isAsciiDigit c) = true := by
  simp only [isNameChar, isNameStart, Bool.or_eq_true, beq_iff_eq] at h
  rw [Text.isAsciiLetter, Bool.or_eq_true, Bool.or_eq_true]
  rcases h with (h | h) | h
  · exact .inr (.inl (.inl h))
  · exact .inl h
  · exact .inr (.inr h)

theorem IsName.all_of {name : List Char} (h : IsName name) {p : Char → Bool} (hline : p '_' = true)
    (hascii : ∀ {c : Char}, (Text.isAsciiLetter c || Text.isAsciiDigit c) = true → p c = true) :
    ∀ c ∈ name, p c = true := by
  intro c hc
  rcases isAscii_of_isNameChar (h.forall c hc) with rfl | h
  · exact hline
  · exact hascii h

theorem IsName.isBare {name : List Char} (h : IsName name) : ∀ c ∈ name, Query.isBare c = true :=
  h.all_of (by decide) FullText.isBare_of_isAscii

theorem IsName.isWord {name : List Char} (h : IsName name) : ∀ c ∈ name, Text.isWord c = true :=
  h.all_of (by decide) FullText.isWord_of_isAscii

theorem IsName.ne_nil {name : List Char} (h : IsName name) : name ≠ [] := by
  cases h
  exact List.cons_ne_nil _ _

/-- No operator begins like a name. -/
theorem IsName.ofBare {name : List Char} (h : IsName name) : Query.ofBare name = .string name := by
  have hne : ∀ {d : Char} {ds : List Char}, isNameStart d = false → ¬ (name == d :: ds) = true := by
    intro d ds hd heq
    cases h with
    | mk hc hcs =>
      obtain ⟨rfl, -⟩ := List.cons_eq_cons.mp (beq_iff_eq.mp heq)
      rw [hd] at hc
      cases hc
  exact (if_neg (hne (by decide))).trans
    ((if_neg (hne (by decide))).trans (if_neg (hne (by decide))))

/-- A bare name is a query for its tokens side by side. -/
theorem IsName.ofString? {text : String} (h : IsName text.toList) :
    Query.ofString? text = some (Query.ofPhrase (tokens text)) :=
  Query.ofString?_of_bare h.ne_nil h.isBare h.ofBare

/-! ## Qualified names -/

/-- A chain of segments, a dot and a name. -/
def IsQualified (text : List Char) : Prop :=
  ∃ chain name, IsChain chain ∧ IsName name ∧ text = chain ++ '.' :: name

theorem IsSegment.forall {segment : List Char} (h : IsSegment segment) :
    ∀ c ∈ segment, isSegmentChar c = true := by
  cases h with
  | mk hc hcs => exact List.forall_mem_cons.mpr ⟨isSegmentChar_of_isSegmentStart hc, hcs⟩

theorem IsChain.forall {chain : List Char} (h : IsChain chain) :
    ∀ c ∈ chain, c = '.' ∨ isSegmentChar c = true := by
  induction h with
  | one h => exact fun c hc => .inr (h.forall c hc)
  | more h hchain ih =>
    intro c hc
    rcases List.mem_append.mp hc with hc | hc
    · exact .inr (h.forall c hc)
    · rcases List.mem_cons.mp hc with rfl | hc
      · exact .inl rfl
      · exact ih c hc

theorem IsQualified.exists_segment {text : List Char} (h : IsQualified text) :
    ∃ segment rest, IsSegment segment ∧ text = segment ++ '.' :: rest := by
  obtain ⟨chain, name, hchain, -, rfl⟩ := h
  cases hchain with
  | one h => exact ⟨_, _, h, rfl⟩
  | more h hchain => exact ⟨_, _, h, by rw [List.append_assoc, List.cons_append]⟩

/-- Apart from its dots, at which tokens end, a qualified name is made of word characters. -/
theorem IsQualified.isWord_or_isBreak {text : List Char} (h : IsQualified text) :
    ∀ c ∈ text, Text.isWord c = true ∨ isBreak c = true := by
  obtain ⟨chain, name, hchain, hname, rfl⟩ := h
  have hdot : isBreak '.' = true := by decide
  intro c hc
  rcases List.mem_append.mp hc with hc | hc
  · rcases hchain.forall c hc with rfl | hc
    · exact .inr hdot
    · exact .inl (FullText.isWord_of_isAscii hc)
  · rcases List.mem_cons.mp hc with rfl | hc
    · exact .inr hdot
    · exact .inl (hname.isWord c hc)

/-- The dots of a qualified name make it no query. -/
theorem IsQualified.ofString? {text : String} (h : IsQualified text.toList) :
    Query.ofString? text = none := by
  obtain ⟨segment, rest, hsegment, htext⟩ := h.exists_segment
  refine Query.ofString?_of_dotted htext ?_ fun c hc => FullText.isBare_of_isAscii (hsegment.forall c hc)
  cases hsegment
  exact List.cons_ne_nil _ _

/-- The first word of a qualified name begins with a letter, so that it has a token. -/
theorem IsQualified.exists_words {text : String} (h : IsQualified text.toList) :
    ∃ word more, Text.words text = word :: more ∧ tokens word ≠ [] := by
  obtain ⟨segment, rest, @⟨c, cs, hc, -⟩, htext⟩ := h.exists_segment
  have hascii := isSegmentChar_of_isSegmentStart hc
  have hruns := Text.runsOf_cons_of_pos (FullText.isWord_of_isAscii hascii) (cs ++ '.' :: rest)
  rw [← List.cons_append, ← htext] at hruns
  refine ⟨_, _, congrArg (List.map String.ofList) hruns, ?_⟩
  exact FullText.tokens_ne_nil ⟨c, by simp, FullText.isTokenChar_of_isAscii hascii⟩

/-- Between quotes, a qualified name matches the rows that have each of its words. -/
theorem IsQualified.ofString?_quoteQuery {text : String} (h : IsQualified text.toList) :
    ∃ q, Query.ofString? (FullText.quoteQuery text) = some q ∧
      ∀ r : FullText.Row, q.accepts r = true ↔ ∀ word ∈ Text.words text, r.Has word := by
  obtain ⟨word, more, hwords, hne⟩ := h.exists_words
  have hunquoted : ∀ w, String.ofList (Query.unquoted (FullText.quotedWord w).toList) = w := by
    intro w
    rw [Query.unquoted_quotedWord, String.ofList_toList]
  have hfirst : (Query.single (FullText.quotedWord word).toList).isVoid = false := by
    rw [Query.isVoid_single, hunquoted, List.isEmpty_eq_false_iff]
    exact hne
  refine ⟨_, Query.ofString?_quoteQuery hwords, fun r => ?_⟩
  rw [Query.accepts_sideBySide hfirst, hwords, List.forall_mem_cons, List.forall_mem_cons,
    List.forall_mem_map, hunquoted]
  simp only [hunquoted]

/-! ## The names of a template -/

theorem isName_of_mem_namesAfter {mark : List Char} {content name : String}
    (h : name ∈ Text.distinct ((namesAfter mark content.toList).map String.ofList)) :
    IsName name.toList := by
  obtain ⟨found, hfound, rfl⟩ := List.mem_map.mp (Text.mem_distinct.mp h)
  obtain ⟨front, rest, -, hname, -⟩ := (finds_namesAfter mark [] content.toList).exists_of_mem hfound
  rwa [String.toList_ofList]

/-- What a template uses are bare names and qualified ones. -/
theorem isName_or_isQualified {content name : String}
    (h : name ∈ components content ++ assigns content ++ calls content) :
    IsName name.toList ∨ IsQualified name.toList := by
  rcases List.mem_append.mp h with h | h
  · exact .inl ((List.mem_append.mp h).elim isName_of_mem_namesAfter isName_of_mem_namesAfter)
  · rcases List.mem_append.mp (Text.mem_distinct.mp h) with h | h
    · obtain ⟨found, hfound, rfl⟩ := List.mem_map.mp h
      obtain ⟨place, rest, chain, last, hchain, hlast, htext, -⟩ :=
        (findsApart_qualifiedCallsFrom content.toList).exists_of_mem hfound
      rw [String.toList_ofList]
      exact .inr ⟨chain, last, hchain, hlast, htext⟩
    · obtain ⟨found, hfound, rfl⟩ := List.mem_map.mp (List.mem_of_mem_filter h)
      obtain ⟨front, rest, -, -, hname, -⟩ :=
        (finds_bareCallsFrom [] content.toList).exists_of_mem hfound
      rw [String.toList_ofList]
      exact .inl hname

theorem isWord_or_isBreak_of_use {content name : String}
    (h : name ∈ components content ++ assigns content ++ calls content) :
    ∀ c ∈ name.toList, Text.isWord c = true ∨ isBreak c = true := by
  rcases isName_or_isQualified h with h | h
  · exact fun c hc => .inl (h.isWord c hc)
  · exact h.isWord_or_isBreak

/-- The tokens of each name in use stand side by side in the lexical text of the template. -/
theorem infix_lexicalText {path content : String} {sourceDirs extensions : List String}
    {e : Entity} (he : entity path content sourceDirs extensions = .ok e) {name : String}
    (h : name ∈ components content ++ assigns content ++ calls content) :
    tokens name <:+: tokens e.lexicalText := by
  unfold entity at he
  split at he
  · cases he
  · cases he
    have hne : name ≠ "" := by
      rintro rfl
      rcases isName_or_isQualified h with h | ⟨chain, last, -, -, h⟩
      · exact h.ne_nil rfl
      · simp at h
    change tokens name <:+: tokens (" ".intercalate _)
    rw [FullText.tokens_intercalate]
    apply List.infix_flatMap_of_mem
    refine List.mem_filter.mpr ⟨?_, by simpa using hne⟩
    rw [lexicalParts, List.append_assoc, List.append_assoc]
    exact List.mem_append_right _ (List.append_assoc _ _ _ ▸ h)

end Template

end CodeIndex
