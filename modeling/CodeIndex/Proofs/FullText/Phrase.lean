import CodeIndex.FullText.Rank
import CodeIndex.Proofs.FullText.Quoted
import Mathlib.Data.List.Infix

/-!
# Phrases

A string of a query is a phrase, the tokens of what it stands for, and a row matches it if some column has
these tokens side by side.  A part of a text has its tokens side by side in the text wherever the part is
cut off by characters that end a token.  Strings side by side match if each of them does, those without
tokens apart.
-/

namespace CodeIndex.FullText

/-! ## Tokens of a part -/

/-- Whether a character is part of no token and ends the one before it. -/
def isBreak (c : Char) : Bool :=
  !isTokenChar c && !isMark c

theorem tokensFrom_append_cons {c : Char} (hc : isBreak c = true) (current : Option (List Char))
    (front rest : List Char) :
    tokensFrom current (front ++ c :: rest) = tokensFrom current front ++ tokensFrom none rest := by
  induction front generalizing current with
  | nil =>
    rw [isBreak, Bool.and_eq_true, Bool.not_eq_true', Bool.not_eq_true'] at hc
    cases current with
    | none => simp [tokensFrom, hc.1]
    | some cs => simp [tokensFrom, hc.1, hc.2]
  | cons d front ih =>
    cases htoken : isTokenChar d with
    | true => simp [tokensFrom, htoken, ih]
    | false =>
      cases current with
      | none => simp [tokensFrom, htoken, ih]
      | some cs => cases hmark : isMark d <;> simp [tokensFrom, htoken, hmark, ih]

/-- The tokens of a part that is cut off on both sides stand side by side in the text. -/
theorem infix_tokensFrom {front part rest : List Char} (hfront : ∀ c ∈ front.getLast?, isBreak c = true)
    (hrest : ∀ c ∈ rest.head?, isBreak c = true) :
    tokensFrom none part <:+: tokensFrom none (front ++ part ++ rest) := by
  have hright : tokensFrom none part <+: tokensFrom none (part ++ rest) := by
    cases rest with
    | nil => rw [List.append_nil]
    | cons c rest =>
      rw [tokensFrom_append_cons (hrest c rfl)]
      exact List.prefix_append _ _
  have hleft : tokensFrom none (part ++ rest) <:+ tokensFrom none (front ++ (part ++ rest)) := by
    rcases List.eq_nil_or_concat front with rfl | ⟨front, c, rfl⟩
    · exact List.suffix_refl _
    · rw [List.concat_eq_append] at hfront ⊢
      rw [List.append_assoc, List.singleton_append,
        tokensFrom_append_cons (hfront c List.getLast?_concat)]
      exact List.suffix_append _ _
  rw [List.append_assoc]
  exact hright.isInfix.trans hleft.isInfix

/-- A blank ends a token, so that texts with blanks between them have the tokens of each. -/
theorem tokens_intercalate (parts : List String) :
    tokens (" ".intercalate parts) = parts.flatMap tokens := by
  induction parts with
  | nil => rfl
  | cons part more ih =>
    cases more with
    | nil => rw [String.intercalate_singleton, List.flatMap_singleton]
    | cons next more =>
      have hblank : isBreak ' ' = true := by decide
      have htext : (part ++ " " ++ " ".intercalate (next :: more)).toList =
          part.toList ++ ' ' :: (" ".intercalate (next :: more)).toList := by
        rw [String.toList_append, String.toList_append, List.append_assoc]
        rfl
      rw [String.intercalate_cons_cons, List.flatMap_cons, ← ih, tokens, htext,
        tokensFrom_append_cons hblank, List.map_append]
      rfl

theorem tokensFrom_some_ne_nil (current cs : List Char) : tokensFrom (some current) cs ≠ [] := by
  induction cs generalizing current with
  | nil => exact List.cons_ne_nil _ _
  | cons c rest ih =>
    rw [tokensFrom]
    split
    · exact ih _
    · split
      · exact ih _
      · exact List.cons_ne_nil _ _

theorem tokens_ne_nil {text : String} (h : ∃ c ∈ text.toList, isTokenChar c = true) :
    tokens text ≠ [] := by
  rw [tokens, Ne, List.map_eq_nil_iff]
  generalize text.toList = cs at h ⊢
  induction cs with
  | nil =>
    obtain ⟨c, hc, -⟩ := h
    cases hc
  | cons d rest ih =>
    rw [tokensFrom]
    split
    · exact tokensFrom_some_ne_nil _ _
    · rename_i hd
      obtain ⟨c, hc, htoken⟩ := h
      rcases List.mem_cons.mp hc with rfl | hc
      · exact absurd htoken hd
      · exact ih ⟨c, hc, htoken⟩

/-! ## What a phrase matches -/

/-- Whole words as the words of a phrase. -/
def wholeTerms (words : List String) : List Term :=
  words.map fun word => ⟨word, false⟩

theorem standsAt_wholeTerms {words tokens : List String} :
    standsAt (wholeTerms words) tokens = true ↔ words <+: tokens := by
  induction words generalizing tokens with
  | nil => exact iff_of_true rfl List.nil_prefix
  | cons word words ih =>
    cases tokens with
    | nil => simp [wholeTerms, standsAt]
    | cons token tokens =>
      rw [List.cons_prefix_cons, ← ih]
      simp [wholeTerms, standsAt, Term.accepts]

theorem occurrences_eq_nil_iff {words : List String} (hne : words ≠ []) {position : Nat}
    {tokens : List String} : occurrences (wholeTerms words) position tokens = [] ↔ ¬ words <:+: tokens := by
  induction tokens generalizing position with
  | nil => simp [occurrences, List.infix_nil, hne]
  | cons token rest ih =>
    rw [occurrences, List.infix_cons_iff, ← standsAt_wholeTerms, not_or, ← @ih (position + 1)]
    cases standsAt (wholeTerms words) (token :: rest) <;> simp

theorem Column.exists_iff {p : Column → Prop} :
    (∃ column, p column) ↔ p .id ∨ p .container ∨ p .lexicalText := by
  constructor
  · rintro ⟨_ | _ | _, h⟩
    · exact .inl h
    · exact .inr (.inl h)
    · exact .inr (.inr h)
  · rintro (h | h | h)
    · exact ⟨_, h⟩
    · exact ⟨_, h⟩
    · exact ⟨_, h⟩

/-- A row has a text if the tokens of the text stand side by side in one of its columns. -/
def Row.Has (r : Row) (text : String) : Prop :=
  ∃ column, FullText.tokens text <:+: FullText.tokens (r.text column)

instance (r : Row) (text : String) : Decidable (r.Has text) :=
  decidable_of_iff _ Column.exists_iff.symm

namespace Query

def ofPhrase (words : List String) : Query :=
  .group { phrases := [{ terms := wholeTerms words }] }

theorem isVoid_ofPhrase (words : List String) : (ofPhrase words).isVoid = words.isEmpty := by
  cases words <;> rfl

/-- A row is found by a phrase if the words stand side by side in one of its columns. -/
theorem accepts_ofPhrase {words : List String} (hne : words ≠ []) {r : Row} :
    (ofPhrase words).accepts r = true ↔ ∃ column, words <:+: tokens (r.text column) := by
  have hterms : (wholeTerms words).isEmpty = false := by
    rw [wholeTerms, List.isEmpty_eq_false_iff, Ne, List.map_eq_nil_iff]
    exact hne
  have hcolumn : ∀ (start : Nat) (tokens : List String),
      Phrase.inColumn { terms := wholeTerms words } start tokens = [] ↔ ¬ words <:+: tokens := by
    intro start tokens
    rw [Phrase.inColumn, hterms]
    exact occurrences_eq_nil_iff hne
  have hpositions : Phrase.positions { terms := wholeTerms words } none r.tokens = [] ↔
      ¬ ∃ column, words <:+: tokens (r.text column) := by
    rw [Column.exists_iff, not_or, not_or, ← hcolumn (0 * columnWidth), ← hcolumn (1 * columnWidth),
      ← hcolumn (2 * columnWidth)]
    simp [Phrase.positions, Row.tokens, Row.text, Column.all]
  rw [← not_iff_not, ← hpositions]
  unfold accepts ofPhrase matchesTokens Group.counts?
  cases h : Phrase.positions { terms := wholeTerms words } none r.tokens <;> simp [h]

theorem single_eq (written : List Char) :
    single written = ofPhrase (tokens (String.ofList (unquoted written))) := by
  have hwords : words written false =
      wholeTerms ((tokensFrom none (unquoted written)).map String.ofList) := by
    unfold words
    simp only
    generalize (tokensFrom none (unquoted written)).map String.ofList = tokens
    rcases List.eq_nil_or_concat tokens with rfl | ⟨front, last, rfl⟩
    · rfl
    · simp [wholeTerms]
  rw [single, hwords, tokens, String.toList_ofList]
  rfl

theorem isVoid_single (written : List Char) :
    (single written).isVoid = (tokens (String.ofList (unquoted written))).isEmpty := by
  rw [single_eq, isVoid_ofPhrase]

theorem accepts_single {written : List Char} (h : (single written).isVoid = false) {r : Row} :
    (single written).accepts r = true ↔ r.Has (String.ofList (unquoted written)) := by
  rw [isVoid_single, List.isEmpty_eq_false_iff] at h
  rw [single_eq]
  exact accepts_ofPhrase h

/-! ## Strings side by side -/

/-- Whether a query, or what it requires last, says something. -/
def isTelling : Query → Bool
  | .both _ last => !last.isVoid
  | q => !q.isVoid

/-- Only what says something is put beside a query, so that nothing void is ever in the way. -/
theorem beside_of_isTelling {a : Query} (ha : a.isTelling = true) (b : Query) :
    a.beside b = if b.isVoid then a else .both a b := by
  unfold beside
  split
  · rfl
  · cases a with
    | both front last =>
      have hlast : last.isVoid = false := Bool.not_eq_true' _ ▸ ha
      simp only [hlast, Bool.false_eq_true, if_false]
    | group g =>
      have hgroup : (group g).isVoid = false := Bool.not_eq_true' _ ▸ ha
      simp only [hgroup, Bool.false_eq_true, if_false]
    | either a b => rfl
    | except a b => rfl

/-- Strings side by side match the rows that have all of them, provided the first one has a token. -/
theorem accepts_sideBySide {first : List Char} (h : (single first).isVoid = false)
    (more : List (List Char)) {r : Row} :
    (sideBySide first more).accepts r = true ↔
      ∀ written ∈ first :: more, r.Has (String.ofList (unquoted written)) := by
  suffices hmore : ∀ q : Query, q.isTelling = true →
      ((more.foldl (fun q s => beside q (single s)) q).accepts r = true ↔
        q.accepts r = true ∧ ∀ written ∈ more, r.Has (String.ofList (unquoted written))) by
    have htelling : (single first).isTelling = true := (Bool.not_eq_true' _).mpr h
    rw [List.forall_mem_cons, ← accepts_single h]
    exact hmore _ htelling
  clear h
  induction more with
  | nil =>
    intro q hq
    simp
  | cons s more ih =>
    intro q hq
    rw [List.foldl_cons, beside_of_isTelling hq, List.forall_mem_cons]
    cases hvoid : (single s).isVoid with
    | true =>
      -- each row has a string without tokens
      have hhas : r.Has (String.ofList (unquoted s)) := by
        rw [isVoid_single, List.isEmpty_iff] at hvoid
        refine ⟨.id, ?_⟩
        rw [hvoid]
        exact List.nil_infix
      rw [if_pos rfl, ih q hq]
      exact and_congr_right fun _ => (and_iff_right hhas).symm
    | false =>
      have htelling : (Query.both q (single s)).isTelling = true := (Bool.not_eq_true' _).mpr hvoid
      have hboth : (Query.both q (single s)).accepts r = true ↔
          q.accepts r = true ∧ (single s).accepts r = true := Bool.and_eq_true_iff
      rw [if_neg Bool.false_ne_true, ih _ htelling, hboth, accepts_single hvoid, and_assoc]

/-! ## Strings that need no quotes -/

theorem lookup_signs {c : Char} (h : isBare c = true) : signs.lookup c = none := by
  have hsigns : ∀ p ∈ signs, isBare p.1 = false := by decide
  rw [List.lookup_eq_none_iff]
  intro p hp
  rw [bne_iff_ne]
  rintro rfl
  rw [hsigns p hp] at h
  cases h

theorem ne_of_isBare {c d : Char} (h : isBare c = true) (hd : isBare d = false) : c ≠ d := by
  rintro rfl
  rw [hd] at h
  cases h

/-- A string without quotes is read as far as it goes. -/
theorem scan_bare {cs : List Char} (hne : cs ≠ []) (h : ∀ c ∈ cs, isBare c = true) (rest : List Char)
    (hrest : ∀ c ∈ rest.head?, isBare c = false) (fuel : Nat) :
    scan (cs ++ rest) (fuel + 1) = (scan rest fuel).map (ofBare cs :: ·) := by
  obtain ⟨c, cs, rfl⟩ := List.exists_cons_of_ne_nil hne
  rw [List.forall_mem_cons] at h
  have htake : (cs ++ rest).takeWhile isBare = cs :=
    Text.takeWhile_eq_iff.mpr ⟨h.2, rest, rfl, hrest⟩
  have hquote : c ≠ '\x22' := ne_of_isBare h.1 (by decide)
  have hblank : (c == ' ' || c == '\t' || c == '\n' || c == '\r') = false := by
    simp only [Bool.or_eq_false_iff, beq_eq_false_iff_ne]
    exact ⟨⟨⟨ne_of_isBare h.1 (by decide), ne_of_isBare h.1 (by decide)⟩,
      ne_of_isBare h.1 (by decide)⟩, ne_of_isBare h.1 (by decide)⟩
  rw [List.cons_append, scan]
  simp only [hblank, Bool.false_eq_true, if_false, beq_iff_eq, hquote, lookup_signs h.1, h.1,
    if_true, htake, List.drop_left]

theorem asksForFigure_of_bare {cs : List Char} (hne : cs ≠ []) (h : ∀ c ∈ cs, isBare c = true)
    (rest : List Char) : asksForFigure (cs ++ rest) = false := by
  obtain ⟨c, cs, rfl⟩ := List.exists_cons_of_ne_nil hne
  have hc : c ≠ '*' := ne_of_isBare (h c List.mem_cons_self) (by decide)
  simp [asksForFigure, hc]

theorem unquoted_of_bare {cs : List Char} (h : ∀ c ∈ cs, isBare c = true) : unquoted cs = cs := by
  cases cs with
  | nil => rfl
  | cons c cs =>
    have hc : c ≠ '\x22' := ne_of_isBare (h c List.mem_cons_self) (by decide)
    simp [unquoted, hc]

/-- A text that needs no quotes and is the name of no operator is a query for its tokens. -/
theorem ofString?_of_bare {text : String} (hne : text.toList ≠ [])
    (h : ∀ c ∈ text.toList, isBare c = true) (hop : ofBare text.toList = .string text.toList) :
    ofString? text = some (ofPhrase (tokens text)) := by
  have hnull : '\x00' ∉ text.toList := fun hc => absurd (h _ hc) (by decide)
  have hfigure := asksForFigure_of_bare hne h []
  have hscan := scan_bare hne h [] nofun text.toList.length
  have hend : scan [] text.toList.length = some [] := by
    obtain ⟨n, hn⟩ := Nat.exists_eq_succ_of_ne_zero (mt List.length_eq_zero_iff.mp hne)
    rw [hn]
    rfl
  rw [List.append_nil] at hfigure
  rw [List.append_nil, hend, hop] at hscan
  have hread : ofString? text = some (sideBySide text.toList []) := ofString?_of_scan hnull hfigure hscan
  rw [hread]
  change some (single text.toList) = _
  rw [single_eq, unquoted_of_bare h, String.ofList_toList]

/-- No sign begins with a dot, so that a text with a dot behind a string is no query. -/
theorem ofString?_of_dotted {text : String} {front rest : List Char}
    (htext : text.toList = front ++ '.' :: rest) (hne : front ≠ [])
    (h : ∀ c ∈ front, isBare c = true) : ofString? text = none := by
  have hdot : ∀ rest fuel, scan ('.' :: rest) fuel = none := by
    intro rest fuel
    cases fuel <;> rfl
  have hhead : ∀ rest, ∀ c ∈ ('.' :: rest).head?, isBare c = false := by
    rintro rest c ⟨⟩
    decide
  have htake : text.toList.takeWhile (· != '\x00') = front ++ '.' :: rest.takeWhile (· != '\x00') := by
    have hfront : ∀ c ∈ front, (c != '\x00') = true := fun c hc =>
      bne_iff_ne.mpr (ne_of_isBare (h c hc) (by decide))
    rw [htext, List.takeWhile_append_of_pos hfront]
    rfl
  unfold ofString?
  simp only [htake, asksForFigure_of_bare hne h, scan_bare hne h _ (hhead _), hdot,
    Bool.false_eq_true, if_false, Option.map_none]

end Query

end CodeIndex.FullText
