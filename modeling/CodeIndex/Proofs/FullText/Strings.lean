import CodeIndex.Proofs.FullText.Quoted

/-!
# The strings of a quoted text

A reader of strings alone: each is between quotes, a quote inside it is written twice, and one blank stands
between two of them.  What quoting makes of a text is read by it as the words of the text, with nothing left
over, and the reader of queries takes it for the same strings.  Quoted once more it is what it was.
-/

namespace CodeIndex.FullText

/-! ## Reading strings -/

/-- The strings in what follows an opening quote, `current` being the start of the first one, reversed. -/
def stringsFrom (current : List Char) : List Char → Option (List (List Char))
  | [] => none
  | '\x22' :: '\x22' :: rest => stringsFrom ('\x22' :: current) rest
  | ['\x22'] => some [current.reverse]
  | '\x22' :: ' ' :: '\x22' :: rest => (stringsFrom [] rest).map (current.reverse :: ·)
  | '\x22' :: _ => none
  | c :: rest => stringsFrom (c :: current) rest

/-- The strings of a text; nothing if there is anything else in it. -/
def strings? : List Char → Option (List (List Char))
  | [] => some []
  | '\x22' :: rest => stringsFrom [] rest
  | _ => none

open Query (escaped)

theorem stringsFrom_escaped (cs current rest : List Char) :
    stringsFrom current (escaped cs ++ '\x22' :: rest) =
      stringsFrom (cs.reverse ++ current) ('\x22' :: rest) := by
  induction cs generalizing current with
  | nil => rfl
  | cons c cs ih =>
    rw [List.reverse_cons, List.append_assoc, List.singleton_append, ← ih]
    by_cases hc : c = '\x22'
    · subst hc
      rfl
    · rw [Query.escaped_cons_of_ne hc, List.cons_append]
      simp [stringsFrom, hc]

theorem exists_quoted_cons (text : String) (more : List String) :
    ∃ rest, (" ".intercalate ((text :: more).map quotedWord)).toList = '\x22' :: rest := by
  cases more with
  | nil =>
    rw [List.map_singleton, String.intercalate_singleton, Query.toList_quotedWord]
    exact ⟨_, rfl⟩
  | cons next more =>
    rw [List.map_cons, List.map_cons, String.intercalate_cons_cons, String.toList_append,
      String.toList_append, Query.toList_quotedWord]
    exact ⟨_, rfl⟩

/-- Quoted texts with one blank between two of them are read as these texts. -/
theorem strings?_quotedWords (texts : List String) :
    strings? (" ".intercalate (texts.map quotedWord)).toList = some (texts.map String.toList) := by
  cases texts with
  | nil => rfl
  | cons text more =>
    induction more generalizing text with
    | nil =>
      rw [List.map_singleton, String.intercalate_singleton, Query.toList_quotedWord]
      change stringsFrom [] (escaped text.toList ++ ['\x22']) = _
      rw [stringsFrom_escaped, List.append_nil]
      change some [text.toList.reverse.reverse] = _
      rw [List.reverse_reverse, List.map_singleton]
    | cons next more ih =>
      obtain ⟨rest, hrest⟩ := exists_quoted_cons next more
      have hnext := ih next
      rw [hrest] at hnext
      change stringsFrom [] rest = _ at hnext
      have hquoted : (" ".intercalate ((text :: next :: more).map quotedWord)).toList =
          '\x22' :: (escaped text.toList ++ '\x22' :: ' ' :: '\x22' :: rest) := by
        rw [List.map_cons, List.map_cons, String.intercalate_cons_cons, ← List.map_cons,
          String.toList_append, String.toList_append, Query.toList_quotedWord, hrest]
        simp
      rw [hquoted]
      change stringsFrom [] (escaped text.toList ++ '\x22' :: ' ' :: '\x22' :: rest) = _
      rw [stringsFrom_escaped, List.append_nil]
      change (stringsFrom [] rest).map (text.toList.reverse.reverse :: ·) = _
      rw [hnext, List.reverse_reverse]
      rfl

/-! ## Quoting again -/

theorem escaped_of_notMem {cs : List Char} (h : '\x22' ∉ cs) : escaped cs = cs := by
  induction cs with
  | nil => rfl
  | cons c cs ih =>
    rw [List.mem_cons, not_or] at h
    rw [Query.escaped_cons_of_ne (Ne.symm h.1), ih h.2]

theorem runsOf_quotedWord {text : String} (hne : text.toList ≠ [])
    (h : ∀ c ∈ text.toList, Text.isWord c = true) (rest : List Char) :
    Text.runsOf Text.isWord ((quotedWord text).toList ++ rest) =
      text.toList :: Text.runsOf Text.isWord rest := by
  have hquote : Text.isWord '\x22' = false := by decide
  have hnone : '\x22' ∉ text.toList := by
    intro hmem
    have hword := h _ hmem
    rw [hquote] at hword
    cases hword
  rw [Query.toList_quotedWord, escaped_of_notMem hnone, List.cons_append, List.cons_append,
    Text.runsOf_cons_of_neg hquote, List.append_assoc, List.singleton_append,
    Text.runsOf_append hne h (by simpa using hquote), Text.runsOf_cons_of_neg hquote]

/-- The words of quoted words are these words: quotes and blanks are no part of any. -/
theorem words_quotedWords {texts : List String}
    (h : ∀ text ∈ texts, text.toList ≠ [] ∧ ∀ c ∈ text.toList, Text.isWord c = true) :
    Text.words (" ".intercalate (texts.map quotedWord)) = texts := by
  have hblank : ∀ rest, Text.runsOf Text.isWord (" ".toList ++ rest) = Text.runsOf Text.isWord rest :=
    fun rest => Text.runsOf_cons_of_neg (by decide) rest
  have hruns : Text.runsOf Text.isWord (" ".intercalate (texts.map quotedWord)).toList =
      texts.map String.toList := by
    induction texts with
    | nil => rfl
    | cons text more ih =>
      obtain ⟨⟨hne, hall⟩, hmore⟩ := List.forall_mem_cons.mp h
      cases more with
      | nil =>
        rw [List.map_singleton, String.intercalate_singleton, ← List.append_nil (quotedWord text).toList,
          runsOf_quotedWord hne hall]
        rfl
      | cons next more =>
        rw [List.map_cons, List.map_cons, String.intercalate_cons_cons, ← List.map_cons,
          String.toList_append, String.toList_append, List.append_assoc, runsOf_quotedWord hne hall,
          hblank, ih hmore]
        rfl
  rw [Text.words, hruns, List.map_map]
  simp [Function.comp_def]

theorem quoteQuery_quoteQuery (s : String) : quoteQuery (quoteQuery s) = quoteQuery s := by
  have hwords : Text.words (quoteQuery s) = Text.words s :=
    words_quotedWords fun word hword => Text.isRun_of_mem_words hword
  rw [quoteQuery, hwords]
  rfl

/-! ## What is read of it -/

theorem map_toList_words (s : String) :
    (Text.words s).map String.toList = Text.runsOf Text.isWord s.toList := by
  rw [Text.words, List.map_map]
  simp [Function.comp_def]

/-- The reader of queries sees the strings of a quoted text and no other sign. -/
theorem scan_quoteQuery (s : String) :
    ∃ written : List (List Char),
      Query.scan (quoteQuery s).toList ((quoteQuery s).toList.length + 1) = some (written.map .string) ∧
        written.map Query.unquoted = Text.runsOf Text.isWord s.toList := by
  refine ⟨(Text.words s).map fun word => (quotedWord word).toList, ?_, ?_⟩
  · unfold quoteQuery
    cases hwords : Text.words s with
    | nil => rfl
    | cons word more =>
      rw [Query.scan_quotedWords word more (Nat.lt_succ_self _), List.map_map]
      rfl
  · rw [List.map_map, ← map_toList_words]
    apply List.map_congr_left
    intro word _
    rw [Function.comp_apply, Query.unquoted_quotedWord]

/-- What quoting makes of a text is read as strings and nothing else, whether by the syntax of strings
alone or by that of queries, and the strings are the maximal runs of word characters of the text, from left
to right.  Quoting it again changes nothing. -/
theorem quoteQuery_lossless (s : String) :
    ∃ runs, strings? (quoteQuery s).toList = some runs ∧
      Text.Finds (Text.IsMaximalRun Text.isWord) [] s.toList runs ∧
      (∃ written : List (List Char),
        Query.scan (quoteQuery s).toList ((quoteQuery s).toList.length + 1) =
            some (written.map .string) ∧ written.map Query.unquoted = runs) ∧
      quoteQuery (quoteQuery s) = quoteQuery s := by
  have hread : strings? (quoteQuery s).toList = some (Text.runsOf Text.isWord s.toList) := by
    rw [quoteQuery, strings?_quotedWords, map_toList_words]
  exact ⟨Text.runsOf Text.isWord s.toList, hread, Text.finds_runsOf Text.isWord s.toList,
    scan_quoteQuery s, quoteQuery_quoteQuery s⟩

example : strings? (quoteQuery "near(\x22a_b\x22 OR x)").toList =
    some ["near".toList, "a_b".toList, "OR".toList, "x".toList] := by
  decide

end CodeIndex.FullText
