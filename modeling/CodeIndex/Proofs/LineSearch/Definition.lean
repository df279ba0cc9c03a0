import CodeIndex.Proofs.LineSearch.Output
import CodeIndex.Proofs.Text.Places
import CodeIndex.Search.Result

/-!
# Lines that define something

A line names what it defines at the first place, outside of words, at which a keyword, blanks and the start
of a name follow one another.  Such a line defines something for the score too, and so does the line
that a match had before its blanks were cut off: a match with a name is always worth more by what a
definition is worth.
-/

namespace CodeIndex.LineSearch

open Text (isBlank isWord)

/-! ## Characters -/

def blankPoints : List Nat :=
  [9, 10, 11, 12, 13, 28, 29, 30, 31, 32, 0x85, 0xA0, 0x1680, 0x2000, 0x2001, 0x2002, 0x2003, 0x2004, 0x2005,
    0x2006, 0x2007, 0x2008, 0x2009, 0x200A, 0x2028, 0x2029, 0x202F, 0x205F, 0x3000]

theorem toNat_mem_blankPoints {c : Char} (h : isBlank c = true) : c.toNat ∈ blankPoints := by
  simp only [isBlank, Text.isWhite, Bool.or_eq_true, Bool.and_eq_true, decide_eq_true_eq, beq_iff_eq] at h
  simp only [blankPoints, List.mem_cons, List.not_mem_nil, or_false]
  omega

theorem inRanges_wordRanges_of_mem {n : Nat} (h : n ∈ blankPoints) :
    Text.inRanges Text.wordRanges n = false := by
  have hall : ∀ n ∈ blankPoints,
      (Text.wordRanges.toList.any fun r => r.1.ble n && n.ble r.2) = false := by decide +kernel
  unfold Text.inRanges
  rw [← Array.any_toList, ← hall n h]
  congr 1
  funext r
  exact Bool.eq_iff_iff.mpr (by simp)

theorem isWord_of_isBlank {c : Char} (h : isBlank c = true) : isWord c = false := by
  have hmem := toNat_mem_blankPoints h
  have hascii : ∀ n ∈ blankPoints, (Char.ofNat n == '_') = false ∧
      (n < 128 → (Text.isAsciiLetter (Char.ofNat n) || Text.isAsciiDigit (Char.ofNat n)) = false) := by
    decide
  obtain ⟨hunderscore, hletter⟩ := hascii c.toNat hmem
  rw [Char.ofNat_toNat] at hunderscore hletter
  rw [isWord, hunderscore, Bool.false_or, Text.isAlphanumeric]
  split
  · rename_i hc
    exact hletter hc
  · exact inRanges_wordRanges_of_mem hmem

theorem isBlank_of_isNameStart {c : Char} (h : isNameStart c = true) : isBlank c = false := by
  have hword : isWord c = true := by
    rw [isNameStart, Bool.or_eq_true] at h
    rcases h with h | h
    · exact Text.isWord_of_isAsciiLetter (by rw [Text.isAsciiLetter, h, Bool.true_or])
    · rw [isWord, h, Bool.true_or]
  by_contra hblank
  rw [isWord_of_isBlank (Bool.of_not_eq_false hblank)] at hword
  cases hword

/-! ## Places outside of words -/

/-- No word goes on behind a text, before which one may have begun. -/
def IsOutside (inWord : Bool) (front : List Char) : Prop :=
  (front.getLast?.map isWord).getD inWord = false

theorem isOutside_nil {inWord : Bool} : IsOutside inWord [] ↔ inWord = false := Iff.rfl

theorem isOutside_cons {inWord : Bool} {c : Char} {front : List Char} :
    IsOutside inWord (c :: front) ↔ IsOutside (isWord c) front := by
  unfold IsOutside
  rw [List.getLast?_cons]
  cases front.getLast? <;> rfl

theorem isOutside_false_iff {front : List Char} :
    IsOutside false front ↔ ∀ c ∈ front.getLast?, isWord c = false := by
  unfold IsOutside
  cases front.getLast? <;> simp

section

variable {α : Type} {f : List Char → Option α} {inWord : Bool} {text : List Char}

theorem firstAtWordStart_of_here {c : Char} {rest : List Char} {x : α} (hx : f (c :: rest) = some x) :
    firstAtWordStart f false (c :: rest) = some x := by
  rw [firstAtWordStart, if_neg Bool.false_ne_true, hx]

theorem firstAtWordStart_of_later {c : Char} {rest : List Char}
    (h : inWord = false → f (c :: rest) = none) :
    firstAtWordStart f inWord (c :: rest) = firstAtWordStart f (isWord c) rest := by
  rw [firstAtWordStart]
  cases inWord with
  | true => rfl
  | false => rw [if_neg Bool.false_ne_true, h rfl]

/-- What is found at the first start of a word stands there, and at no start before it. -/
theorem exists_of_firstAtWordStart {x : α} (h : firstAtWordStart f inWord text = some x) :
    ∃ front place, text = front ++ place ∧ IsOutside inWord front ∧ f place = some x ∧
      ∀ front' place', text = front' ++ place' → IsOutside inWord front' → (f place').isSome →
        front.length ≤ front'.length := by
  induction text generalizing inWord with
  | nil => cases h
  | cons c rest ih =>
    by_cases hhere : inWord = false ∧ (f (c :: rest)).isSome
    · obtain ⟨rfl, y, hy⟩ := hhere.imp_right Option.isSome_iff_exists.mp
      rw [firstAtWordStart_of_here hy] at h
      exact ⟨[], c :: rest, rfl, rfl, hy.trans h, fun _ _ _ _ _ => Nat.zero_le _⟩
    · have hnone : inWord = false → f (c :: rest) = none := fun hword =>
        Option.not_isSome_iff_eq_none.mp fun hsome => hhere ⟨hword, hsome⟩
      rw [firstAtWordStart_of_later hnone] at h
      obtain ⟨front, place, rfl, houtside, hplace, hfirst⟩ := ih h
      refine ⟨c :: front, place, rfl, isOutside_cons.mpr houtside, hplace, ?_⟩
      intro front' place' htext houtside' hplace'
      cases front' with
      | nil =>
        obtain rfl : c :: (front ++ place) = place' := htext
        exact absurd ⟨isOutside_nil.mp houtside', hplace'⟩ hhere
      | cons c' front' =>
        obtain ⟨rfl, hrest⟩ := List.cons.inj htext
        exact Nat.succ_le_succ (hfirst front' place' hrest (isOutside_cons.mp houtside') hplace')

theorem isSome_firstAtWordStart (hnil : f [] = none) {front place : List Char}
    (houtside : IsOutside inWord front) (hplace : (f place).isSome) :
    (firstAtWordStart f inWord (front ++ place)).isSome := by
  induction front generalizing inWord with
  | nil =>
    obtain ⟨x, hx⟩ := Option.isSome_iff_exists.mp hplace
    cases place with
    | nil => cases hnil.symm.trans hx
    | cons c rest =>
      obtain rfl := isOutside_nil.mp houtside
      rw [List.nil_append, firstAtWordStart_of_here hx]
      rfl
  | cons c front ih =>
    have hrest := ih (isOutside_cons.mp houtside)
    rw [List.cons_append, firstAtWordStart]
    split
    · rfl
    · exact hrest

theorem isSome_firstAtWordStart_iff (hnil : f [] = none) :
    (firstAtWordStart f inWord text).isSome ↔
      ∃ front place, text = front ++ place ∧ IsOutside inWord front ∧ (f place).isSome := by
  constructor
  · intro h
    obtain ⟨x, hx⟩ := Option.isSome_iff_exists.mp h
    obtain ⟨front, place, htext, houtside, hplace, -⟩ := exists_of_firstAtWordStart hx
    exact ⟨front, place, htext, houtside, Option.isSome_of_eq_some hplace⟩
  · rintro ⟨front, place, rfl, houtside, hplace⟩
    exact isSome_firstAtWordStart hnil houtside hplace

/-- What is found is at the first place outside of words at which there is something. -/
theorem firstAtWordStart_eq_some_iff (hnil : f [] = none) {x : α} :
    firstAtWordStart f inWord text = some x ↔
      ∃ front place, text = front ++ place ∧ IsOutside inWord front ∧ f place = some x ∧
        ∀ front' place', text = front' ++ place' → IsOutside inWord front' → (f place').isSome →
          front.length ≤ front'.length := by
  refine ⟨exists_of_firstAtWordStart, ?_⟩
  rintro ⟨front, place, rfl, houtside, hplace, hfirst⟩
  obtain ⟨y, hy⟩ := Option.isSome_iff_exists.mp
    (isSome_firstAtWordStart hnil houtside (Option.isSome_of_eq_some hplace))
  -- there is only one first place
  obtain ⟨front', place', htext, houtside', hplace', hfirst'⟩ := exists_of_firstAtWordStart hy
  have hle := hfirst front' place' htext houtside' (Option.isSome_of_eq_some hplace')
  have hge := hfirst' front place rfl houtside (Option.isSome_of_eq_some hplace)
  obtain ⟨-, rfl⟩ := List.append_inj htext (Nat.le_antisymm hle hge)
  rw [hy, ← hplace', hplace]

end

/-! ## Keywords -/

/-- A keyword and blanks, and what follows them. -/
inductive Opens (keywords : List String) : List Char → List Char → Prop where
  | mk {keyword : String} {blanks rest : List Char} (hkeyword : keyword ∈ keywords)
      (hne : blanks ≠ []) (hblanks : ∀ c ∈ blanks, isBlank c = true) :
    Opens keywords (keyword.toList ++ blanks ++ rest) rest

theorem head_blanks {blanks : List Char} (hne : blanks ≠ [])
    (hblanks : ∀ c ∈ blanks, isBlank c = true) (rest : List Char) :
    (blanks ++ rest).head?.any isBlank = true := by
  obtain ⟨b, blanks, rfl⟩ := List.exists_cons_of_ne_nil hne
  exact hblanks b List.mem_cons_self

/-- What follows one keyword and a blank at the front of a text. -/
def behind? (keyword : String) (text : List Char) : Option (List Char) :=
  if keyword.toList.isPrefixOf text then
    match text.drop keyword.length with
    | c :: rest => if isBlank c then some (c :: rest) else none
    | [] => none
  else none

/-- A keyword stands at the start of a text exactly if a blank follows it. -/
theorem behind?_eq_some_iff {keyword : String} {text tail : List Char} :
    behind? keyword text = some tail ↔
      text = keyword.toList ++ tail ∧ tail.head?.any isBlank = true := by
  unfold behind?
  split
  · rename_i hprefix
    obtain ⟨tail', rfl⟩ := List.isPrefixOf_iff_prefix.mp hprefix
    rw [← String.length_toList, List.drop_left, List.append_cancel_left_eq]
    cases tail' with
    | nil =>
      refine iff_of_false nofun ?_
      rintro ⟨rfl, hblank⟩
      cases hblank
    | cons c rest =>
      dsimp only
      split
      · rename_i hc
        rw [Option.some.injEq]
        exact ⟨fun h => ⟨h, h ▸ hc⟩, And.left⟩
      · rename_i hc
        refine iff_of_false nofun ?_
        rintro ⟨rfl, hblank⟩
        exact hc hblank
  · rename_i hprefix
    refine iff_of_false nofun ?_
    rintro ⟨rfl, -⟩
    exact hprefix (List.isPrefixOf_iff_prefix.mpr (List.prefix_append _ _))

theorem tail_eq_dropWhile {front tail : List Char} (hfront : ∀ c ∈ front, isBlank c = false)
    (htail : tail.head?.any isBlank = true) : tail = (front ++ tail).dropWhile (!isBlank ·) := by
  refine (Text.dropWhile_append (fun c hc => by rw [hfront c hc]; rfl) fun c hc => ?_).symm
  rw [Option.mem_def.mp hc] at htail
  rw [show isBlank c = true from htail]
  rfl

/-- As no keyword has a blank, only one of them can stand before one. -/
theorem afterKeyword?_eq_some_iff {keywords : List String}
    (hplain : ∀ keyword ∈ keywords, ∀ c ∈ keyword.toList, isBlank c = false) {text tail : List Char} :
    afterKeyword? keywords text = some tail ↔
      ∃ keyword ∈ keywords, text = keyword.toList ++ tail ∧ tail.head?.any isBlank = true := by
  change keywords.findSome? (behind? · text) = some tail ↔ _
  constructor
  · intro h
    obtain ⟨keyword, hkeyword, hbehind⟩ := List.exists_of_findSome?_eq_some h
    exact ⟨keyword, hkeyword, behind?_eq_some_iff.mp hbehind⟩
  · rintro ⟨keyword, hkeyword, htext, htail⟩
    have hbehind := behind?_eq_some_iff.mpr ⟨htext, htail⟩
    obtain ⟨tail', htail'⟩ := Option.isSome_iff_exists.mp
      (List.findSome?_isSome_iff.mpr ⟨keyword, hkeyword, Option.isSome_of_eq_some hbehind⟩ :
        (keywords.findSome? (behind? · text)).isSome = true)
    obtain ⟨keyword', hkeyword', hbehind'⟩ := List.exists_of_findSome?_eq_some htail'
    obtain ⟨htext', hblank'⟩ := behind?_eq_some_iff.mp hbehind'
    rw [htail', tail_eq_dropWhile (hplain keyword hkeyword) htail, ← htext,
      tail_eq_dropWhile (hplain keyword' hkeyword') hblank', ← htext']

theorem plain_of_all {keywords : List String}
    (h : (keywords.all fun keyword => keyword.toList.all (!isBlank ·)) = true) :
    ∀ keyword ∈ keywords, ∀ c ∈ keyword.toList, isBlank c = false := by
  intro keyword hkeyword c hc
  have hchars := List.all_eq_true.mp h keyword hkeyword
  simpa using List.all_eq_true.mp hchars c hc

theorem callableKeywords_plain :
    ∀ keyword ∈ callableKeywords, ∀ c ∈ keyword.toList, isBlank c = false :=
  plain_of_all (by decide)

theorem definitionKeywords_plain :
    ∀ keyword ∈ definitionKeywords, ∀ c ∈ keyword.toList, isBlank c = false :=
  plain_of_all (by decide)

/-! ## Names -/

/-- A lower-case ASCII letter or an underscore, then such characters, capitals and digits, and at most one
closing mark. -/
inductive IsName : List Char → Prop where
  | mk {c : Char} {body mark : List Char} (hc : isNameStart c = true)
      (hbody : ∀ x ∈ body, isNameChar x = true) (hmark : mark ∈ [[], ['?'], ['!']]) :
    IsName (c :: body ++ mark)

/-- The longest name at the front of a text. -/
structure IsLongestName (text name : List Char) : Prop where
  isName : IsName name
  front : name <+: text
  longest : ∀ other, IsName other → other <+: text → other.length ≤ name.length

theorem IsLongestName.unique {text name name' : List Char} (h : IsLongestName text name)
    (h' : IsLongestName text name') : name = name' :=
  List.IsPrefix.eq_of_length (List.prefix_of_prefix_length_le h.front h'.front
    (h'.longest name h.isName h.front))
    (Nat.le_antisymm (h'.longest name h.isName h.front) (h.longest name' h'.isName h'.front))

theorem IsLongestName.head {text name : List Char} (h : IsLongestName text name) :
    text.head?.any isNameStart = true := by
  obtain ⟨hname, ⟨more, rfl⟩, -⟩ := h
  cases hname with
  | mk hc => exact hc

/-- The closing mark at the front of a text, if there is one. -/
def closingMark (text : List Char) : List Char :=
  (text.take 1).filter fun m => m == '?' || m == '!'

theorem closingMark_spec (text : List Char) :
    closingMark text ∈ [[], ['?'], ['!']] ∧ closingMark text <+: text ∧
      ∀ mark ∈ [[], ['?'], ['!']], mark <+: text → mark.length ≤ (closingMark text).length := by
  cases text with
  | nil => simp [closingMark]
  | cons m after =>
    have hmark : closingMark (m :: after) = if m == '?' || m == '!' then [m] else [] := by
      simp [closingMark, List.filter_cons]
    rw [hmark]
    split
    · rename_i hm
      have hm : m = '?' ∨ m = '!' := by simpa using hm
      rcases hm with rfl | rfl <;> simp
    · rename_i hm
      have hm : m ≠ '?' ∧ m ≠ '!' := by simpa using hm
      simp [hm.1.symm, hm.2.symm]

section

variable {c : Char} {body after : List Char} (hc : isNameStart c = true)
  (hbody : ∀ x ∈ body, isNameChar x = true) (hafter : ∀ x ∈ after.head?, isNameChar x = false)

include hc hbody hafter

theorem nameAt?_cons :
    nameAt? (c :: (body ++ after)) = some (String.ofList (c :: body ++ closingMark after)) := by
  have htake : (body ++ after).takeWhile isNameChar = body :=
    Text.takeWhile_eq_iff.mpr ⟨hbody, after, rfl, hafter⟩
  rw [nameAt?, if_pos hc, htake]
  dsimp only
  rw [List.drop_left]
  rfl

theorem isLongestName_cons :
    IsLongestName (c :: (body ++ after)) (c :: body ++ closingMark after) := by
  obtain ⟨hmark, hfront, hlongest⟩ := closingMark_spec after
  refine ⟨.mk hc hbody hmark, ?_, ?_⟩
  · change c :: (body ++ closingMark after) <+: c :: (body ++ after)
    rwa [List.prefix_cons_inj, List.prefix_append_right_inj]
  · rintro _ @⟨c', body', mark', -, hbody', hmark'⟩ ⟨more, hmore⟩
    rw [List.cons_append, List.cons_append, List.cons.injEq, List.append_assoc] at hmore
    -- the body of the other name is as long as this one's if a mark ends it, and else no longer
    have htake := congrArg (List.takeWhile isNameChar) hmore.2
    rw [List.takeWhile_append_of_pos hbody', Text.takeWhile_eq_iff.mpr ⟨hbody, after, rfl, hafter⟩]
      at htake
    rw [List.length_append, List.length_append, List.length_cons, List.length_cons]
    by_cases hnone : mark' = []
    · have hlength := congrArg List.length htake
      rw [List.length_append] at hlength
      rw [hnone, List.length_nil]
      omega
    · have hstop : (mark' ++ more).takeWhile isNameChar = [] := by
        simp only [List.mem_cons, List.not_mem_nil, or_false] at hmark'
        rcases hmark' with rfl | rfl | rfl
        · exact absurd rfl hnone
        · rfl
        · rfl
      rw [hstop, List.append_nil] at htake
      subst htake
      have := hlongest mark' hmark' ⟨more, List.append_cancel_left hmore.2⟩
      omega

end

theorem exists_nameAt? {c : Char} (hc : isNameStart c = true) (rest : List Char) :
    ∃ name, nameAt? (c :: rest) = some name ∧ IsLongestName (c :: rest) name.toList := by
  obtain ⟨hbody, after, hrest, hafter⟩ :=
    Text.takeWhile_eq_iff.mp (rfl : rest.takeWhile isNameChar = _)
  rw [hrest]
  refine ⟨_, nameAt?_cons hc hbody hafter, ?_⟩
  rw [String.toList_ofList]
  exact isLongestName_cons hc hbody hafter

theorem isSome_nameAt?_iff {text : List Char} :
    (nameAt? text).isSome ↔ text.head?.any isNameStart = true := by
  cases text with
  | nil => rfl
  | cons c rest =>
    rw [nameAt?]
    cases hc : isNameStart c <;> simp [hc]

theorem nameAt?_eq_some_iff {text : List Char} {name : String} :
    nameAt? text = some name ↔ IsLongestName text name.toList := by
  by_cases hstart : text.head?.any isNameStart = true
  · cases text with
    | nil => cases hstart
    | cons c rest =>
      obtain ⟨found, hfound, hlongest⟩ := exists_nameAt? hstart rest
      rw [hfound, Option.some.injEq, ← String.toList_inj]
      exact ⟨fun h => h ▸ hlongest, fun h => hlongest.unique h⟩
  · refine iff_of_false (fun h => hstart ?_) fun h => hstart h.head
    exact isSome_nameAt?_iff.mp (Option.isSome_of_eq_some h)

/-! ## Definitions -/

/-- A place at which a line defines something callable: `front` is what stands before it, and `rest`
what follows the keyword and the blanks. -/
structure Defines (front place rest : List Char) : Prop where
  outside : ∀ c ∈ front.getLast?, isWord c = false
  opens : Opens callableKeywords place rest
  named : rest.head?.any isNameStart = true

def nameBehind? (text : List Char) : Option String :=
  (afterKeyword? callableKeywords text).bind fun rest => nameAt? (rest.dropWhile isBlank)

theorem nameBehind?_of_opens {place rest : List Char} (h : Opens callableKeywords place rest)
    (hnamed : rest.head?.any isNameStart = true) : nameBehind? place = nameAt? rest := by
  cases h with
  | @mk keyword blanks _ hkeyword hne hblanks =>
    have hafter : afterKeyword? callableKeywords (keyword.toList ++ blanks ++ rest) =
        some (blanks ++ rest) :=
      (afterKeyword?_eq_some_iff callableKeywords_plain).mpr
        ⟨keyword, hkeyword, List.append_assoc _ _ _, head_blanks hne hblanks rest⟩
    have hdrop : (blanks ++ rest).dropWhile isBlank = rest := by
      refine Text.dropWhile_append hblanks fun c hc => isBlank_of_isNameStart ?_
      rw [Option.mem_def.mp hc] at hnamed
      exact hnamed
    rw [nameBehind?, hafter, Option.bind_some, hdrop]

theorem exists_opens_of_nameBehind? {place : List Char} (h : (nameBehind? place).isSome) :
    ∃ rest, Opens callableKeywords place rest ∧ rest.head?.any isNameStart = true := by
  obtain ⟨name, hname⟩ := Option.isSome_iff_exists.mp h
  obtain ⟨tail, htail, hnamed⟩ := Option.bind_eq_some_iff.mp hname
  obtain ⟨keyword, hkeyword, rfl, hblank⟩ :=
    (afterKeyword?_eq_some_iff callableKeywords_plain).mp htail
  refine ⟨tail.dropWhile isBlank, ?_, isSome_nameAt?_iff.mp (Option.isSome_of_eq_some hnamed)⟩
  have hne : tail.takeWhile isBlank ≠ [] := by
    cases tail with
    | nil => cases hblank
    | cons b tail =>
      rw [List.takeWhile_cons_of_pos (show isBlank b = true from hblank)]
      exact List.cons_ne_nil _ _
  have hopens : Opens callableKeywords _ (tail.dropWhile isBlank) :=
    .mk hkeyword hne fun c hc => List.mem_takeWhile_imp hc
  rwa [List.append_assoc, List.takeWhile_append_dropWhile] at hopens

theorem isSome_nameBehind?_iff {place : List Char} : (nameBehind? place).isSome ↔
    ∃ rest, Opens callableKeywords place rest ∧ rest.head?.any isNameStart = true := by
  refine ⟨exists_opens_of_nameBehind?, ?_⟩
  rintro ⟨rest, hopens, hnamed⟩
  rw [nameBehind?_of_opens hopens hnamed]
  exact isSome_nameAt?_iff.mpr hnamed

theorem definedName?_eq_some_iff {line name : String} :
    definedName? line = some name ↔
      ∃ front place rest, line.toList = front ++ place ∧ Defines front place rest ∧
        (∀ front' place' rest', line.toList = front' ++ place' → Defines front' place' rest' →
          front.length ≤ front'.length) ∧ IsLongestName rest name.toList := by
  change firstAtWordStart nameBehind? false line.toList = some name ↔ _
  rw [firstAtWordStart_eq_some_iff rfl]
  constructor
  · rintro ⟨front, place, hline, houtside, hplace, hfirst⟩
    obtain ⟨rest, hopens, hnamed⟩ := isSome_nameBehind?_iff.mp (Option.isSome_of_eq_some hplace)
    rw [nameBehind?_of_opens hopens hnamed] at hplace
    refine ⟨front, place, rest, hline, ⟨isOutside_false_iff.mp houtside, hopens, hnamed⟩, ?_,
      nameAt?_eq_some_iff.mp hplace⟩
    intro front' place' rest' hline' h
    exact hfirst front' place' hline' (isOutside_false_iff.mpr h.outside)
      (isSome_nameBehind?_iff.mpr ⟨rest', h.opens, h.named⟩)
  · rintro ⟨front, place, rest, hline, h, hfirst, hname⟩
    refine ⟨front, place, hline, isOutside_false_iff.mpr h.outside, ?_, ?_⟩
    · rw [nameBehind?_of_opens h.opens h.named]
      exact nameAt?_eq_some_iff.mpr hname
    · intro front' place' hline' houtside' hplace'
      obtain ⟨rest', hopens, hnamed⟩ := isSome_nameBehind?_iff.mp hplace'
      exact hfirst front' place' rest' hline' ⟨isOutside_false_iff.mp houtside', hopens, hnamed⟩

theorem isSome_definedName?_iff {line : String} :
    (definedName? line).isSome ↔
      ∃ front place rest, line.toList = front ++ place ∧ Defines front place rest := by
  change (firstAtWordStart nameBehind? false line.toList).isSome ↔ _
  rw [isSome_firstAtWordStart_iff rfl]
  constructor
  · rintro ⟨front, place, hline, houtside, hplace⟩
    obtain ⟨rest, hopens, hnamed⟩ := isSome_nameBehind?_iff.mp hplace
    exact ⟨front, place, rest, hline, isOutside_false_iff.mp houtside, hopens, hnamed⟩
  · rintro ⟨front, place, rest, hline, h⟩
    exact ⟨front, place, hline, isOutside_false_iff.mpr h.outside,
      isSome_nameBehind?_iff.mpr ⟨rest, h.opens, h.named⟩⟩

/-! ## Lines of matches -/

theorem isDefinition_iff {line : String} : isDefinition line = true ↔
    ∃ front tail, ∃ keyword ∈ definitionKeywords, line.toList = front ++ keyword.toList ++ tail ∧
      (∀ c ∈ front.getLast?, isWord c = false) ∧ tail.head?.any isBlank = true := by
  change (firstAtWordStart (afterKeyword? definitionKeywords) false line.toList).isSome = true ↔ _
  rw [isSome_firstAtWordStart_iff rfl]
  constructor
  · rintro ⟨front, place, hline, houtside, hplace⟩
    obtain ⟨tail, htail⟩ := Option.isSome_iff_exists.mp hplace
    obtain ⟨keyword, hkeyword, rfl, hblank⟩ :=
      (afterKeyword?_eq_some_iff definitionKeywords_plain).mp htail
    exact ⟨front, tail, keyword, hkeyword, by rw [hline, List.append_assoc],
      isOutside_false_iff.mp houtside, hblank⟩
  · rintro ⟨front, tail, keyword, hkeyword, hline, houtside, hblank⟩
    refine ⟨front, keyword.toList ++ tail, by rw [hline, List.append_assoc],
      isOutside_false_iff.mpr houtside, ?_⟩
    exact Option.isSome_of_eq_some ((afterKeyword?_eq_some_iff definitionKeywords_plain).mpr
      ⟨keyword, hkeyword, rfl, hblank⟩)

theorem isDefinition_of_definedName? {line : String} (h : (definedName? line).isSome) :
    isDefinition line = true := by
  obtain ⟨front, place, rest, hline, houtside, hopens, -⟩ := isSome_definedName?_iff.mp h
  cases hopens with
  | @mk keyword blanks _ hkeyword hne hblanks =>
    refine isDefinition_iff.mpr ⟨front, blanks ++ rest, keyword, List.mem_cons_of_mem _ hkeyword, ?_,
      houtside, head_blanks hne hblanks rest⟩
    rw [hline, List.append_assoc, List.append_assoc]

/-- What a line defines without the blanks around it, it defines with them. -/
theorem isDefinition_of_strip {line : String} (h : isDefinition (Text.strip line) = true) :
    isDefinition line = true := by
  obtain ⟨cut, back, hline, hcut⟩ := Text.exists_append_trimBoth isBlank line.toList
  obtain ⟨front, tail, keyword, hkeyword, hstrip, houtside, hblank⟩ := isDefinition_iff.mp h
  rw [Text.strip, String.toList_ofList] at hstrip
  refine isDefinition_iff.mpr ⟨cut ++ front, tail ++ back, keyword, hkeyword, ?_, ?_, ?_⟩
  · rw [hline, hstrip]
    simp only [List.append_assoc]
  · intro c hc
    cases front with
    | nil =>
      rw [List.append_nil] at hc
      exact isWord_of_isBlank (hcut c (List.mem_of_getLast? hc))
    | cons d front =>
      rw [List.getLast?_append_of_ne_nil _ (List.cons_ne_nil d front)] at hc
      exact houtside c hc
  · cases tail with
    | nil => cases hblank
    | cons b tail => exact hblank

/-- A line that defines something is worth more, by what a definition is worth, than one of its length that
does not. -/
theorem score_of_isDefinition {line other : String} (h : isDefinition line = true)
    (hother : isDefinition other = false) (hlength : other.length = line.length) (path : String)
    (primaryDirs testDirs : List String) (longLine : Int) :
    score path line primaryDirs testDirs longLine =
      score path other primaryDirs testDirs longLine + worth.definition := by
  unfold score
  dsimp only
  rw [h, hother, hlength, if_pos rfl, if_neg Bool.false_ne_true]
  omega

theorem Scope.Reads.exists_of_mem {scope : Scope} {lines : List String} {found : List Match}
    (h : scope.Reads lines found) {m : Match} (hm : m ∈ found) : ∃ line, scope.Reports line m := by
  induction h with
  | nil => cases hm
  | skip _ _ ih => exact ih hm
  | report h _ ih =>
    rcases List.mem_cons.mp hm with rfl | hm
    · exact ⟨_, h⟩
    · exact ih hm

theorem yields_of_found {scope : Scope} {outcome : Program.Outcome} {found : List Match}
    (h : scope.found outcome = .ok found) : scope.Yields outcome found := by
  obtain ⟨found', hyields⟩ | hfailed | hgarbled := outcome_cases scope outcome
  · have heq := h.symm.trans (found_of_yields hyields)
    injection heq with heq
    exact heq ▸ hyields
  · obtain ⟨reason, code, herror⟩ := found_of_isFailed hfailed scope
    cases h.symm.trans herror
  · obtain ⟨m, herror⟩ := found_of_isGarbled hgarbled
    cases h.symm.trans herror

/-- A match is a line without its end and the blanks around it, and judged by the line with them. -/
theorem exists_line_of_mem_found {scope : Scope} {outcome : Program.Outcome} {found : List Match}
    (h : scope.found outcome = .ok found) {m : Match} (hm : m ∈ found) :
    ∃ line, m.text = Text.strip line ∧
      m.score = score m.path line scope.primaryDirs scope.settings.testDirs
        scope.settings.longLineThreshold := by
  cases yields_of_found h with
  | found hreads =>
    obtain ⟨_, hreports⟩ := hreads.exists_of_mem hm
    cases hreports with
    | mk => exact ⟨_, rfl, rfl⟩
  | nothing => cases hm

/-- What a line defines.  It has a name just if a keyword, blanks and the start of a name follow one another
somewhere outside of its words; the name is the longest one there, at the first such place.  Such a line
counts as a definition, and so a match of the line search that has a name is always worth more by what a
definition is worth. -/
theorem definition_of_line :
    (∀ line : String, (definedName? line).isSome ↔
      ∃ front place rest, line.toList = front ++ place ∧ Defines front place rest) ∧
    (∀ line name : String, definedName? line = some name ↔
      ∃ front place rest, line.toList = front ++ place ∧ Defines front place rest ∧
        (∀ front' place' rest', line.toList = front' ++ place' → Defines front' place' rest' →
          front.length ≤ front'.length) ∧ IsLongestName rest name.toList) ∧
    (∀ line : String, (definedName? line).isSome → isDefinition line = true) ∧
    ∀ (scope : Scope) (outcome : Program.Outcome) (found : List Match),
      scope.found outcome = .ok found → ∀ m ∈ found, ∀ settings : Settings.Index,
        (Search.Result.ofMatch settings m).name.isSome →
        ∃ line, m.text = Text.strip line ∧ isDefinition line = true ∧
          m.score = score m.path line scope.primaryDirs scope.settings.testDirs
            scope.settings.longLineThreshold ∧
          ∀ other, isDefinition other = false → other.length = line.length →
            m.score = score m.path other scope.primaryDirs scope.settings.testDirs
              scope.settings.longLineThreshold + worth.definition := by
  refine ⟨fun _ => isSome_definedName?_iff, fun _ _ => definedName?_eq_some_iff,
    fun _ => isDefinition_of_definedName?, ?_⟩
  intro scope outcome found hfound m hm settings hnamed
  obtain ⟨line, htext, hscore⟩ := exists_line_of_mem_found hfound hm
  have hdefinition : isDefinition line = true :=
    isDefinition_of_strip (htext ▸ isDefinition_of_definedName? hnamed)
  refine ⟨line, htext, hdefinition, hscore, fun other hother hlength => ?_⟩
  rw [hscore]
  exact score_of_isDefinition hdefinition hother hlength _ _ _ _

def definingOutput : Bytes :=
  ("\x7b\x22type\x22: \x22match\x22, \x22data\x22: \x7b\x22path\x22: \x7b\x22text\x22: " ++
    "\x22./lib/b.ex\x22\x7d, \x22lines\x22: \x7b\x22text\x22: \x22  def run?(x) do\x22\x7d, " ++
    "\x22line_number\x22: 7\x7d\x7d\n").toList.map fun c => UInt8.ofNat c.toNat

def definingMatch : Match :=
  { path := "lib/b.ex", line := 7, text := "def run?(x) do", score := 170 }

theorem definition_of_run :
    let scope : Scope := { settings := {}, extensions := [".ex"] }
    scope.found (.exited 0 definingOutput []) = .ok [definingMatch] ∧
      (Search.Result.ofMatch {} definingMatch).name = some "run?" ∧
      ∃ line, definingMatch.text = Text.strip line ∧ isDefinition line = true ∧
        ∀ other, isDefinition other = false → other.length = line.length →
          definingMatch.score = score "lib/b.ex" other ["lib"] ["test"] 200 + worth.definition := by
  intro scope
  have hread : scope.matches? (Text.ofBytes definingOutput) = .ok [definingMatch] := by
    decide +kernel
  have hfound : scope.found (.exited 0 definingOutput []) = .ok [definingMatch] :=
    found_of_yields (.found (matches?_eq_ok_iff.mp hread))
  have hname : (Search.Result.ofMatch {} definingMatch).name = some "run?" := by decide
  obtain ⟨line, htext, hdefinition, -, hscore⟩ := definition_of_line.2.2.2 scope _ _ hfound _
    List.mem_cons_self {} (Option.isSome_of_eq_some hname)
  exact ⟨hfound, hname, line, htext, hdefinition, hscore⟩

end CodeIndex.LineSearch
