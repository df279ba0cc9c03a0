import CodeIndex.Proofs.Value.Spelling

/-!
# Values in JSON

The grammar of values: blanks may stand between any two tokens, and the nesting is bounded.  The reader
gives back what is spelled, and leaves what follows it.
-/

namespace CodeIndex.Value

def Blank (cs : List Char) : Prop :=
  ∀ c ∈ cs, isJsonBlank c = true

/-- What a text can stand for: a value, the items of a list, or the members of a map; of the last two
from the first on and with the closing bracket. -/
inductive Phrase where
  | value (v : Value)
  | items (vs : List Value)
  | members (ms : List (String × Value))

/-- The spellings of a phrase that is nested no deeper than some bound. -/
inductive Spells : Nat → Phrase → List Char → Prop where
  | string {depth : Nat} {points : List Nat} {body : List Char} (h : Body points body) :
      Spells depth (.value (ofPoints points)) ('\x22' :: (body ++ ['\x22']))
  | word {depth : Nat} {word : List Char} {v : Value} (h : (word, v) ∈ constants) :
      Spells depth (.value v) word
  | number {depth : Nat} {v : Value} {cs : List Char} (h : Number v cs) : Spells depth (.value v) cs
  | emptyList {depth : Nat} {gap : List Char} (hgap : Blank gap) :
      Spells (depth + 1) (.value (.list [])) ('[' :: (gap ++ [']']))
  | list {depth : Nat} {gap cs : List Char} {vs : List Value} (hgap : Blank gap)
      (h : Spells depth (.items vs) cs) : Spells (depth + 1) (.value (.list vs)) ('[' :: (gap ++ cs))
  | emptyMap {depth : Nat} {gap : List Char} (hgap : Blank gap) :
      Spells (depth + 1) (.value (.map [])) ('\x7b' :: (gap ++ ['\x7d']))
  | map {depth : Nat} {gap cs : List Char} {ms : List (String × Value)} (hgap : Blank gap)
      (h : Spells depth (.members ms) cs) :
      Spells (depth + 1) (.value (.map (Members.ofPairs ms))) ('\x7b' :: (gap ++ cs))
  | lastItem {depth : Nat} {v : Value} {cs gap : List Char} (h : Spells depth (.value v) cs)
      (hgap : Blank gap) : Spells depth (.items [v]) (cs ++ (gap ++ [']']))
  | item {depth : Nat} {v : Value} {vs : List Value} {cs gap gap' more : List Char}
      (h : Spells depth (.value v) cs) (hgap : Blank gap) (hgap' : Blank gap')
      (hmore : Spells depth (.items vs) more) :
      Spells depth (.items (v :: vs)) (cs ++ (gap ++ ',' :: (gap' ++ more)))
  | lastMember {depth : Nat} {points : List Nat} {v : Value} {body g₁ g₂ cs g₃ : List Char}
      (hkey : Body points body) (h₁ : Blank g₁) (h₂ : Blank g₂) (h : Spells depth (.value v) cs)
      (h₃ : Blank g₃) :
      Spells depth (.members [(keyOfPoints points, v)])
        ('\x22' :: (body ++ '\x22' :: (g₁ ++ ':' :: (g₂ ++ (cs ++ (g₃ ++ ['\x7d']))))))
  | member {depth : Nat} {points : List Nat} {v : Value} {ms : List (String × Value)}
      {body g₁ g₂ cs g₃ g₄ more : List Char} (hkey : Body points body) (h₁ : Blank g₁) (h₂ : Blank g₂)
      (h : Spells depth (.value v) cs) (h₃ : Blank g₃) (h₄ : Blank g₄)
      (hmore : Spells depth (.members ms) more) :
      Spells depth (.members ((keyOfPoints points, v) :: ms))
        ('\x22' :: (body ++ '\x22' :: (g₁ ++ ':' :: (g₂ ++ (cs ++ (g₃ ++ ',' :: (g₄ ++ more)))))))

/-! ## How phrases begin -/

theorem eq_of_isJsonBlank {c : Char} (h : isJsonBlank c = true) :
    c = ' ' ∨ c = '\t' ∨ c = '\n' ∨ c = '\r' := by
  simpa [isJsonBlank, or_assoc] using h

/-- A character that begins a token: neither blank nor a closing bracket. -/
def Begins (c : Char) : Prop :=
  isJsonBlank c = false ∧ c ≠ ']' ∧ c ≠ '\x7d'

/-- A character that begins neither a string nor a list nor a map. -/
def IsPlain (c : Char) : Prop :=
  c ≠ '\x22' ∧ c ≠ '[' ∧ c ≠ '\x7b'

theorem begins_of_isAsciiDigit {c : Char} (h : Text.isAsciiDigit c = true) : Begins c ∧ IsPlain c := by
  have hne : ∀ d : Char, Text.isAsciiDigit d = false → c ≠ d := by
    rintro d hd rfl
    rw [h] at hd
    cases hd
  refine ⟨⟨?_, hne _ rfl, hne _ rfl⟩, hne _ rfl, hne _ rfl, hne _ rfl⟩
  by_contra hblank
  rw [Bool.not_eq_false] at hblank
  rcases eq_of_isJsonBlank hblank with rfl | rfl | rfl | rfl <;> cases h

theorem begins_of_mem_constants :
    ∀ p ∈ constants, ∃ c tail, p.1 = c :: tail ∧ Begins c ∧ IsPlain c := by
  simp only [constants, List.forall_mem_cons]
  refine ⟨⟨_, _, rfl, ?_⟩, ⟨_, _, rfl, ?_⟩, ⟨_, _, rfl, ?_⟩, ⟨_, _, rfl, ?_⟩, ⟨_, _, rfl, ?_⟩,
    ⟨_, _, rfl, ?_⟩, List.forall_mem_nil _⟩ <;> (unfold Begins IsPlain; decide)

theorem Number.exists_cons {v : Value} {cs : List Char} (h : Number v cs) :
    ∃ c tail, cs = c :: tail ∧ (Text.isAsciiDigit c = true ∨
      c = '-' ∧ ∃ d more, tail = d :: more ∧ Text.isAsciiDigit d = true) := by
  have hstart : ∀ (negative : Bool) {whole : List Char}, Whole whole → ∀ rest,
      ∃ c tail, signText negative ++ (whole ++ rest) = c :: tail ∧ (Text.isAsciiDigit c = true ∨
        c = '-' ∧ ∃ d more, tail = d :: more ∧ Text.isAsciiDigit d = true) := by
    intro negative whole hwhole rest
    obtain ⟨d, ds, rfl, hdigits⟩ := hwhole.exists_cons
    have hd := hdigits d List.mem_cons_self
    cases negative with
    | true => exact ⟨'-', _, rfl, .inr ⟨rfl, d, _, rfl, hd⟩⟩
    | false => exact ⟨d, _, rfl, .inl hd⟩
  cases h with
  | int negative hwhole =>
    have h := hstart negative hwhole []
    rwa [List.append_nil] at h
  | float negative hwhole => exact hstart negative hwhole _

theorem Number.begins {v : Value} {cs : List Char} (h : Number v cs) :
    ∃ c tail, cs = c :: tail ∧ Begins c ∧ IsPlain c := by
  obtain ⟨c, tail, rfl, hc | ⟨rfl, -⟩⟩ := h.exists_cons
  · exact ⟨c, tail, rfl, begins_of_isAsciiDigit hc⟩
  · exact ⟨'-', tail, rfl, by unfold Begins IsPlain; decide⟩

theorem Spells.begins {depth : Nat} {phrase : Phrase} {cs : List Char} (h : Spells depth phrase cs) :
    ∃ c tail, cs = c :: tail ∧ Begins c := by
  induction h with
  | word h =>
    obtain ⟨c, tail, hword, hc, -⟩ := begins_of_mem_constants _ h
    exact ⟨c, tail, hword, hc⟩
  | number h =>
    obtain ⟨c, tail, rfl, hc, -⟩ := h.begins
    exact ⟨c, tail, rfl, hc⟩
  | lastItem _ _ ih | item _ _ _ _ ih _ =>
    obtain ⟨c, tail, rfl, hc⟩ := ih
    exact ⟨c, _, rfl, hc⟩
  | _ => exact ⟨_, _, rfl, by unfold Begins; decide⟩

/-! ## What the reader does with them -/

theorem skipBlanks_append {gap : List Char} (hgap : Blank gap) {c : Char}
    (hc : isJsonBlank c = false) (rest : List Char) : skipBlanks (gap ++ c :: rest) = c :: rest :=
  Text.dropWhile_append hgap fun _ hd => Option.some.inj hd ▸ hc

theorem follows_append {gap : List Char} (hgap : Blank gap) {c : Char}
    (hc : c = ',' ∨ c = ']' ∨ c = '\x7d') (rest : List Char) : Follows (gap ++ c :: rest) := by
  intro d hd
  cases gap with
  | nil =>
    obtain rfl : c = d := Option.some.inj hd
    rcases hc with rfl | rfl | rfl <;> decide
  | cons b gap =>
    obtain rfl : b = d := Option.some.inj hd
    rcases eq_of_isJsonBlank (hgap b List.mem_cons_self) with rfl | rfl | rfl | rfl <;> decide

theorem readScalar_word {word : List Char} {v : Value} (h : (word, v) ∈ constants) (rest : List Char) :
    readScalar (word ++ rest) = .ok (v, rest) := by
  simp only [constants, List.mem_cons, Prod.mk.injEq, List.not_mem_nil, or_false] at h
  rcases h with ⟨rfl, rfl⟩ | ⟨rfl, rfl⟩ | ⟨rfl, rfl⟩ | ⟨rfl, rfl⟩ | ⟨rfl, rfl⟩ | ⟨rfl, rfl⟩ <;> rfl

theorem after?_of_ne {p c : Char} (h : p ≠ c) (ps cs : List Char) : after? (p :: ps) (c :: cs) = none := by
  rw [after?, if_neg (by simpa using h)]

/-- No word begins as a number does. -/
theorem after?_number {v : Value} {cs : List Char} (h : Number v cs) (rest : List Char) :
    ∀ p ∈ constants, after? p.1 (cs ++ rest) = none := by
  obtain ⟨c, tail, rfl, hc⟩ := h.exists_cons
  have hfirst : ∀ p : Char, p ≠ '-' → Text.isAsciiDigit p = false → p ≠ c := by
    rintro p hminus hdigit rfl
    rcases hc with hc | ⟨hc, -⟩
    · rw [hc] at hdigit
      cases hdigit
    · exact hminus hc
  have hsecond : after? "-Infinity".toList (c :: tail ++ rest) = none := by
    rcases hc with hc | ⟨rfl, d, more, rfl, hd⟩
    · refine after?_of_ne ?_ _ _
      rintro rfl
      cases hc
    · -- a digit comes after the sign
      refine after?_of_ne (p := 'I') ?_ _ _
      rintro rfl
      cases hd
  simp only [constants, List.forall_mem_cons]
  exact ⟨after?_of_ne (hfirst 'n' (by decide) rfl) _ _, after?_of_ne (hfirst 't' (by decide) rfl) _ _,
    after?_of_ne (hfirst 'f' (by decide) rfl) _ _, after?_of_ne (hfirst 'N' (by decide) rfl) _ _,
    after?_of_ne (hfirst 'I' (by decide) rfl) _ _, hsecond, List.forall_mem_nil _⟩

theorem readScalar_number {v : Value} {cs : List Char} (h : Number v cs) {rest : List Char}
    (hrest : Follows rest) : readScalar (cs ++ rest) = .ok (v, rest) := by
  have hnone : constants.findSome? (fun p => (after? p.1 (cs ++ rest)).map (p.2, ·)) = none := by
    rw [List.findSome?_eq_none_iff]
    intro p hp
    exact Option.map_eq_none_iff.mpr (after?_number h rest p hp)
  unfold readScalar
  split
  · rename_i found hfound
    cases hfound.symm.trans hnone
  · exact readNumber_append h hrest

theorem readValue_plain {c : Char} (hc : IsPlain c) (depth fuel : Nat) (rest : List Char) :
    readValue depth (fuel + 1) (c :: rest) = readScalar (c :: rest) := by
  obtain ⟨hquote, hlist, hmap⟩ := hc
  unfold readValue
  rw [if_neg (by simpa using hquote), if_neg (by simpa using hlist), if_neg (by simpa using hmap)]

/-- The reader gives a phrase back that is spelled by some text, after what it has read before. -/
def Reads (depth : Nat) : Phrase → List Char → Prop
  | .value v, cs => ∀ fuel rest, 2 * cs.length ≤ fuel → Follows rest →
    readValue depth fuel (cs ++ rest) = .ok (v, rest)
  | .items vs, cs => ∀ fuel before rest, 2 * cs.length < fuel →
    readItems depth fuel before (cs ++ rest) = .ok (.list (before.reverse ++ vs), rest)
  | .members ms, cs => ∀ fuel before rest, 2 * cs.length < fuel →
    readMembers depth fuel before (cs ++ rest) =
      .ok (.map (Members.ofPairs (before.reverse ++ ms)), rest)

theorem readValue_string {points : List Nat} {body : List Char} (h : Body points body)
    (depth fuel : Nat) (rest : List Char) :
    readValue depth (fuel + 1) ('\x22' :: (body ++ '\x22' :: rest)) = .ok (ofPoints points, rest) := by
  have hread : readString ((body ++ '\x22' :: rest).length + 1) [] (body ++ '\x22' :: rest) =
      .ok (points, rest) :=
    readString_body h rest (by rw [List.length_append]; omega) []
  unfold readValue
  rw [if_pos (by decide), hread]
  rfl

theorem readItems_last {depth fuel : Nat} {v : Value} {cs gap rest : List Char}
    (hv : readValue depth fuel cs = .ok (v, gap ++ ']' :: rest)) (hgap : Blank gap)
    (before : List Value) :
    readItems depth (fuel + 1) before cs = .ok (.list (before.reverse ++ [v]), rest) := by
  unfold readItems
  rw [hv]
  dsimp only [bind, Except.bind]
  rw [skipBlanks_append hgap (by decide), List.reverse_cons]
  rfl

theorem readItems_next {depth fuel : Nat} {v : Value} {cs gap gap' rest : List Char} {c : Char}
    (hv : readValue depth fuel cs = .ok (v, gap ++ ',' :: (gap' ++ c :: rest))) (hgap : Blank gap)
    (hgap' : Blank gap') (hc : isJsonBlank c = false) (before : List Value) :
    readItems depth (fuel + 1) before cs = readItems depth fuel (v :: before) (c :: rest) := by
  conv_lhs => unfold readItems
  rw [hv]
  dsimp only [bind, Except.bind]
  rw [skipBlanks_append hgap (by decide)]
  change readItems depth fuel (v :: before) (skipBlanks (gap' ++ c :: rest)) = _
  rw [skipBlanks_append hgap' hc]

/-- A member is read up to its value, and then what stands behind that decides. -/
theorem readMembers_key {points : List Nat} {body g₁ g₂ cs : List Char} {c : Char}
    (hkey : Body points body) (h₁ : Blank g₁) (h₂ : Blank g₂) (hc : isJsonBlank c = false)
    (depth fuel : Nat) (before : List (String × Value)) :
    readMembers depth (fuel + 1) before
        ('\x22' :: (body ++ '\x22' :: (g₁ ++ ':' :: (g₂ ++ c :: cs)))) = (do
      let (v, rest) ← readValue depth fuel (c :: cs)
      match skipBlanks rest with
      | '\x7d' :: rest =>
        return (.map (Members.ofPairs ((keyOfPoints points, v) :: before).reverse), rest)
      | ',' :: rest => readMembers depth fuel ((keyOfPoints points, v) :: before) (skipBlanks rest)
      | _ => .error .expectingComma) := by
  generalize hrest : g₁ ++ ':' :: (g₂ ++ c :: cs) = rest
  have hread : readString ((body ++ '\x22' :: rest).length + 1) [] (body ++ '\x22' :: rest) =
      .ok (points, rest) :=
    readString_body hkey rest (by rw [List.length_append]; omega) []
  conv_lhs => unfold readMembers
  split
  · rename_i behind heq
    obtain rfl : body ++ '\x22' :: rest = behind := (List.cons.inj heq).2
    rw [hread, ← hrest]
    dsimp only [bind, Except.bind]
    rw [skipBlanks_append h₁ (by decide)]
    split
    · rename_i behind heq
      obtain rfl : g₂ ++ c :: cs = behind := (List.cons.inj heq).2
      rewrite [skipBlanks_append h₂ hc]
      rfl
    · rename_i hcolon
      exact absurd rfl (hcolon _)
  · rename_i hquote
    exact absurd rfl (hquote _)

theorem readMembers_last {points : List Nat} {body g₁ g₂ cs g₃ rest : List Char} {c : Char}
    (hkey : Body points body) (h₁ : Blank g₁) (h₂ : Blank g₂) (hc : isJsonBlank c = false)
    {depth fuel : Nat} {v : Value}
    (hv : readValue depth fuel (c :: cs) = .ok (v, g₃ ++ '\x7d' :: rest)) (h₃ : Blank g₃)
    (before : List (String × Value)) :
    readMembers depth (fuel + 1) before
        ('\x22' :: (body ++ '\x22' :: (g₁ ++ ':' :: (g₂ ++ c :: cs)))) =
      .ok (.map (Members.ofPairs (before.reverse ++ [(keyOfPoints points, v)])), rest) := by
  rw [readMembers_key hkey h₁ h₂ hc, hv]
  dsimp only [bind, Except.bind]
  rw [skipBlanks_append h₃ (by decide), List.reverse_cons]
  rfl

theorem readMembers_next {points : List Nat} {body g₁ g₂ cs g₃ g₄ rest : List Char} {c d : Char}
    (hkey : Body points body) (h₁ : Blank g₁) (h₂ : Blank g₂) (hc : isJsonBlank c = false)
    {depth fuel : Nat} {v : Value}
    (hv : readValue depth fuel (c :: cs) = .ok (v, g₃ ++ ',' :: (g₄ ++ d :: rest)))
    (h₃ : Blank g₃) (h₄ : Blank g₄) (hd : isJsonBlank d = false) (before : List (String × Value)) :
    readMembers depth (fuel + 1) before
        ('\x22' :: (body ++ '\x22' :: (g₁ ++ ':' :: (g₂ ++ c :: cs)))) =
      readMembers depth fuel ((keyOfPoints points, v) :: before) (d :: rest) := by
  rw [readMembers_key hkey h₁ h₂ hc, hv]
  dsimp only [bind, Except.bind]
  rw [skipBlanks_append h₃ (by decide)]
  change readMembers depth fuel _ (skipBlanks (g₄ ++ d :: rest)) = _
  rw [skipBlanks_append h₄ hd]

theorem readValue_list {gap cs : List Char} {c : Char} (hgap : Blank gap) (hc : Begins c)
    (depth fuel : Nat) :
    readValue (depth + 1) (fuel + 1) ('[' :: (gap ++ c :: cs)) = readItems depth fuel [] (c :: cs) := by
  conv_lhs => unfold readValue
  rw [if_neg (by decide), if_pos (by decide)]
  dsimp only
  rw [skipBlanks_append hgap hc.1]
  split
  · exact absurd (List.cons.inj ‹_›).1 hc.2.1
  · rfl

theorem readValue_map {gap cs : List Char} {c : Char} (hgap : Blank gap) (hc : Begins c)
    (depth fuel : Nat) :
    readValue (depth + 1) (fuel + 1) ('\x7b' :: (gap ++ c :: cs)) =
      readMembers depth fuel [] (c :: cs) := by
  conv_lhs => unfold readValue
  rw [if_neg (by decide), if_neg (by decide), if_pos (by decide)]
  dsimp only
  rw [skipBlanks_append hgap hc.1]
  split
  · exact absurd (List.cons.inj ‹_›).1 hc.2.2
  · rfl

theorem readValue_emptyList {gap : List Char} (hgap : Blank gap) (depth fuel : Nat)
    (rest : List Char) :
    readValue (depth + 1) (fuel + 1) ('[' :: (gap ++ ']' :: rest)) = .ok (.list [], rest) := by
  unfold readValue
  rw [if_neg (by decide), if_pos (by decide)]
  dsimp only
  rw [skipBlanks_append hgap (by decide)]
  rfl

theorem readValue_emptyMap {gap : List Char} (hgap : Blank gap) (depth fuel : Nat)
    (rest : List Char) :
    readValue (depth + 1) (fuel + 1) ('\x7b' :: (gap ++ '\x7d' :: rest)) = .ok (.map [], rest) := by
  unfold readValue
  rw [if_neg (by decide), if_neg (by decide), if_pos (by decide)]
  dsimp only
  rw [skipBlanks_append hgap (by decide)]
  rfl

theorem exists_succ {n fuel : Nat} (h : 2 * (n + 1) ≤ fuel) : ∃ f, fuel = f + 1 ∧ 2 * n < f :=
  ⟨fuel - 1, by omega, by omega⟩

section

variable {depth : Nat} {v : Value} {vs : List Value} {ms : List (String × Value)}
  {gap gap' cs more : List Char}

theorem Reads.list (hgap : Blank gap) (h : Spells depth (.items vs) cs) (ih : Reads depth (.items vs) cs) :
    Reads (depth + 1) (.value (.list vs)) ('[' :: (gap ++ cs)) := by
  intro fuel rest hfuel _
  obtain ⟨fuel, rfl, hless⟩ := exists_succ hfuel
  obtain ⟨c, tail, rfl, hc⟩ := h.begins
  rw [List.length_append] at hless
  rw [List.cons_append, List.append_assoc]
  exact (readValue_list hgap hc _ _).trans (ih fuel [] rest (by omega))

theorem Reads.map (hgap : Blank gap) (h : Spells depth (.members ms) cs)
    (ih : Reads depth (.members ms) cs) :
    Reads (depth + 1) (.value (.map (Members.ofPairs ms))) ('\x7b' :: (gap ++ cs)) := by
  intro fuel rest hfuel _
  obtain ⟨fuel, rfl, hless⟩ := exists_succ hfuel
  obtain ⟨c, tail, rfl, hc⟩ := h.begins
  rw [List.length_append] at hless
  rw [List.cons_append, List.append_assoc]
  exact (readValue_map hgap hc _ _).trans (ih fuel [] rest (by omega))

theorem Reads.item (hgap : Blank gap) (hgap' : Blank gap') (hmore : Spells depth (.items vs) more)
    (ih : Reads depth (.value v) cs) (ihmore : Reads depth (.items vs) more) :
    Reads depth (.items (v :: vs)) (cs ++ (gap ++ ',' :: (gap' ++ more))) := by
  intro fuel before rest hfuel
  obtain ⟨fuel, rfl⟩ : ∃ f, fuel = f + 1 := ⟨fuel - 1, by omega⟩
  obtain ⟨c, tail, rfl, hc, -⟩ := hmore.begins
  simp only [List.length_append, List.length_cons] at hfuel
  have hv := ih fuel (gap ++ ',' :: (gap' ++ c :: (tail ++ rest))) (by omega)
    (follows_append hgap (by decide) _)
  have hnext := ihmore fuel (v :: before) rest (by simp only [List.length_cons]; omega)
  rw [List.reverse_cons, List.append_assoc] at hnext
  rw [List.append_assoc, List.append_assoc, List.cons_append, List.append_assoc]
  exact (readItems_next hv hgap hgap' hc before).trans hnext

variable {points : List Nat} {body g₁ g₂ g₃ g₄ : List Char}

theorem Reads.lastMember (hkey : Body points body) (h₁ : Blank g₁) (h₂ : Blank g₂)
    (h : Spells depth (.value v) cs) (h₃ : Blank g₃) (ih : Reads depth (.value v) cs) :
    Reads depth (.members [(keyOfPoints points, v)])
      ('\x22' :: (body ++ '\x22' :: (g₁ ++ ':' :: (g₂ ++ (cs ++ (g₃ ++ ['\x7d'])))))) := by
  intro fuel before rest hfuel
  obtain ⟨fuel, rfl⟩ : ∃ f, fuel = f + 1 := ⟨fuel - 1, by omega⟩
  obtain ⟨c, tail, rfl, hc, -⟩ := h.begins
  simp only [List.length_append, List.length_cons] at hfuel
  have hv := ih fuel (g₃ ++ '\x7d' :: rest) (by simp only [List.length_cons]; omega)
    (follows_append h₃ (by decide) _)
  simp only [List.cons_append, List.append_assoc, List.nil_append]
  exact readMembers_last hkey h₁ h₂ hc hv h₃ before

theorem Reads.member (hkey : Body points body) (h₁ : Blank g₁) (h₂ : Blank g₂)
    (h : Spells depth (.value v) cs) (h₃ : Blank g₃) (h₄ : Blank g₄)
    (hmore : Spells depth (.members ms) more) (ih : Reads depth (.value v) cs)
    (ihmore : Reads depth (.members ms) more) :
    Reads depth (.members ((keyOfPoints points, v) :: ms))
      ('\x22' :: (body ++ '\x22' :: (g₁ ++ ':' :: (g₂ ++ (cs ++ (g₃ ++ ',' :: (g₄ ++ more))))))) := by
  intro fuel before rest hfuel
  obtain ⟨fuel, rfl⟩ : ∃ f, fuel = f + 1 := ⟨fuel - 1, by omega⟩
  obtain ⟨c, tail, rfl, hc, -⟩ := h.begins
  obtain ⟨d, more, rfl, hd, -⟩ := hmore.begins
  simp only [List.length_append, List.length_cons] at hfuel
  have hv := ih fuel (g₃ ++ ',' :: (g₄ ++ d :: (more ++ rest)))
    (by simp only [List.length_cons]; omega) (follows_append h₃ (by decide) _)
  have hnext := ihmore fuel ((keyOfPoints points, v) :: before) rest
    (by simp only [List.length_cons]; omega)
  rw [List.reverse_cons, List.append_assoc] at hnext
  simp only [List.cons_append, List.append_assoc]
  exact (readMembers_next hkey h₁ h₂ hc hv h₃ h₄ hd before).trans hnext

end

/-- By induction on the grammar.  A bracket takes two of the fuel, one for its value and one for what is
in it, so that twice the length of the text is enough. -/
theorem reads_of_spells {depth : Nat} {phrase : Phrase} {cs : List Char} (h : Spells depth phrase cs) :
    Reads depth phrase cs := by
  induction h with
  | string h =>
    intro fuel rest hfuel _
    obtain ⟨fuel, rfl, -⟩ := exists_succ hfuel
    rw [List.cons_append, List.append_assoc]
    exact readValue_string h _ fuel rest
  | @word depth word v h =>
    intro fuel rest hfuel _
    obtain ⟨c, tail, hword, -, hc⟩ := begins_of_mem_constants _ h
    dsimp only at hword
    subst hword
    obtain ⟨fuel, rfl, -⟩ := exists_succ hfuel
    exact (readValue_plain hc depth fuel (tail ++ rest)).trans (readScalar_word h rest)
  | @number depth v cs h =>
    intro fuel rest hfuel hrest
    obtain ⟨c, tail, rfl, -, hc⟩ := h.begins
    obtain ⟨fuel, rfl, -⟩ := exists_succ hfuel
    exact (readValue_plain hc depth fuel (tail ++ rest)).trans (readScalar_number h hrest)
  | emptyList hgap =>
    intro fuel rest hfuel _
    obtain ⟨fuel, rfl, -⟩ := exists_succ hfuel
    rw [List.cons_append, List.append_assoc]
    exact readValue_emptyList hgap _ fuel rest
  | emptyMap hgap =>
    intro fuel rest hfuel _
    obtain ⟨fuel, rfl, -⟩ := exists_succ hfuel
    rw [List.cons_append, List.append_assoc]
    exact readValue_emptyMap hgap _ fuel rest
  | list hgap h ih => exact .list hgap h ih
  | map hgap h ih => exact .map hgap h ih
  | lastItem h hgap ih =>
    intro fuel before rest hfuel
    obtain ⟨fuel, rfl⟩ : ∃ f, fuel = f + 1 := ⟨fuel - 1, by omega⟩
    rw [List.length_append] at hfuel
    rw [List.append_assoc, List.append_assoc]
    exact readItems_last (ih fuel _ (by omega) (follows_append hgap (by decide) _)) hgap before
  | item h hgap hgap' hmore ih ihmore => exact .item hgap hgap' hmore ih ihmore
  | lastMember hkey h₁ h₂ h h₃ ih => exact .lastMember hkey h₁ h₂ h h₃ ih
  | member hkey h₁ h₂ h h₃ h₄ hmore ih ihmore => exact .member hkey h₁ h₂ h h₃ h₄ hmore ih ihmore

/-! ## Whole texts -/

/-- How a phrase that ends in a brace ends, and how a map begins. -/
def IsBraced : Phrase → List Char → Prop
  | .value (.map _), cs => ['\x7b'] <+: cs ∧ ['\x7d'] <:+ cs
  | .members _, cs => ['\x7d'] <:+ cs
  | _, _ => True

theorem Spells.isBraced {depth : Nat} {phrase : Phrase} {cs : List Char} (h : Spells depth phrase cs) :
    IsBraced phrase cs := by
  induction h with
  | string h =>
    unfold ofPoints
    split <;> trivial
  | word h =>
    simp only [constants, List.mem_cons, Prod.mk.injEq, List.not_mem_nil, or_false] at h
    rcases h with ⟨-, rfl⟩ | ⟨-, rfl⟩ | ⟨-, rfl⟩ | ⟨-, rfl⟩ | ⟨-, rfl⟩ | ⟨-, rfl⟩ <;> trivial
  | number h => cases h <;> trivial
  | @emptyMap _ gap => exact ⟨⟨_, rfl⟩, '\x7b' :: gap, rfl⟩
  | @map _ gap _ _ _ _ ih =>
    obtain ⟨start, rfl⟩ := ih
    exact ⟨⟨_, rfl⟩, '\x7b' :: (gap ++ start), by rw [List.cons_append, List.append_assoc]⟩
  | @lastMember _ _ _ body g₁ g₂ cs g₃ =>
    exact ⟨'\x22' :: (body ++ '\x22' :: (g₁ ++ ':' :: (g₂ ++ (cs ++ g₃)))), by
      simp only [List.cons_append, List.append_assoc]⟩
  | @member _ _ _ _ body g₁ g₂ cs g₃ g₄ _ _ _ _ _ _ _ _ _ ih =>
    obtain ⟨start, rfl⟩ := ih
    exact ⟨'\x22' :: (body ++ '\x22' :: (g₁ ++ ':' :: (g₂ ++ (cs ++ (g₃ ++ ',' :: (g₄ ++ start)))))), by
      simp only [List.cons_append, List.append_assoc]⟩
  | _ => trivial

theorem isBlank_of_blank {cs : List Char} (h : Blank cs) : ∀ c ∈ cs, Text.isBlank c = true := by
  intro c hc
  rcases eq_of_isJsonBlank (h c hc) with rfl | rfl | rfl | rfl <;> decide

/-- A character that may stand in a string as it is. -/
def IsUnescaped (c : Char) : Prop :=
  0x20 ≤ c.toNat ∧ c ≠ '\x22' ∧ c ≠ '\\'

instance (c : Char) : Decidable (IsUnescaped c) :=
  inferInstanceAs (Decidable (_ ∧ _ ∧ _))

-- decided for the characters of the list, where `decide` would go through all characters there are
theorem forall_isUnescaped {cs : List Char} (h : cs.all (fun c => decide (IsUnescaped c)) = true) :
    ∀ c ∈ cs, IsUnescaped c :=
  fun c hc => of_decide_eq_true (List.all_eq_true.mp h c hc)

theorem Body.of_unescaped {cs : List Char} (h : ∀ c ∈ cs, IsUnescaped c) :
    Body (cs.map Char.toNat) cs := by
  induction cs with
  | nil => exact .nil
  | cons c cs ih =>
    rw [List.forall_mem_cons] at h
    obtain ⟨⟨hcontrol, hquote, hescape⟩, hcs⟩ := h
    exact .plain hcontrol hquote hescape (ih hcs)

theorem isSurrogate_toNat (c : Char) : isSurrogate c.toNat = false := by
  have hvalid : c.toNat < 0xD800 ∨ 0xDFFF < c.toNat ∧ c.toNat < 0x110000 := c.valid
  simp only [isSurrogate, Bool.and_eq_false_iff, decide_eq_false_iff_not]
  omega

theorem ofPoints_toNat (cs : List Char) : ofPoints (cs.map Char.toNat) = .text (String.ofList cs) := by
  have hnone : (cs.map Char.toNat).any isSurrogate = false := by
    rw [List.any_map, List.any_eq_false]
    intro c _
    exact ne_true_of_eq_false (isSurrogate_toNat c)
  rw [ofPoints, hnone, List.map_map]
  simp only [Function.comp_def, Char.ofNat_toNat, List.map_id', Bool.false_eq_true, if_false]

theorem keyOfPoints_toNat (cs : List Char) : keyOfPoints (cs.map Char.toNat) = String.ofList cs := by
  rw [keyOfPoints, Writing.legible, List.map_map]
  simp only [Function.comp_def, isSurrogate_toNat, Char.ofNat_toNat, List.map_id',
    Bool.false_eq_true, if_false]

theorem Spells.text {depth : Nat} {cs : List Char} (h : ∀ c ∈ cs, IsUnescaped c) :
    Spells depth (.value (.text (String.ofList cs))) ('\x22' :: (cs ++ ['\x22'])) := by
  rw [← ofPoints_toNat]
  exact .string (.of_unescaped h)

/-- A map that is spelled is read as a whole text. -/
theorem ofJson?_of_spells {depth : Nat} {ms : List (String × Value)} {cs : List Char}
    (h : Spells depth (.value (.map ms)) cs) : ofJson? (String.ofList cs) depth = .ok (.map ms) := by
  obtain ⟨⟨tail, rfl⟩, -⟩ := h.isBraced
  rw [List.singleton_append] at h ⊢
  have hskip : skipBlanks ('\x7b' :: tail) = '\x7b' :: tail := rfl
  have hread := reads_of_spells h (2 * ('\x7b' :: tail).length + 2) [] (by omega) (by nofun)
  rw [List.append_nil] at hread
  unfold ofJson?
  dsimp only
  rw [String.toList_ofList, hskip, hread]
  rfl

end CodeIndex.Value
