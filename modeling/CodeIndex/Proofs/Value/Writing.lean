import CodeIndex.Proofs.Value.Grammar
import CodeIndex.Proofs.Value.Limits
import CodeIndex.Value.Json

/-!
# What is written is read

A value that is written on one line spells itself, so that it is read back.  The exceptions are numbers
that are not integers, integers of more digits than are converted, and what is not nested or keyed as a
value that was read would be.  The writer needs no more than printable ASCII: every other character is
escaped, by one unit of sixteen bits or by a pair of them.
-/

namespace CodeIndex.Value

open Text (hexDigits isAsciiDigit)

/-! ## Digits -/

/-- A character that a line of ASCII may have. -/
def IsPrintable (c : Char) : Prop :=
  0x20 ≤ c.toNat ∧ c.toNat ≤ 0x7E

instance (c : Char) : Decidable (IsPrintable c) :=
  inferInstanceAs (Decidable (_ ∧ _))

-- decided for the characters of the list, where `decide` would go through all characters there are
theorem forall_isPrintable {cs : List Char} (h : cs.all (fun c => decide (IsPrintable c)) = true) :
    ∀ c ∈ cs, IsPrintable c :=
  fun c hc => of_decide_eq_true (List.all_eq_true.mp h c hc)

theorem hexValue?_digitChar : ∀ d < 16, hexValue? d.digitChar = some d := by
  decide

theorem isPrintable_digitChar : ∀ d < 16, IsPrintable d.digitChar := by
  decide

theorem hexDigits_one {n : Nat} (h : n < 16) : hexDigits 1 n = [n.digitChar] := by
  rw [hexDigits, Nat.toDigits_of_lt_base h]
  rfl

/-- The digits of a number are those of its sixteenth part, and one more. -/
theorem hexDigits_succ (width n : Nat) :
    hexDigits (width + 2) n = hexDigits (width + 1) (n / 16) ++ [(n % 16).digitChar] := by
  unfold hexDigits
  by_cases hsmall : n < 16
  · rw [Nat.toDigits_of_lt_base hsmall, Nat.div_eq_of_lt hsmall, Nat.mod_eq_of_lt hsmall]
    show List.replicate (width + 1) '0' ++ _ = (List.replicate width '0' ++ ['0']) ++ _
    rw [← List.replicate_succ']
  · rw [Nat.toDigits_of_base_le (by decide) (Nat.le_of_not_lt hsmall), ← List.append_assoc]
    have hwidth : ∀ length : Nat, width + 2 - (length + 1) = width + 1 - length := by omega
    simp only [List.length_append, List.length_singleton, hwidth]

theorem hexDigits_four {n : Nat} (h : n < 0x10000) :
    hexDigits 4 n = [(n / 4096).digitChar, (n / 256 % 16).digitChar, (n / 16 % 16).digitChar,
      (n % 16).digitChar] := by
  rw [hexDigits_succ, hexDigits_succ, hexDigits_succ, hexDigits_one (by omega)]
  simp only [Nat.div_div_eq_div_mul]
  rfl

/-- Four digits are written, and they are those of the number. -/
theorem exists_hexDigits {n : Nat} (h : n < 0x10000) :
    ∃ a b c d, hexDigits 4 n = [a, b, c, d] ∧ hex4? a b c d = some n := by
  refine ⟨_, _, _, _, hexDigits_four h, ?_⟩
  unfold hex4?
  rw [hexValue?_digitChar _ (by omega), hexValue?_digitChar _ (by omega),
    hexValue?_digitChar _ (by omega), hexValue?_digitChar _ (by omega)]
  show some _ = some n
  congr 1
  omega

theorem isPrintable_hexDigits {n : Nat} (h : n < 0x10000) : ∀ c ∈ hexDigits 4 n, IsPrintable c := by
  rw [hexDigits_four h]
  simp only [List.forall_mem_cons]
  exact ⟨isPrintable_digitChar _ (by omega), isPrintable_digitChar _ (by omega),
    isPrintable_digitChar _ (by omega), isPrintable_digitChar _ (by omega), List.forall_mem_nil _⟩

theorem isAsciiDigit_of_isDigit {c : Char} (h : c.isDigit = true) : isAsciiDigit c = true := by
  rw [Char.isDigit, Bool.and_eq_true, decide_eq_true_eq, decide_eq_true_eq] at h
  rw [isAsciiDigit, Bool.and_eq_true, decide_eq_true_eq, decide_eq_true_eq]
  exact h

theorem isAsciiDigit_toDigits {n : Nat} : ∀ c ∈ Nat.toDigits 10 n, isAsciiDigit c = true :=
  fun _ hc => isAsciiDigit_of_isDigit (Nat.isDigit_of_mem_toDigits (by decide) (by decide) hc)

/-- The digits of a number that is not zero do not begin with one. -/
theorem exists_toDigits {n : Nat} (h : n ≠ 0) : ∃ c cs, Nat.toDigits 10 n = c :: cs ∧ c ≠ '0' := by
  induction n using Nat.strongRecOn with
  | ind n ih =>
    by_cases hsmall : n < 10
    · exact ⟨_, [], Nat.toDigits_of_lt_base hsmall, mt Nat.digitChar_eq_zero.mp h⟩
    · obtain ⟨c, cs, hdigits, hc⟩ := ih (n / 10) (by omega) (by omega)
      refine ⟨c, cs ++ [(n % 10).digitChar], ?_, hc⟩
      rw [Nat.toDigits_of_base_le (by decide) (Nat.le_of_not_lt hsmall), hdigits]
      rfl

theorem whole_toDigits (n : Nat) : Whole (Nat.toDigits 10 n) := by
  by_cases hzero : n = 0
  · subst hzero
    exact .zero
  · obtain ⟨c, cs, hdigits, hc⟩ := exists_toDigits hzero
    rw [hdigits]
    refine .digits hc ?_
    rw [← hdigits]
    exact isAsciiDigit_toDigits

theorem natOfDigits_toDigits (n : Nat) : Decimal.natOfDigits (Nat.toDigits 10 n) = n :=
  Nat.ofDigitChars_ten_toDigits

theorem toList_toString_int (n : Int) :
    (toString n).toList = signText (decide (n < 0)) ++ Nat.toDigits 10 n.natAbs := by
  cases n with
  | ofNat n =>
    show (Nat.repr n).toList = _
    rw [Nat.repr_eq_ofList_toDigits, String.toList_ofList]
    rfl
  | negSucc n =>
    show ("-" ++ Nat.repr (n + 1)).toList = _
    rw [String.toList_append, Nat.repr_eq_ofList_toDigits, decide_eq_true (Int.negSucc_lt_zero n)]
    exact congrArg ('-' :: ·) (String.toList_ofList (l := Nat.toDigits 10 (n + 1)))

theorem isPrintable_of_isAsciiDigit {c : Char} (h : isAsciiDigit c = true) : IsPrintable c := by
  rw [isAsciiDigit, Bool.and_eq_true, decide_eq_true_eq, decide_eq_true_eq] at h
  obtain ⟨hleast, hgreatest⟩ := h
  have hleast : 48 ≤ c.toNat := hleast
  have hgreatest : c.toNat ≤ 57 := hgreatest
  exact ⟨by omega, by omega⟩

theorem isPrintable_toString (n : Int) : ∀ c ∈ (toString n).toList, IsPrintable c := by
  rw [toList_toString_int, List.forall_mem_append]
  constructor
  · cases decide (n < 0) with
    | true => exact List.forall_mem_singleton.mpr (by decide)
    | false => exact List.forall_mem_nil _
  · exact fun c hc => isPrintable_of_isAsciiDigit (isAsciiDigit_toDigits c hc)

theorem length_toDigits_le_digitLimit {n : Nat} (h : n < tooLong) :
    (Nat.toDigits 10 n).length ≤ digitLimit := by
  have hpos : 0 < digitLimit := by decide
  unfold tooLong at h
  generalize digitLimit = limit at h hpos ⊢
  exact (Nat.length_toDigits_le_iff (by decide) hpos).mpr h

/-- An integer is written as it is spelled, unless it is too long for that. -/
theorem number_toString {n : Int} (h : n.natAbs < tooLong) :
    Number (.int n) (toString n).toList := by
  have hnumber :=
    Number.int (decide (n < 0)) (whole_toDigits n.natAbs) (length_toDigits_le_digitLimit h)
  rw [natOfDigits_toDigits] at hnumber
  rw [toList_toString_int]
  have hn : (if decide (n < 0) = true then -(n.natAbs : Int) else n.natAbs) = n := by
    by_cases hneg : n < 0
    · rw [if_pos (decide_eq_true hneg)]
      omega
    · rw [if_neg (by simpa using hneg)]
      omega
  rwa [hn] at hnumber

/-! ## Strings -/

theorem body_unit {n : Nat} (h : n < 0x10000) {points : List Nat} {cs : List Char}
    (halone : isHigh n = true → NoLow cs) (hbody : Body points cs) :
    Body (n :: points) (unitEscape n ++ cs) := by
  obtain ⟨a, b, c, d, hdigits, hn⟩ := exists_hexDigits h
  rw [unitEscape, hdigits]
  exact .unit hn halone hbody

/-- A code point beyond sixteen bits is written as two units, which are read as one point. -/
theorem body_pair {n : Nat} (h : 0x10000 ≤ n) (hbound : n < 0x110000) {points : List Nat}
    {cs : List Char} (hbody : Body points cs) :
    Body (n :: points) (unitEscape (0xD800 + (n - 0x10000) / 0x400) ++
      (unitEscape (0xDC00 + (n - 0x10000) % 0x400) ++ cs)) := by
  obtain ⟨a, b, c, d, hdigits, hhigh⟩ :=
    exists_hexDigits (n := 0xD800 + (n - 0x10000) / 0x400) (by omega)
  obtain ⟨a', b', c', d', hdigits', hlow⟩ :=
    exists_hexDigits (n := 0xDC00 + (n - 0x10000) % 0x400) (by omega)
  have hpair := Body.pair hhigh (by simp only [isHigh, Bool.and_eq_true, decide_eq_true_eq]; omega)
    hlow (by simp only [isLow, Bool.and_eq_true, decide_eq_true_eq]; omega) hbody
  have hn : 0x10000 + (0xD800 + (n - 0x10000) / 0x400 - 0xD800) * 0x400 +
      (0xDC00 + (n - 0x10000) % 0x400 - 0xDC00) = n := by
    omega
  rw [hn] at hpair
  rw [unitEscape, unitEscape, hdigits, hdigits']
  exact hpair

/-- How a code point is written: as it is, by a letter, by one unit or by two. -/
theorem jsonPoint_cases (n : Nat) :
    (∃ c : Char, c.toNat = n ∧ IsPrintable c ∧ IsUnescaped c ∧ jsonPoint n = [c]) ∨
      (∃ e, shortEscape? e = some n ∧ IsPrintable e ∧ jsonPoint n = ['\\', e]) ∨
      (n < 0x10000 ∧ jsonPoint n = unitEscape n) ∨
      0x10000 ≤ n ∧ jsonPoint n =
        unitEscape (0xD800 + (n - 0x10000) / 0x400) ++ unitEscape (0xDC00 + (n - 0x10000) % 0x400) := by
  have hshort : ∀ (k : Nat) (e : Char), (n == k) = true → shortEscape? e = some k →
      IsPrintable e → ∃ e', shortEscape? e' = some n ∧ IsPrintable e' ∧ ['\\', e] = ['\\', e'] :=
    fun k e hn he hprintable => ⟨e, (beq_iff_eq.mp hn) ▸ he, hprintable, rfl⟩
  unfold jsonPoint
  split
  next h => exact .inr (.inl (hshort _ _ h rfl (by decide)))
  next hquote =>
  split
  next h => exact .inr (.inl (hshort _ _ h rfl (by decide)))
  next hescape =>
  split
  next h => exact .inr (.inl (hshort _ _ h rfl (by decide)))
  split
  next h => exact .inr (.inl (hshort _ _ h rfl (by decide)))
  split
  next h => exact .inr (.inl (hshort _ _ h rfl (by decide)))
  split
  next h => exact .inr (.inl (hshort _ _ h rfl (by decide)))
  split
  next h => exact .inr (.inl (hshort _ _ h rfl (by decide)))
  split
  next h =>
    rw [Bool.and_eq_true, decide_eq_true_eq, decide_eq_true_eq] at h
    have hn : (Char.ofNat n).toNat = n := by
      rw [Char.ofNat, dif_pos (.inl (by omega))]
      rfl
    have hprintable : IsPrintable (Char.ofNat n) := by
      rwa [IsPrintable, hn]
    refine .inl ⟨Char.ofNat n, hn, hprintable, ⟨hprintable.1, ?_, ?_⟩, rfl⟩
    · intro hc
      rw [hc] at hn
      exact hquote (beq_iff_eq.mpr hn.symm)
    · intro hc
      rw [hc] at hn
      exact hescape (beq_iff_eq.mpr hn.symm)
  split
  next h => exact .inr (.inr (.inl ⟨h, rfl⟩))
  next h => exact .inr (.inr (.inr ⟨Nat.le_of_not_lt h, rfl⟩))

/-- A code point is written so that it is read back, whatever follows it, unless it is a high surrogate and
a low one follows. -/
theorem body_jsonPoint {n : Nat} (hn : n < 0x110000) {points : List Nat} {cs : List Char}
    (halone : isHigh n = true → NoLow cs) (hbody : Body points cs) :
    Body (n :: points) (jsonPoint n ++ cs) := by
  rcases jsonPoint_cases n with ⟨c, rfl, -, ⟨hcontrol, hquote, hescape⟩, h⟩ | ⟨e, he, -, h⟩ |
    ⟨hunit, h⟩ | ⟨hpair, h⟩
  · rw [h]
    exact .plain hcontrol hquote hescape hbody
  · rw [h]
    exact .short he hbody
  · rw [h]
    exact body_unit hunit halone hbody
  · rw [h, List.append_assoc]
    exact body_pair hpair hn hbody

theorem noLow_unitEscape {n : Nat} (h : n < 0x10000) (hlow : isLow n = false) (cs : List Char) :
    NoLow (unitEscape n ++ cs) := by
  obtain ⟨a, b, c, d, hdigits, hn⟩ := exists_hexDigits h
  intro a' b' c' d' rest k hcs hk
  rw [unitEscape, hdigits] at hcs
  simp only [List.cons_append, List.nil_append, List.cons.injEq, true_and] at hcs
  obtain ⟨rfl, rfl, rfl, rfl, -⟩ := hcs
  obtain rfl := Option.some.inj (hn.symm.trans hk)
  exact hlow

/-- What is written for a code point is no escaped low surrogate, unless the code point is one. -/
theorem noLow_jsonPoint {n : Nat} (hn : n < 0x110000) (hlow : isLow n = false) (cs : List Char) :
    NoLow (jsonPoint n ++ cs) := by
  rcases jsonPoint_cases n with ⟨c, -, -, ⟨-, -, hescape⟩, h⟩ | ⟨e, he, -, h⟩ | ⟨hunit, h⟩ | ⟨hpair, h⟩
  · intro _ _ _ _ _ _ hcs _
    rw [h] at hcs
    exact absurd (List.cons.inj hcs).1 hescape
  · intro _ _ _ _ _ _ hcs _
    rw [h] at hcs
    obtain rfl := (List.cons.inj (List.cons.inj hcs).2).1
    cases he
  · rw [h]
    exact noLow_unitEscape hunit hlow cs
  · rw [h, List.append_assoc]
    refine noLow_unitEscape (by omega) ?_ _
    simp only [isLow, Bool.and_eq_false_iff, decide_eq_false_iff_not]
    omega

/-- Code points are read back as they are written, if no low surrogate stands right behind a high one. -/
theorem body_of_isParted {points : List Nat} (h : IsParted points) :
    Body points (points.flatMap jsonPoint) := by
  induction points with
  | nil => exact .nil
  | cons n rest ih =>
    obtain ⟨hn, hrest⟩ := List.forall_mem_cons.mp h.bound
    obtain ⟨hnext, hchain⟩ := List.isChain_cons.mp h.apart
    refine body_jsonPoint hn (fun hhigh => ?_) (ih ⟨hrest, hchain⟩)
    cases rest with
    | nil => exact fun _ _ _ _ _ _ hcs _ => by cases hcs
    | cons m more => exact noLow_jsonPoint (hrest m List.mem_cons_self) (hnext m rfl hhigh) _

theorem body_flatMap_jsonPoint (cs : List Char) :
    Body (cs.map Char.toNat) (cs.flatMap fun c => jsonPoint c.toNat) := by
  induction cs with
  | nil => exact .nil
  | cons c cs ih =>
    have hc := isSingle_toNat c
    refine body_jsonPoint hc.bound (fun hhigh => ?_) ih
    rw [hc.notHigh] at hhigh
    cases hhigh

theorem toList_jsonString (s : String) :
    (jsonString s).toList = '\x22' :: (s.toList.flatMap (fun c => jsonPoint c.toNat) ++ ['\x22']) := by
  rw [jsonString, String.toList_ofList]
  rfl

theorem spells_jsonString (depth : Nat) (s : String) :
    Spells depth (.value (.text s)) (jsonString s).toList := by
  have hspells : Spells depth _ _ := .string (body_flatMap_jsonPoint s.toList)
  rw [ofPoints_toNat, String.ofList_toList] at hspells
  rwa [toList_jsonString]

theorem isPrintable_unitEscape {n : Nat} (h : n < 0x10000) : ∀ c ∈ unitEscape n, IsPrintable c := by
  rw [unitEscape, List.forall_mem_cons, List.forall_mem_cons]
  exact ⟨by decide, by decide, isPrintable_hexDigits h⟩

theorem isPrintable_jsonPoint {n : Nat} (hn : n < 0x110000) : ∀ d ∈ jsonPoint n, IsPrintable d := by
  rcases jsonPoint_cases n with ⟨c, -, hprintable, -, h⟩ | ⟨e, -, hprintable, h⟩ | ⟨hunit, h⟩ | ⟨-, h⟩
  · rw [h, List.forall_mem_singleton]
    exact hprintable
  · rw [h, List.forall_mem_cons, List.forall_mem_singleton]
    exact ⟨by decide, hprintable⟩
  · rw [h]
    exact isPrintable_unitEscape hunit
  · rw [h, List.forall_mem_append]
    exact ⟨isPrintable_unitEscape (by omega), isPrintable_unitEscape (by omega)⟩

theorem isPrintable_jsonString (s : String) : ∀ c ∈ (jsonString s).toList, IsPrintable c := by
  rw [toList_jsonString, List.forall_mem_cons, List.forall_mem_append, List.forall_mem_singleton]
  refine ⟨by decide, ?_, by decide⟩
  intro d hd
  obtain ⟨c, -, hc⟩ := List.mem_flatMap.mp hd
  exact isPrintable_jsonPoint (isSingle_toNat c).bound d hc

/-- How a text without an encoding is written. -/
theorem toList_toJson_broken (points : List Nat) (layout : JsonLayout) (level : Nat) :
    ((Value.broken points).toJson layout level).toList =
      '\x22' :: (points.flatMap jsonPoint ++ ['\x22']) := by
  rw [toJson, String.toList_ofList]
  rfl

/-! ## Values on one line -/

/-- What is read back as it is written: nested no deeper than some bound, of the numbers only integers
that are not too long, of the texts that no encoding has only those that name surrogates, no low one right
behind a high one, and no key twice in a map. -/
inductive Writable : Nat → Phrase → Prop where
  | null {depth : Nat} : Writable depth (.value .null)
  | bool {depth : Nat} (b : Bool) : Writable depth (.value (.bool b))
  | int {depth : Nat} {n : Int} (h : n.natAbs < tooLong) : Writable depth (.value (.int n))
  | text {depth : Nat} (s : String) : Writable depth (.value (.text s))
  | broken {depth : Nat} {points : List Nat} (hsurrogate : points.any isSurrogate = true)
      (h : IsParted points) : Writable depth (.value (.broken points))
  | emptyList {depth : Nat} : Writable (depth + 1) (.value (.list []))
  | list {depth : Nat} {v : Value} {vs : List Value} (h : Writable depth (.items (v :: vs))) :
      Writable (depth + 1) (.value (.list (v :: vs)))
  | emptyMap {depth : Nat} : Writable (depth + 1) (.value (.map []))
  | map {depth : Nat} {m : String × Value} {ms : List (String × Value)}
      (hkeys : (Members.keys (m :: ms)).Nodup) (h : Writable depth (.members (m :: ms))) :
      Writable (depth + 1) (.value (.map (m :: ms)))
  | lastItem {depth : Nat} {v : Value} (h : Writable depth (.value v)) : Writable depth (.items [v])
  | item {depth : Nat} {v w : Value} {vs : List Value} (h : Writable depth (.value v))
      (hmore : Writable depth (.items (w :: vs))) : Writable depth (.items (v :: w :: vs))
  | lastMember {depth : Nat} {key : String} {v : Value} (h : Writable depth (.value v)) :
      Writable depth (.members [(key, v)])
  | member {depth : Nat} {key : String} {v : Value} {m : String × Value}
      {ms : List (String × Value)} (h : Writable depth (.value v))
      (hmore : Writable depth (.members (m :: ms))) : Writable depth (.members ((key, v) :: m :: ms))

theorem Writable.items_of_forall {depth : Nat} {v : Value} {vs : List Value}
    (h : ∀ w ∈ v :: vs, Writable depth (.value w)) : Writable depth (.items (v :: vs)) := by
  induction vs generalizing v with
  | nil => exact .lastItem (h v List.mem_cons_self)
  | cons w vs ih =>
    rw [List.forall_mem_cons] at h
    exact .item h.1 (ih h.2)

theorem Writable.members_of_forall {depth : Nat} {m : String × Value} {ms : List (String × Value)}
    (h : ∀ p ∈ m :: ms, Writable depth (.value p.2)) : Writable depth (.members (m :: ms)) := by
  induction ms generalizing m with
  | nil => exact .lastMember (h m List.mem_cons_self)
  | cons next ms ih =>
    rw [List.forall_mem_cons] at h
    exact .member h.1 (ih h.2)

theorem Writable.list_of_forall {depth : Nat} {vs : List Value}
    (h : ∀ v ∈ vs, Writable depth (.value v)) : Writable (depth + 1) (.value (.list vs)) := by
  cases vs with
  | nil => exact .emptyList
  | cons v vs => exact .list (.items_of_forall h)

/-- How a phrase is written on one line; items and members from the first on and with the closing
bracket. -/
def Phrase.written (level : Nat) : Phrase → List Char
  | .value v => (v.toJson {} level).toList
  | .items [] => [']']
  | .items (v :: vs) => (v.toJson {} level).toList ++ ((itemsToJson {} level vs).toList ++ [']'])
  | .members [] => ['\x7d']
  | .members ((key, v) :: ms) =>
    (jsonString key).toList ++ ':' :: ' ' :: ((v.toJson {} level).toList ++
      ((membersToJson {} level ms).toList ++ ['\x7d']))

theorem toList_marks :
    ", ".toList = [',', ' '] ∧ ": ".toList = [':', ' '] ∧ "[".toList = ['['] ∧ "]".toList = [']'] ∧
      "\x7b".toList = ['\x7b'] ∧ "\x7d".toList = ['\x7d'] := by
  decide

theorem breakLine_oneLine (level : Nat) : ({} : JsonLayout).breakLine level = "" := rfl

theorem written_emptyList (level : Nat) : Phrase.written level (.value (.list [])) = ['[', ']'] := by
  simp only [Phrase.written, toJson]
  decide

theorem written_emptyMap (level : Nat) :
    Phrase.written level (.value (.map [])) = ['\x7b', '\x7d'] := by
  simp only [Phrase.written, toJson]
  decide

theorem written_list (level : Nat) (v : Value) (vs : List Value) :
    Phrase.written level (.value (.list (v :: vs))) =
      '[' :: Phrase.written (level + 1) (.items (v :: vs)) := by
  simp only [Phrase.written, toJson, breakLine_oneLine, String.append_empty, String.toList_append,
    toList_marks, List.append_assoc, List.cons_append, List.nil_append]

theorem written_items (level : Nat) (v w : Value) (vs : List Value) :
    Phrase.written level (.items (v :: w :: vs)) =
      (v.toJson {} level).toList ++ ',' :: ' ' :: Phrase.written level (.items (w :: vs)) := by
  simp only [Phrase.written, itemsToJson, breakLine_oneLine, String.append_empty,
    String.toList_append, toList_marks, List.append_assoc, List.cons_append, List.nil_append]

theorem written_map (level : Nat) (m : String × Value) (ms : List (String × Value)) :
    Phrase.written level (.value (.map (m :: ms))) =
      '\x7b' :: Phrase.written (level + 1) (.members (m :: ms)) := by
  obtain ⟨key, v⟩ := m
  simp only [Phrase.written, toJson, breakLine_oneLine, String.append_empty, String.toList_append,
    toList_marks, List.append_assoc, List.cons_append, List.nil_append]

theorem written_lastMember (level : Nat) (key : String) (v : Value) :
    Phrase.written level (.members [(key, v)]) =
      (jsonString key).toList ++ ':' :: ' ' :: ((v.toJson {} level).toList ++ ['\x7d']) := rfl

theorem written_members (level : Nat) (key : String) (v : Value) (m : String × Value)
    (ms : List (String × Value)) :
    Phrase.written level (.members ((key, v) :: m :: ms)) =
      (jsonString key).toList ++ ':' :: ' ' :: ((v.toJson {} level).toList ++
        ',' :: ' ' :: Phrase.written level (.members (m :: ms))) := by
  obtain ⟨key', v'⟩ := m
  simp only [Phrase.written, membersToJson, breakLine_oneLine, String.append_empty,
    String.toList_append, toList_marks, List.append_assoc, List.cons_append, List.nil_append]

/-- What is written on one line spells what it is written for. -/
theorem Writable.spells {depth : Nat} {phrase : Phrase} (h : Writable depth phrase) (level : Nat) :
    Spells depth phrase (phrase.written level) := by
  have hnone : Blank [] := by nofun
  have hspace : Blank [' '] := List.forall_mem_singleton.mpr rfl
  have hname : ∀ key : String, keyOfPoints (key.toList.map Char.toNat) = key := by
    intro key
    rw [keyOfPoints_toNat, String.ofList_toList]
  induction h generalizing level with
  | null =>
    show Spells _ _ "null".toList
    exact .word List.mem_cons_self
  | bool b =>
    cases b with
    | true =>
      show Spells _ _ "true".toList
      exact .word (List.mem_cons_of_mem _ List.mem_cons_self)
    | false =>
      show Spells _ _ "false".toList
      exact .word (List.mem_cons_of_mem _ (List.mem_cons_of_mem _ List.mem_cons_self))
  | int h => exact .number (number_toString h)
  | text s => exact spells_jsonString _ s
  | @broken depth points hsurrogate h =>
    have hspells : Spells depth _ _ := .string (body_of_isParted h)
    rw [ofPoints, if_pos hsurrogate] at hspells
    rw [Phrase.written, toList_toJson_broken]
    exact hspells
  | emptyList =>
    rw [written_emptyList]
    exact @Spells.emptyList _ [] hnone
  | list h ih =>
    rw [written_list]
    exact @Spells.list _ [] _ _ hnone (ih (level + 1))
  | emptyMap =>
    rw [written_emptyMap]
    exact @Spells.emptyMap _ [] hnone
  | map hkeys h ih =>
    -- of a repeated key the last is read in the place of the first, which is why there is none
    have hspells := Spells.map hnone (ih (level + 1))
    rw [Members.ofPairs_of_nodup hkeys, List.nil_append] at hspells
    rw [written_map]
    exact hspells
  | lastItem h ih => exact .lastItem (ih level) hnone
  | item h hmore ih ihmore =>
    rw [written_items]
    exact .item (ih level) hnone hspace (ihmore level)
  | @lastMember _ key v h ih =>
    have hspells := Spells.lastMember (body_flatMap_jsonPoint key.toList) hnone hspace (ih level) hnone
    simp only [hname, List.nil_append, List.cons_append] at hspells
    rw [written_lastMember, toList_jsonString, List.cons_append, List.append_assoc]
    exact hspells
  | @member _ key _ _ _ h hmore ih ihmore =>
    have hspells := Spells.member (body_flatMap_jsonPoint key.toList) hnone hspace (ih level) hnone
      hspace (ihmore level)
    simp only [hname, List.nil_append, List.cons_append] at hspells
    rw [written_members, toList_jsonString, List.cons_append, List.append_assoc]
    exact hspells

/-- What is written on one line is ASCII without control characters. -/
theorem Writable.isPrintable {depth : Nat} {phrase : Phrase} (h : Writable depth phrase) (level : Nat) :
    ∀ c ∈ phrase.written level, IsPrintable c := by
  induction h generalizing level with
  | null =>
    show ∀ c ∈ "null".toList, IsPrintable c
    exact forall_isPrintable (by decide)
  | bool b =>
    cases b with
    | true =>
      show ∀ c ∈ "true".toList, IsPrintable c
      exact forall_isPrintable (by decide)
    | false =>
      show ∀ c ∈ "false".toList, IsPrintable c
      exact forall_isPrintable (by decide)
  | @int _ n h => exact isPrintable_toString n
  | text s => exact isPrintable_jsonString s
  | broken hsurrogate h =>
    rw [Phrase.written, toList_toJson_broken, List.forall_mem_cons, List.forall_mem_append,
      List.forall_mem_singleton]
    refine ⟨by decide, fun d hd => ?_, by decide⟩
    obtain ⟨n, hn, hd⟩ := List.mem_flatMap.mp hd
    exact isPrintable_jsonPoint (h.bound n hn) d hd
  | emptyList =>
    rw [written_emptyList]
    exact forall_isPrintable (by decide)
  | list h ih =>
    rw [written_list, List.forall_mem_cons]
    exact ⟨by decide, ih (level + 1)⟩
  | emptyMap =>
    rw [written_emptyMap]
    exact forall_isPrintable (by decide)
  | map hkeys h ih =>
    rw [written_map, List.forall_mem_cons]
    exact ⟨by decide, ih (level + 1)⟩
  | @lastItem _ v h ih =>
    show ∀ c ∈ (v.toJson {} level).toList ++ [']'], IsPrintable c
    rw [List.forall_mem_append, List.forall_mem_singleton]
    exact ⟨ih level, by decide⟩
  | item h hmore ih ihmore =>
    rw [written_items, List.forall_mem_append, List.forall_mem_cons, List.forall_mem_cons]
    exact ⟨ih level, by decide, by decide, ihmore level⟩
  | @lastMember _ key v h ih =>
    rw [written_lastMember, List.forall_mem_append, List.forall_mem_cons, List.forall_mem_cons,
      List.forall_mem_append, List.forall_mem_singleton]
    exact ⟨isPrintable_jsonString key, by decide, by decide, ih level, by decide⟩
  | @member _ key _ _ _ h hmore ih ihmore =>
    rw [written_members, List.forall_mem_append, List.forall_mem_cons, List.forall_mem_cons,
      List.forall_mem_append, List.forall_mem_cons, List.forall_mem_cons]
    exact ⟨isPrintable_jsonString key, by decide, by decide, ih level, by decide, by decide,
      ihmore level⟩

end CodeIndex.Value
