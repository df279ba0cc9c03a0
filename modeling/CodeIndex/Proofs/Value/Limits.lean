import CodeIndex.Proofs.Value.Merging
import CodeIndex.Proofs.Value.Refusal
import Mathlib.Data.List.Chain

/-!
# What was read

The reader converts no integer of more digits than its limit, and joins what is escaped of a pair of
surrogates, so in the values that it gives no integer is longer and no pair is left.
-/

namespace CodeIndex.Value

open Text (isAsciiDigit)

/-! ## Values of few digits -/

theorem natOfDigits_lt {digits : List Char} (h : ∀ c ∈ digits, isAsciiDigit c = true) :
    Decimal.natOfDigits digits < Nat.pow 10 digits.length := by
  induction digits using List.reverseRecOn with
  | nil => decide
  | append_singleton digits c ih =>
    rw [List.forall_mem_append, List.forall_mem_singleton, isAsciiDigit, Bool.and_eq_true,
      decide_eq_true_eq, decide_eq_true_eq] at h
    obtain ⟨hdigits, -, hc⟩ := h
    have hc : c.toNat ≤ 57 := hc
    have hfold : Decimal.natOfDigits (digits ++ [c]) =
        10 * Decimal.natOfDigits digits + (c.toNat - 48) :=
      List.foldl_append
    have hless := ih hdigits
    rw [hfold, List.length_append, List.length_singleton]
    show _ < Nat.pow 10 digits.length * 10
    omega

/-- The least number that has more digits than are converted. -/
def tooLong : Nat := Nat.pow 10 digitLimit

theorem ten_pow_le_tooLong {n : Nat} (h : n ≤ digitLimit) : Nat.pow 10 n ≤ tooLong := by
  unfold tooLong
  -- The limit as a variable: the power itself is too large to evaluate.
  generalize digitLimit = limit at h ⊢
  exact Nat.pow_le_pow_right (by decide) h

theorem natAbs_lt_tooLong (negative : Bool) {digits : List Char}
    (hdigits : ∀ c ∈ digits, isAsciiDigit c = true) (hlimit : digits.length ≤ digitLimit) :
    (if negative then -(Decimal.natOfDigits digits : Int) else Decimal.natOfDigits digits).natAbs <
      tooLong := by
  have hless : Decimal.natOfDigits digits < tooLong :=
    Nat.lt_of_lt_of_le (natOfDigits_lt hdigits) (ten_pow_le_tooLong hlimit)
  split
  · rwa [Int.natAbs_neg, Int.natAbs_natCast]
  · rwa [Int.natAbs_natCast]

/-! ## Strings without pairs -/

/-- Code points as a string has them that was read: none is beyond the last, and no low surrogate stands
right behind a high one, since the two are read as one point. -/
structure IsParted (points : List Nat) : Prop where
  bound : ∀ n ∈ points, n < 0x110000
  apart : points.IsChain fun a b => isHigh a = true → isLow b = false

theorem hexValue?_lt {c : Char} {n : Nat} (h : hexValue? c = some n) : n < 16 := by
  have hle : ∀ {a : Char}, c ≤ a → c.toNat ≤ a.toNat := fun hca => hca
  unfold hexValue? at h
  split at h
  · rename_i hc
    simp only [isAsciiDigit, Bool.and_eq_true, decide_eq_true_eq] at hc
    have : c.toNat ≤ 57 := hc.2
    obtain rfl := Option.some.inj h
    omega
  split at h
  · rename_i hc
    simp only [Bool.and_eq_true, decide_eq_true_eq] at hc
    have : c.toNat ≤ 102 := hc.2
    obtain rfl := Option.some.inj h
    omega
  split at h
  · rename_i hc
    simp only [Bool.and_eq_true, decide_eq_true_eq] at hc
    have : c.toNat ≤ 70 := hc.2
    obtain rfl := Option.some.inj h
    omega
  · cases h

theorem fourHex?_lt {cs rest : List Char} {n : Nat} (h : fourHex? cs = some (n, rest)) :
    n < 0x10000 := by
  unfold fourHex? at h
  split at h
  · split at h
    · rename_i ha hb hc hd
      have := hexValue?_lt ha
      have := hexValue?_lt hb
      have := hexValue?_lt hc
      have := hexValue?_lt hd
      split at h
      · cases h
      · obtain ⟨rfl, -⟩ := Prod.mk.inj (Option.some.inj h)
        omega
    · cases h
  · cases h

theorem lt_length_of_fourHex? {cs rest : List Char} {n : Nat} (h : fourHex? cs = some (n, rest)) :
    4 < cs.length := by
  unfold fourHex? at h
  split at h
  · split at h
    · split at h
      · cases h
      · rename_i hrest
        have hpos := List.length_pos_of_ne_nil (mt List.isEmpty_iff.mpr hrest)
        simp only [List.length_cons]
        omega
    · cases h
  · cases h

/-- A code point that stands for itself wherever it is. -/
structure IsSingle (n : Nat) : Prop where
  bound : n < 0x110000
  notHigh : isHigh n = false
  notLow : isLow n = false

theorem isSingle_of_lt {n : Nat} (h : n < 0xD800 ∨ 0xDFFF < n ∧ n < 0x110000) : IsSingle n := by
  refine ⟨by omega, ?_, ?_⟩
  · simp only [isHigh, Bool.and_eq_false_iff, decide_eq_false_iff_not]
    omega
  · simp only [isLow, Bool.and_eq_false_iff, decide_eq_false_iff_not]
    omega

theorem isSingle_toNat (c : Char) : IsSingle c.toNat :=
  isSingle_of_lt c.valid

theorem isSingle_of_shortEscape? {c : Char} {n : Nat} (h : shortEscape? c = some n) : IsSingle n := by
  unfold shortEscape? at h
  split at h
  · obtain rfl := Option.some.inj h
    exact isSingle_toNat c
  · repeat' split at h
    all_goals cases h
    all_goals exact isSingle_of_lt (by decide)

/-- A code point of the last ones read, the last first, and what follows them: no low surrogate is escaped
right behind a high one. -/
def Parts (points : List Nat) (cs : List Char) : Prop :=
  ∀ m ∈ points.head?, isHigh m = true → ∀ digits low rest, cs = '\\' :: 'u' :: digits →
    fourHex? digits = some (low, rest) → isLow low = false

theorem parts_cons_of_not_high {n : Nat} (h : isHigh n = false) (points : List Nat) (cs : List Char) :
    Parts (n :: points) cs := by
  intro m hm hhigh
  obtain rfl := Option.some.inj hm
  rw [h] at hhigh
  cases hhigh

theorem IsParted.push {points : List Nat} (h : IsParted points.reverse) {n : Nat} (hn : n < 0x110000)
    (hlow : ∀ m ∈ points.head?, isHigh m = true → isLow n = false) :
    IsParted (n :: points).reverse where
  bound := by
    intro k hk
    rcases List.mem_cons.mp (List.mem_reverse.mp hk) with rfl | hk
    · exact hn
    · exact h.bound k (List.mem_reverse.mpr hk)
  apart := by
    have := h.apart
    rw [List.isChain_reverse] at this ⊢
    exact List.isChain_cons.mpr ⟨hlow, this⟩

/-- By induction on the fuel.  A high surrogate that was read stays unpaired, since a low one right after
it would have been joined to it. -/
theorem isParted_of_readString {fuel : Nat} {points found : List Nat} {cs rest : List Char}
    (h : readString fuel points cs = .ok (found, rest)) (hparted : IsParted points.reverse)
    (hparts : Parts points cs) : IsParted found := by
  induction fuel generalizing points cs with
  | zero => cases h
  | succ fuel ih =>
    cases cs with
    | nil => cases h
    | cons c tail =>
      unfold readString at h
      split at h
      · obtain ⟨rfl, -⟩ := Prod.mk.inj (Except.ok.inj h)
        exact hparted
      split at h
      · cases h
      split at h
      · have hc := isSingle_toNat c
        exact ih h (hparted.push hc.bound fun _ _ _ => hc.notLow) (parts_cons_of_not_high hc.notHigh _ _)
      rename_i hescape
      have hc : c = '\\' := by simpa using hescape
      subst hc
      split at h
      · cases h
      · rename_i digits
        split at h
        · cases h
        · rename_i n after hhex
          have hbound := fourHex?_lt hhex
          have hpush : IsParted (n :: points).reverse :=
            hparted.push (by omega) fun m hm hhigh => hparts m hm hhigh _ _ _ rfl hhex
          split at h
          · rename_i hhigh
            split at h
            · rename_i more
              split at h
              · rename_i hshort
                refine ih h hpush fun _ _ _ digits low rest heq hfour => ?_
                obtain rfl : more = digits := by simpa using heq
                exact absurd (lt_length_of_fourHex? hfour) (Nat.not_lt_of_le hshort)
              · split at h
                · cases h
                · rename_i low beyond hlow
                  have hlowbound := fourHex?_lt hlow
                  split at h
                  · rename_i his
                    rw [Bool.and_eq_true, decide_eq_true_eq, decide_eq_true_eq] at hhigh his
                    have hpair : IsSingle (0x10000 + (n - 0xD800) * 0x400 + (low - 0xDC00)) :=
                      isSingle_of_lt (by omega)
                    exact ih h (hparted.push hpair.bound fun _ _ _ => hpair.notLow)
                      (parts_cons_of_not_high hpair.notHigh _ _)
                  · rename_i hnot
                    refine ih h hpush fun _ _ _ digits low' rest heq hfour => ?_
                    obtain rfl : more = digits := by simpa using heq
                    rw [hlow] at hfour
                    obtain ⟨rfl, -⟩ := Prod.mk.inj (Option.some.inj hfour)
                    exact Bool.eq_false_iff.mpr hnot
            · rename_i hother
              exact ih h hpush fun _ _ _ digits low rest heq _ => absurd heq (hother digits)
          · rename_i hnot
            exact ih h hpush (parts_cons_of_not_high (Bool.eq_false_iff.mpr hnot) _ _)
      · split at h
        · rename_i n hshort
          have hn := isSingle_of_shortEscape? hshort
          exact ih h (hparted.push hn.bound fun _ _ _ => hn.notLow) (parts_cons_of_not_high hn.notHigh _ _)
        · cases h

theorem isParted_of_string {fuel : Nat} {points : List Nat} {cs rest : List Char}
    (h : readString fuel [] cs = .ok (points, rest)) : IsParted points :=
  isParted_of_readString h ⟨nofun, .nil⟩ nofun

/-! ## Values as the readers give them -/

/-- A value as one that was read is. -/
inductive IsRead : Value → Prop where
  | null : IsRead .null
  | bool (b : Bool) : IsRead (.bool b)
  | int {n : Int} (h : n.natAbs < tooLong) : IsRead (.int n)
  | float (x : Float) : IsRead (.float x)
  | text (s : String) : IsRead (.text s)
  | broken {points : List Nat} (hsurrogate : points.any isSurrogate = true) (h : IsParted points) :
    IsRead (.broken points)
  | list {items : List Value} (h : ∀ v ∈ items, IsRead v) : IsRead (.list items)
  | map {members : Members} (h : ∀ (key : String) (v : Value), members.get? key = some v → IsRead v) :
    IsRead (.map members)

theorem IsRead.ofPoints {points : List Nat} (h : IsParted points) : IsRead (ofPoints points) := by
  unfold Value.ofPoints
  split
  · exact .broken ‹_› h
  · exact .text _

theorem IsRead.ofPairs {pairs : List (String × Value)} (h : ∀ p ∈ pairs, p.2.IsRead) :
    IsRead (.map (Members.ofPairs pairs)) :=
  .map fun _ _ hget => h _ (Members.mem_of_get?_ofPairs hget)

/-- What a reader gives, if it gives something, has a property. -/
def Gives {α : Type} (P : α → Prop) : Except JsonFault (α × List Char) → Prop
  | .ok (a, _) => P a
  | .error _ => True

theorem Gives.bind {α β : Type} {P : α → Prop} {Q : β → Prop} {x : Except JsonFault (β × List Char)}
    (hx : Gives Q x) {f : β × List Char → Except JsonFault (α × List Char)}
    (hf : ∀ b rest, Q b → Gives P (f (b, rest))) : Gives P (x >>= f) := by
  cases x with
  | ok found => exact hf found.1 found.2 hx
  | error fault => trivial

theorem gives_readString (fuel : Nat) (cs : List Char) : Gives IsParted (readString fuel [] cs) := by
  cases h : readString fuel [] cs with
  | error fault => trivial
  | ok found => exact isParted_of_string h

theorem gives_readNumber (cs : List Char) : Gives IsRead (readNumber cs) := by
  rcases hsign : splitSign cs with ⟨negative, body⟩
  rcases hwhole : splitWhole body with ⟨whole, rest⟩
  rcases hfraction : splitFraction rest with ⟨fraction, tail⟩
  rcases hexponent : splitExponent tail with ⟨exponent, beyond⟩
  rw [readNumber_eq hsign hwhole hfraction hexponent]
  obtain ⟨-, hdigits⟩ := append_of_splitWhole hwhole
  split
  · trivial
  split
  · split
    · trivial
    · rename_i hlimit
      exact .int (natAbs_lt_tooLong negative hdigits (Nat.le_of_not_lt hlimit))
  · exact .float _

theorem gives_readScalar (cs : List Char) : Gives IsRead (readScalar cs) := by
  unfold readScalar
  split
  · rename_i found hfound
    obtain ⟨⟨word, v⟩, hmem, hword⟩ := List.exists_of_findSome?_eq_some hfound
    obtain ⟨rest, -, rfl⟩ := Option.map_eq_some_iff.mp hword
    simp only [constants, List.mem_cons, Prod.mk.injEq, List.not_mem_nil, or_false] at hmem
    rcases hmem with ⟨-, rfl⟩ | ⟨-, rfl⟩ | ⟨-, rfl⟩ | ⟨-, rfl⟩ | ⟨-, rfl⟩ | ⟨-, rfl⟩
    · exact .null
    · exact .bool true
    · exact .bool false
    all_goals exact .float _
  · exact gives_readNumber cs

/-- The three readers call each other; the induction is on the fuel that they share. -/
theorem gives_read (fuel : Nat) :
    (∀ depth cs, Gives IsRead (readValue depth fuel cs)) ∧
      (∀ depth items cs, (∀ v ∈ items, IsRead v) → Gives IsRead (readItems depth fuel items cs)) ∧
      ∀ depth members cs, (∀ m ∈ members, IsRead m.2) →
        Gives IsRead (readMembers depth fuel members cs) := by
  induction fuel with
  | zero => exact ⟨fun _ _ => trivial, fun _ _ _ _ => trivial, fun _ _ _ _ => trivial⟩
  | succ fuel ih =>
    obtain ⟨hvalue, hitems, hmembers⟩ := ih
    refine ⟨fun depth cs => ?_, fun depth items cs hbefore => ?_, fun depth members cs hbefore => ?_⟩
    · cases cs with
      | nil => trivial
      | cons c rest =>
        unfold readValue
        split
        · exact .bind (gives_readString _ rest) fun points rest h => .ofPoints h
        split
        · split
          · trivial
          · split
            · exact IsRead.list (List.forall_mem_nil _)
            · exact hitems _ _ _ (List.forall_mem_nil _)
        split
        · split
          · trivial
          · split
            · exact @IsRead.ofPairs [] (List.forall_mem_nil _)
            · exact hmembers _ _ _ (List.forall_mem_nil _)
        · exact gives_readScalar _
    · unfold readItems
      refine .bind (hvalue depth cs) fun v rest hv => ?_
      have hall : ∀ w ∈ v :: items, IsRead w := List.forall_mem_cons.mpr ⟨hv, hbefore⟩
      dsimp only
      split
      · exact IsRead.list fun w hw => hall w (List.mem_reverse.mp hw)
      · exact hitems _ _ _ hall
      · trivial
    · unfold readMembers
      dsimp only
      split
      · refine .bind (gives_readString _ _) fun points rest _ => ?_
        dsimp only
        split
        · refine .bind (hvalue depth _) fun v rest hv => ?_
          have hall : ∀ m ∈ (keyOfPoints points, v) :: members, IsRead m.2 :=
            List.forall_mem_cons.mpr ⟨hv, hbefore⟩
          dsimp only
          split
          · exact IsRead.ofPairs fun p hp => hall p (List.mem_reverse.mp hp)
          · exact hmembers _ _ _ hall
          · trivial
        · trivial
      · trivial

/-- What is read of a whole text is a value as the readers give it. -/
theorem isRead_of_ofJson? {s : String} {depth : Nat} {v : Value} (h : ofJson? s depth = .ok v) :
    v.IsRead := by
  have hgives : ∀ fuel cs, Gives IsRead (readValue depth fuel cs) :=
    fun fuel cs => (gives_read fuel).1 depth cs
  unfold ofJson? at h
  dsimp only at h
  split at h
  · cases h
  specialize hgives (2 * (skipBlanks s.toList).length + 2) (skipBlanks s.toList)
  cases hread : readValue depth (2 * (skipBlanks s.toList).length + 2) (skipBlanks s.toList) with
  | error fault =>
    rw [hread] at h
    cases h
  | ok found =>
    obtain ⟨w, rest⟩ := found
    rw [hread] at h hgives
    dsimp only [bind, Except.bind] at h
    split at h
    · obtain rfl := Except.ok.inj h
      exact hgives
    · cases h

end CodeIndex.Value
