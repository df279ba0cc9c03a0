import CodeIndex.Proofs.Text.Places
import CodeIndex.Value.JsonReader

/-!
# Strings and numbers in JSON

The grammar of the tokens, apart from any reader.  A string may hold every code point from U+0020 on as it
is, the quote and the backslash apart, or escape it in one of the ways there are.  What is spelled so is
read back, whatever follows, as long as an integer has no more digits than are converted.
-/

namespace CodeIndex.Value

open Text (isAsciiDigit)

/-! ## Strings -/

def hex4? (a b c d : Char) : Option Nat :=
  match hexValue? a, hexValue? b, hexValue? c, hexValue? d with
  | some a, some b, some c, some d => some (((a * 16 + b) * 16 + c) * 16 + d)
  | _, _, _, _ => none

def isHigh (n : Nat) : Bool :=
  0xD800 ≤ n && n ≤ 0xDBFF

def isLow (n : Nat) : Bool :=
  0xDC00 ≤ n && n ≤ 0xDFFF

/-- A text that does not begin with an escaped low surrogate. -/
def NoLow (cs : List Char) : Prop :=
  ∀ a b c d rest n, cs = '\\' :: 'u' :: a :: b :: c :: d :: rest → hex4? a b c d = some n →
    isLow n = false

/-- The code points of a string, and how they are spelled between its quotes. -/
inductive Body : List Nat → List Char → Prop where
  | nil : Body [] []
  | plain {c : Char} {points : List Nat} {cs : List Char} (hcontrol : 0x20 ≤ c.toNat)
      (hquote : c ≠ '\x22') (hescape : c ≠ '\\') (h : Body points cs) :
      Body (c.toNat :: points) (c :: cs)
  | short {e : Char} {n : Nat} {points : List Nat} {cs : List Char} (he : shortEscape? e = some n)
      (h : Body points cs) : Body (n :: points) ('\\' :: e :: cs)
  | unit {a b c d : Char} {n : Nat} {points : List Nat} {cs : List Char}
      (hn : hex4? a b c d = some n) (halone : isHigh n = true → NoLow cs) (h : Body points cs) :
      Body (n :: points) ('\\' :: 'u' :: a :: b :: c :: d :: cs)
  | pair {a b c d a' b' c' d' : Char} {high low : Nat} {points : List Nat} {cs : List Char}
      (hhigh : hex4? a b c d = some high) (his : isHigh high = true)
      (hlow : hex4? a' b' c' d' = some low) (his' : isLow low = true) (h : Body points cs) :
      Body ((0x10000 + (high - 0xD800) * 0x400 + (low - 0xDC00)) :: points)
        ('\\' :: 'u' :: a :: b :: c :: d :: '\\' :: 'u' :: a' :: b' :: c' :: d' :: cs)

theorem fourHex?_of_hex4? {a b c d : Char} {n : Nat} (h : hex4? a b c d = some n) {rest : List Char}
    (hrest : rest ≠ []) : fourHex? (a :: b :: c :: d :: rest) = some (n, rest) := by
  unfold hex4? at h
  unfold fourHex?
  split at h
  · rename_i ha hb hc hd
    cases h
    simp only [ha, hb, hc, hd]
    rw [if_neg (by simpa using hrest)]
  · cases h

theorem readString_plain {c : Char} (hcontrol : 0x20 ≤ c.toNat) (hquote : c ≠ '\x22')
    (hescape : c ≠ '\\') (fuel : Nat) (points : List Nat) (rest : List Char) :
    readString (fuel + 1) points (c :: rest) = readString fuel (c.toNat :: points) rest := by
  conv_lhs => unfold readString
  rw [if_neg (by simpa using hquote), if_neg (by omega), if_pos (by simpa using hescape)]

theorem readString_short {e : Char} {n : Nat} (he : shortEscape? e = some n) (fuel : Nat)
    (points : List Nat) (rest : List Char) :
    readString (fuel + 1) points ('\\' :: e :: rest) = readString fuel (n :: points) rest := by
  have hu : e ≠ 'u' := by
    rintro rfl
    cases he
  conv_lhs => unfold readString
  rw [if_neg (by decide), if_neg (by decide), if_neg (by decide)]
  split
  · rename_i heq
    cases heq
  · rename_i heq
    cases heq
    exact absurd rfl hu
  · rename_i heq
    cases heq
    rw [he]

/-- An escaped unit is one code point, unless it is high and a low one comes next. -/
theorem readString_unit {a b c d : Char} {n : Nat} (hn : hex4? a b c d = some n) {rest : List Char}
    (hrest : rest ≠ [])
    (halone : isHigh n = true → ∀ more, rest = '\\' :: 'u' :: more →
      ∃ low beyond, fourHex? more = some (low, beyond) ∧ isLow low = false)
    (fuel : Nat) (points : List Nat) :
    readString (fuel + 1) points ('\\' :: 'u' :: a :: b :: c :: d :: rest) =
      readString fuel (n :: points) rest := by
  conv_lhs => unfold readString
  rw [if_neg (by decide), if_neg (by decide), if_neg (by decide)]
  simp only [fourHex?_of_hex4? hn hrest]
  split
  · rename_i hhigh
    split
    · rename_i more
      obtain ⟨low, beyond, hlow, hnot⟩ := halone hhigh more rfl
      rw [hlow]
      split
      · rfl
      · simp only
        rw [if_neg (by rw [isLow] at hnot; simpa using hnot)]
    · rfl
  · rfl

theorem readString_pair {a b c d a' b' c' d' : Char} {high low : Nat}
    (hhigh : hex4? a b c d = some high) (his : isHigh high = true)
    (hlow : hex4? a' b' c' d' = some low) (his' : isLow low = true) {rest : List Char}
    (hrest : rest ≠ []) (fuel : Nat) (points : List Nat) :
    readString (fuel + 1) points
        ('\\' :: 'u' :: a :: b :: c :: d :: '\\' :: 'u' :: a' :: b' :: c' :: d' :: rest) =
      readString fuel ((0x10000 + (high - 0xD800) * 0x400 + (low - 0xDC00)) :: points) rest := by
  have hlong : ¬(a' :: b' :: c' :: d' :: rest).length ≤ 4 := by
    have := List.length_pos_of_ne_nil hrest
    simp only [List.length_cons]
    omega
  conv_lhs => unfold readString
  rw [if_neg (by decide), if_neg (by decide), if_neg (by decide)]
  simp only [fourHex?_of_hex4? hhigh (List.cons_ne_nil _ _)]
  rw [if_pos (by simpa only [isHigh] using his), if_neg hlong, fourHex?_of_hex4? hlow hrest]
  exact if_pos his'

/-- What begins with an escaped unit inside a string has all its digits. -/
theorem Body.exists_hex4? {points : List Nat} {cs : List Char} (h : Body points cs) {rest more : List Char}
    (hcs : cs ++ '\x22' :: rest = '\\' :: 'u' :: more) :
    ∃ a b c d tail n, cs = '\\' :: 'u' :: a :: b :: c :: d :: tail ∧ hex4? a b c d = some n ∧
      more = a :: b :: c :: d :: (tail ++ '\x22' :: rest) := by
  cases h with
  | nil => cases hcs
  | plain _ _ hescape => exact absurd (List.cons.inj hcs).1 hescape
  | short he =>
    obtain ⟨-, htail⟩ := List.cons.inj hcs
    obtain ⟨rfl, -⟩ := List.cons.inj htail
    cases he
  | unit hn =>
    obtain ⟨-, htail⟩ := List.cons.inj hcs
    obtain ⟨-, htail⟩ := List.cons.inj htail
    exact ⟨_, _, _, _, _, _, rfl, hn, htail.symm⟩
  | pair hhigh =>
    obtain ⟨-, htail⟩ := List.cons.inj hcs
    obtain ⟨-, htail⟩ := List.cons.inj htail
    exact ⟨_, _, _, _, _, _, rfl, hhigh, htail.symm⟩

/-- What is spelled between quotes is read up to the closing one. -/
theorem readString_body {points : List Nat} {cs : List Char} (h : Body points cs) (rest : List Char)
    {fuel : Nat} (hfuel : cs.length < fuel) (before : List Nat) :
    readString fuel before (cs ++ '\x22' :: rest) = .ok (before.reverse ++ points, rest) := by
  have hclosed : ∀ cs : List Char, cs ++ '\x22' :: rest ≠ [] := fun cs => by simp
  induction h generalizing fuel before with
  | nil =>
    obtain ⟨fuel, rfl⟩ : ∃ f, fuel = f + 1 := ⟨fuel - 1, by omega⟩
    rw [List.append_nil]
    rfl
  | plain hcontrol hquote hescape _ ih =>
    obtain ⟨fuel, rfl⟩ : ∃ f, fuel = f + 1 := ⟨fuel - 1, by omega⟩
    rw [List.cons_append, readString_plain hcontrol hquote hescape,
      ih (by simpa using hfuel), List.reverse_cons, List.append_assoc]
    rfl
  | short he _ ih =>
    obtain ⟨fuel, rfl⟩ : ∃ f, fuel = f + 1 := ⟨fuel - 1, by omega⟩
    rw [List.cons_append, List.cons_append, readString_short he,
      ih (by simp only [List.length_cons] at hfuel; omega), List.reverse_cons, List.append_assoc]
    rfl
  | @unit a b c d n _ cs hn halone hcs ih =>
    obtain ⟨fuel, rfl⟩ : ∃ f, fuel = f + 1 := ⟨fuel - 1, by omega⟩
    have hgo := readString_unit hn (hclosed cs) ?_ fuel before
    · rw [show '\\' :: 'u' :: a :: b :: c :: d :: cs ++ '\x22' :: rest =
        '\\' :: 'u' :: a :: b :: c :: d :: (cs ++ '\x22' :: rest) from rfl, hgo,
        ih (by simp only [List.length_cons] at hfuel; omega), List.reverse_cons, List.append_assoc]
      rfl
    · intro hhigh more hmore
      obtain ⟨a', b', c', d', tail, low, rfl, hlow, rfl⟩ := hcs.exists_hex4? hmore
      exact ⟨low, _, fourHex?_of_hex4? hlow (hclosed tail),
        halone hhigh _ _ _ _ _ _ rfl hlow⟩
  | @pair a b c d a' b' c' d' high low _ cs hhigh his hlow his' _ ih =>
    obtain ⟨fuel, rfl⟩ : ∃ f, fuel = f + 1 := ⟨fuel - 1, by omega⟩
    rw [show '\\' :: 'u' :: a :: b :: c :: d :: '\\' :: 'u' :: a' :: b' :: c' :: d' :: cs ++
        '\x22' :: rest = '\\' :: 'u' :: a :: b :: c :: d :: '\\' :: 'u' :: a' :: b' :: c' :: d' ::
          (cs ++ '\x22' :: rest) from rfl,
      readString_pair hhigh his hlow his' (hclosed cs),
      ih (by simp only [List.length_cons] at hfuel; omega), List.reverse_cons, List.append_assoc]
    rfl

/-! ## Numbers -/

/-- Zero alone, or digits of which the first is not zero. -/
inductive Whole : List Char → Prop where
  | zero : Whole ['0']
  | digits {c : Char} {cs : List Char} (hzero : c ≠ '0')
      (hdigits : ∀ d ∈ c :: cs, isAsciiDigit d = true) : Whole (c :: cs)

def fractionText (digits : List Char) : List Char :=
  if digits.isEmpty then [] else '.' :: digits

/-- An exponent with its mark, or nothing for none. -/
inductive Exponent : Option Int → List Char → Prop where
  | none : Exponent none []
  | some {mark : Char} {cs : List Char} {e : Int} (hmark : mark = 'e' ∨ mark = 'E')
      (h : Decimal.exponent? cs = some (e, [])) : Exponent (some e) (mark :: cs)

def signText (negative : Bool) : List Char :=
  if negative then ['-'] else []

/-- A number and how it is spelled: an integer, unless it has a fraction or an exponent. -/
inductive Number : Value → List Char → Prop where
  | int (negative : Bool) {whole : List Char} (hwhole : Whole whole)
      (hlimit : whole.length ≤ digitLimit) :
      Number (.int (if negative then -(Decimal.natOfDigits whole : Int)
        else Decimal.natOfDigits whole)) (signText negative ++ whole)
  | float (negative : Bool) {whole fraction ending : List Char} {exponent : Option Int}
      (hwhole : Whole whole) (hfraction : ∀ d ∈ fraction, isAsciiDigit d = true)
      (hexponent : Exponent exponent ending) (hfloat : fraction ≠ [] ∨ exponent ≠ none) :
      Number (.float (if negative then -Decimal.Numeral.toFloat ⟨whole, fraction, exponent.getD 0⟩
        else Decimal.Numeral.toFloat ⟨whole, fraction, exponent.getD 0⟩))
        (signText negative ++ (whole ++ (fractionText fraction ++ ending)))

/-- What can stand after a number without being taken for a part of it. -/
def Follows (rest : List Char) : Prop :=
  ∀ c ∈ rest.head?, isAsciiDigit c = false ∧ c ≠ '.' ∧ c ≠ 'e' ∧ c ≠ 'E'

theorem Follows.noDigit {rest : List Char} (h : Follows rest) :
    ∀ c ∈ rest.head?, isAsciiDigit c = false :=
  fun c hc => (h c hc).1

theorem span_digits {digits rest : List Char} (hdigits : ∀ d ∈ digits, isAsciiDigit d = true)
    (hrest : ∀ c ∈ rest.head?, isAsciiDigit c = false) :
    (digits ++ rest).takeWhile isAsciiDigit = digits ∧
      (digits ++ rest).dropWhile isAsciiDigit = rest := by
  exact ⟨Text.takeWhile_eq_iff.mpr ⟨hdigits, rest, rfl, hrest⟩, Text.dropWhile_append hdigits hrest⟩

def splitSigns (cs : List Char) : Bool × List Char :=
  match cs with
  | '-' :: rest => (true, rest)
  | '+' :: rest => (false, rest)
  | _ => (false, cs)

def exponentOf (negative : Bool) (body : List Char) : Option (Int × List Char) :=
  let digits := body.takeWhile isAsciiDigit
  if digits.isEmpty then none
  else
    let value : Int := if digits.length < 7 then Decimal.natOfDigits digits else
      (let d := digits.dropWhile (· == '0')
       if d.length < 7 then (Decimal.natOfDigits d : Int) else 1000000)
    some (if negative then -value else value, body.dropWhile isAsciiDigit)

theorem exponent?_eq (cs : List Char) :
    Decimal.exponent? cs = exponentOf (splitSigns cs).1 (splitSigns cs).2 := rfl

theorem splitSigns_append {cs : List Char} (h : cs ≠ []) (rest : List Char) :
    splitSigns (cs ++ rest) = ((splitSigns cs).1, (splitSigns cs).2 ++ rest) := by
  cases cs with
  | nil => exact absurd rfl h
  | cons c cs =>
    rw [List.cons_append]
    unfold splitSigns
    by_cases hminus : c = '-'
    · subst hminus
      rfl
    by_cases hplus : c = '+'
    · subst hplus
      rfl
    split
    · exact absurd (List.cons.inj ‹_›).1 hminus
    · exact absurd (List.cons.inj ‹_›).1 hplus
    · split
      · exact absurd (List.cons.inj ‹_›).1 hminus
      · exact absurd (List.cons.inj ‹_›).1 hplus
      · rfl

/-- An exponent is read whatever follows it, unless that is a digit. -/
theorem exponent?_append {cs rest : List Char} {e : Int} (h : Decimal.exponent? cs = some (e, []))
    (hrest : ∀ c ∈ rest.head?, isAsciiDigit c = false) :
    Decimal.exponent? (cs ++ rest) = some (e, rest) := by
  have hne : cs ≠ [] := by
    rintro rfl
    cases h
  rw [exponent?_eq] at h
  rw [exponent?_eq, splitSigns_append hne]
  generalize splitSigns cs = signed at h ⊢
  obtain ⟨negative, body⟩ := signed
  unfold exponentOf at h
  dsimp only at h
  split at h
  · cases h
  · rename_i hdigits
    obtain ⟨rfl, hend⟩ := Prod.mk.inj (Option.some.inj h)
    -- all that was read is digits
    have hbody : body.takeWhile isAsciiDigit = body := by
      conv_rhs => rw [← List.takeWhile_append_dropWhile (p := isAsciiDigit) (l := body), hend,
        List.append_nil]
    have hall : ∀ d ∈ body, isAsciiDigit d = true := by
      intro d hd
      rw [← hbody] at hd
      exact List.mem_takeWhile_imp hd
    have hspan := span_digits hall hrest
    unfold exponentOf
    dsimp only
    rw [hspan.1, hspan.2]
    rw [hbody] at hdigits ⊢
    exact if_neg hdigits

def splitSign (cs : List Char) : Bool × List Char :=
  match cs with
  | '-' :: rest => (true, rest)
  | _ => (false, cs)

def splitWhole (body : List Char) : List Char × List Char :=
  match body with
  | '0' :: rest => (['0'], rest)
  | _ => (body.takeWhile isAsciiDigit, body.dropWhile isAsciiDigit)

def splitFraction (rest : List Char) : List Char × List Char :=
  match rest with
  | '.' :: more =>
    let digits := more.takeWhile isAsciiDigit
    if digits.isEmpty then ([], rest) else (digits, more.dropWhile isAsciiDigit)
  | _ => ([], rest)

def splitExponent (rest : List Char) : Option Int × List Char :=
  match rest with
  | c :: more =>
    if c == 'e' || c == 'E' then
      match Decimal.exponent? more with
      | some (e, beyond) => (some e, beyond)
      | none => (none, rest)
    else (none, rest)
  | [] => (none, rest)

/-- A number that is read is its parts, one after another. -/
theorem readNumber_eq {cs body rest tail beyond whole fraction : List Char} {negative : Bool}
    {exponent : Option Int} (hsign : splitSign cs = (negative, body))
    (hwhole : splitWhole body = (whole, rest)) (hfraction : splitFraction rest = (fraction, tail))
    (hexponent : splitExponent tail = (exponent, beyond)) :
    readNumber cs =
      if whole.isEmpty then .error .expectingValue
      else if fraction.isEmpty && exponent.isNone then
        if digitLimit < whole.length then .error .numberTooLong
        else .ok (.int (if negative then -(Decimal.natOfDigits whole : Int)
          else Decimal.natOfDigits whole), beyond)
      else .ok (.float (if negative
          then -Decimal.Numeral.toFloat ⟨whole, fraction, exponent.getD 0⟩
          else Decimal.Numeral.toFloat ⟨whole, fraction, exponent.getD 0⟩), beyond) := by
  have h : readNumber cs =
      let sign := splitSign cs
      let head := splitWhole sign.2
      let part := splitFraction head.2
      let power := splitExponent part.2
      if head.1.isEmpty then .error .expectingValue
      else if part.1.isEmpty && power.1.isNone then
        if digitLimit < head.1.length then .error .numberTooLong
        else .ok (.int (if sign.1 then -(Decimal.natOfDigits head.1 : Int)
          else Decimal.natOfDigits head.1), power.2)
      else .ok (.float (if sign.1
          then -Decimal.Numeral.toFloat ⟨head.1, part.1, power.1.getD 0⟩
          else Decimal.Numeral.toFloat ⟨head.1, part.1, power.1.getD 0⟩), power.2) := rfl
  rw [h]
  simp only [hsign, hwhole, hfraction, hexponent]

theorem Whole.exists_cons {whole : List Char} (h : Whole whole) :
    ∃ c cs, whole = c :: cs ∧ ∀ d ∈ c :: cs, isAsciiDigit d = true := by
  cases h with
  | zero => exact ⟨'0', [], rfl, List.forall_mem_singleton.mpr rfl⟩
  | digits _ hdigits => exact ⟨_, _, rfl, hdigits⟩

theorem splitSign_append {negative : Bool} {whole rest : List Char} (h : Whole whole) :
    splitSign (signText negative ++ (whole ++ rest)) = (negative, whole ++ rest) := by
  cases negative with
  | true => rfl
  | false =>
    obtain ⟨c, cs, rfl, hdigits⟩ := h.exists_cons
    have hc := hdigits c List.mem_cons_self
    change splitSign (c :: (cs ++ rest)) = _
    unfold splitSign
    split
    · rename_i heq
      cases heq
      cases hc
    · rfl

theorem splitWhole_append {whole rest : List Char} (h : Whole whole)
    (hrest : ∀ c ∈ rest.head?, isAsciiDigit c = false) :
    splitWhole (whole ++ rest) = (whole, rest) := by
  cases h with
  | zero => rfl
  | digits hzero hdigits =>
    rename_i c cs
    have hspan := span_digits hdigits hrest
    unfold splitWhole
    split
    · rename_i heq
      exact absurd (List.cons.inj heq).1 hzero
    · rw [hspan.1, hspan.2]

theorem splitFraction_append {fraction rest : List Char}
    (hfraction : ∀ d ∈ fraction, isAsciiDigit d = true)
    (hrest : ∀ c ∈ rest.head?, isAsciiDigit c = false ∧ c ≠ '.') :
    splitFraction (fractionText fraction ++ rest) = (fraction, rest) := by
  cases fraction with
  | nil =>
    change splitFraction rest = _
    unfold splitFraction
    split
    · rename_i more
      exact absurd rfl (hrest '.' rfl).2
    · rfl
  | cons d ds =>
    have hspan := span_digits hfraction fun c hc => (hrest c hc).1
    change splitFraction ('.' :: (d :: ds ++ rest)) = _
    unfold splitFraction
    split
    · rename_i more heq
      obtain rfl : more = d :: ds ++ rest := (List.cons.inj heq).2.symm
      rw [hspan.1, hspan.2]
      rfl
    · rename_i hne
      exact absurd rfl (hne _)

theorem splitExponent_append {exponent : Option Int} {ending rest : List Char}
    (h : Exponent exponent ending) (hrest : Follows rest) :
    splitExponent (ending ++ rest) = (exponent, rest) := by
  cases h with
  | none =>
    cases rest with
    | nil => rfl
    | cons c rest =>
      obtain ⟨-, -, he, hE⟩ := hrest c rfl
      have hmark : (c == 'e' || c == 'E') = false := by simp [he, hE]
      change (if c == 'e' || c == 'E' then _ else (none, c :: rest)) = _
      rw [hmark]
      rfl
  | some hmark hread =>
    rename_i mark cs e
    have hmark : (mark == 'e' || mark == 'E') = true := by simpa using hmark
    change (if mark == 'e' || mark == 'E' then
      match Decimal.exponent? (cs ++ rest) with
      | some (e, beyond) => (some e, beyond)
      | none => (none, mark :: (cs ++ rest)) else _) = _
    rw [hmark, exponent?_append hread hrest.noDigit]
    rfl

theorem Exponent.head_append {exponent : Option Int} {ending rest : List Char}
    (h : Exponent exponent ending) (hrest : Follows rest) :
    ∀ c ∈ (ending ++ rest).head?, isAsciiDigit c = false ∧ c ≠ '.' := by
  cases h with
  | none => exact fun c hc => ⟨(hrest c hc).1, (hrest c hc).2.1⟩
  | some hmark =>
    intro c hc
    obtain rfl := Option.some.inj hc
    rcases hmark with rfl | rfl <;> decide

theorem head_fractionText (fraction : List Char) {rest : List Char}
    (hrest : ∀ c ∈ rest.head?, isAsciiDigit c = false) :
    ∀ c ∈ (fractionText fraction ++ rest).head?, isAsciiDigit c = false := by
  cases fraction with
  | nil => exact hrest
  | cons d ds =>
    intro c hc
    obtain rfl := Option.some.inj hc
    decide

/-- What is spelled as a number is read as that number. -/
theorem readNumber_append {v : Value} {cs : List Char} (h : Number v cs) {rest : List Char}
    (hrest : Follows rest) : readNumber (cs ++ rest) = .ok (v, rest) := by
  cases h with
  | @int negative whole hwhole hlimit =>
    have hfraction : splitFraction (fractionText [] ++ rest) = ([], rest) :=
      splitFraction_append (by simp) fun c hc => ⟨(hrest c hc).1, (hrest c hc).2.1⟩
    rw [List.append_assoc, readNumber_eq (splitSign_append hwhole)
      (splitWhole_append hwhole hrest.noDigit) hfraction (splitExponent_append .none hrest)]
    obtain ⟨c, ds, rfl, -⟩ := hwhole.exists_cons
    exact if_neg (Nat.not_lt.mpr hlimit)
  | @float negative whole fraction ending exponent hwhole hfraction hexponent hfloat =>
    have hend := hexponent.head_append hrest
    have hpoint := head_fractionText fraction fun c hc => (hend c hc).1
    rw [List.append_assoc, List.append_assoc, List.append_assoc,
      readNumber_eq (splitSign_append hwhole) (splitWhole_append hwhole hpoint)
        (splitFraction_append hfraction hend) (splitExponent_append hexponent hrest)]
    obtain ⟨c, ds, rfl, -⟩ := hwhole.exists_cons
    have hpart : (fraction.isEmpty && exponent.isNone) = false := by
      rcases hfloat with h | h
      · simp [h]
      · simp [Option.ne_none_iff_isSome.mp h]
    rw [hpart]
    rfl

end CodeIndex.Value
