import CodeIndex.Proofs.Value.Spelling
import Mathlib.Data.List.Infix
import Mathlib.Data.List.TakeWhile

/-!
# Which texts the reader refuses

The reader faults a text, or it refuses to go on: when the nesting is deeper than it goes, or an integer
has more digits than it converts.  A text that is refused has that many opening brackets, or that many
digits in a row.  What a reader leaves is always the end of what it was given, so that what is found in
the rest of a text is found in the text.
-/

namespace CodeIndex.Value

open Text (isAsciiDigit)

def openings (cs : List Char) : Nat :=
  cs.countP fun c => c == '[' || c == '\x7b'

/-- More digits in a row than the reader converts. -/
def HasLongRun (cs : List Char) : Prop :=
  ∃ digits, digits <:+: cs ∧ (∀ c ∈ digits, isAsciiDigit c = true) ∧ digitLimit < digits.length

/-- What a fault tells of the text that a reader was given: nothing, unless it is a refusal. -/
def Explains (depth : Nat) (cs : List Char) : JsonFault → Prop
  | .tooDeep => depth < openings cs
  | .numberTooLong => HasLongRun cs
  | _ => True

theorem openings_le {cs ds : List Char} (h : cs <:+: ds) : openings cs ≤ openings ds :=
  h.sublist.countP_le

theorem HasLongRun.of_infix {cs ds : List Char} (h : cs <:+: ds) (hrun : HasLongRun cs) :
    HasLongRun ds := by
  obtain ⟨digits, hin, hdigits, hlong⟩ := hrun
  exact ⟨digits, hin.trans h, hdigits, hlong⟩

theorem Explains.of_infix {depth : Nat} {cs ds : List Char} {fault : JsonFault} (h : cs <:+: ds)
    (he : Explains depth cs fault) : Explains depth ds fault := by
  cases fault with
  | tooDeep => exact Nat.lt_of_lt_of_le he (openings_le h)
  | numberTooLong => exact HasLongRun.of_infix h he
  | _ => trivial

theorem openings_cons {c : Char} (hc : (c == '[' || c == '\x7b') = true) (cs : List Char) :
    openings (c :: cs) = openings cs + 1 :=
  List.countP_cons_of_pos hc

/-- One level down there is an opening bracket more. -/
theorem Explains.descend {depth : Nat} {c : Char} (hc : (c == '[' || c == '\x7b') = true)
    {cs : List Char} {fault : JsonFault} (he : Explains depth cs fault) :
    Explains (depth + 1) (c :: cs) fault := by
  cases fault with
  | tooDeep =>
    change depth + 1 < openings (c :: cs)
    rw [openings_cons hc]
    exact Nat.succ_lt_succ he
  | numberTooLong => exact HasLongRun.of_infix (List.suffix_cons c cs).isInfix he
  | _ => trivial

/-! ## Outcomes -/

variable {α β : Type}

/-- A reader leaves the end of what it was given, and a refusal has its reason there. -/
def Sound (depth : Nat) (cs : List Char) : Except JsonFault (α × List Char) → Prop
  | .ok (_, rest) => rest <:+ cs
  | .error fault => Explains depth cs fault

theorem Sound.of_suffix {depth : Nat} {cs ds : List Char} {x : Except JsonFault (α × List Char)}
    (h : cs <:+ ds) (hx : Sound depth cs x) : Sound depth ds x := by
  cases x with
  | ok r => exact List.IsSuffix.trans hx h
  | error fault => exact Explains.of_infix h.isInfix hx

/-- Behind an opening bracket a reader has one level less, or refuses. -/
theorem Sound.descend {c : Char} (hc : (c == '[' || c == '\x7b') = true) {cs : List Char}
    {f : Nat → Except JsonFault (α × List Char)} (hf : ∀ depth, Sound depth cs (f depth))
    (depth : Nat) : Sound depth (c :: cs)
      (match depth with
      | 0 => .error .tooDeep
      | depth + 1 => f depth) := by
  cases depth with
  | zero =>
    change 0 < openings (c :: cs)
    rw [openings_cons hc]
    exact Nat.succ_pos _
  | succ depth =>
    have hx := hf depth
    dsimp only
    cases hread : f depth with
    | ok r =>
      rw [hread] at hx
      exact List.IsSuffix.trans hx (List.suffix_cons c cs)
    | error fault =>
      rw [hread] at hx
      exact Explains.descend hc hx

theorem Sound.bind {depth : Nat} {cs : List Char} {x : Except JsonFault (α × List Char)}
    (hx : Sound depth cs x) {f : α × List Char → Except JsonFault (β × List Char)}
    (hf : ∀ a rest, rest <:+ cs → Sound depth cs (f (a, rest))) : Sound depth cs (x >>= f) := by
  cases x with
  | ok r => exact hf r.1 r.2 hx
  | error fault => exact hx

theorem skipBlanks_suffix (cs : List Char) : skipBlanks cs <:+ cs :=
  List.dropWhile_suffix _

theorem fourHex?_suffix {cs rest : List Char} {n : Nat} (h : fourHex? cs = some (n, rest)) :
    rest <:+ cs := by
  unfold fourHex? at h
  split at h
  · rename_i a b c d tail
    split at h
    · split at h
      · cases h
      · obtain ⟨-, rfl⟩ := Prod.mk.inj (Option.some.inj h)
        exact ⟨[a, b, c, d], rfl⟩
    · cases h
  · cases h

/-- A string that is refused shows why, and one that is read leaves a suffix. -/
theorem sound_readString (depth fuel : Nat) (points : List Nat) (cs : List Char) :
    Sound depth cs (readString fuel points cs) := by
  induction fuel generalizing points cs with
  | zero => trivial
  | succ fuel ih =>
    -- wherever the reader goes on, it is at the end of what it was given
    have hgo : ∀ points {ds : List Char}, ds <:+ cs → Sound depth cs (readString fuel points ds) :=
      fun points _ h => (ih points _).of_suffix h
    cases cs with
    | nil => trivial
    | cons c rest =>
      have hrest := List.suffix_cons c rest
      unfold readString
      split
      · exact hrest
      split
      · trivial
      split
      · exact hgo _ hrest
      split
      · trivial
      · rename_i digits
        have hdigits := (List.suffix_cons 'u' digits).trans hrest
        split
        · trivial
        · rename_i n after hhex
          have hafter := (fourHex?_suffix hhex).trans hdigits
          split
          · split
            · rename_i more
              split
              · exact hgo _ hafter
              · split
                · trivial
                · rename_i low beyond hlow
                  have hmore : more <:+ '\\' :: 'u' :: more := ⟨['\\', 'u'], rfl⟩
                  split
                  · exact hgo _ (((fourHex?_suffix hlow).trans hmore).trans hafter)
                  · exact hgo _ hafter
            · exact hgo _ hafter
          · exact hgo _ hafter
      · rename_i e more _
        split
        · exact hgo _ ((List.suffix_cons e more).trans hrest)
        · trivial

theorem exponent?_suffix {cs rest : List Char} {e : Int} (h : Decimal.exponent? cs = some (e, rest)) :
    rest <:+ cs := by
  unfold Decimal.exponent? at h
  split at h
  rename_i negative body hbody
  have hsuffix : body <:+ cs := by
    split at hbody <;> obtain ⟨-, rfl⟩ := Prod.mk.inj hbody
    · exact List.suffix_cons _ _
    · exact List.suffix_cons _ _
    · exact List.suffix_refl _
  dsimp only at h
  split at h
  · cases h
  · obtain ⟨-, rfl⟩ := Prod.mk.inj (Option.some.inj h)
    exact (List.dropWhile_suffix _).trans hsuffix

theorem splitSign_suffix {cs body : List Char} {negative : Bool}
    (h : splitSign cs = (negative, body)) : body <:+ cs := by
  unfold splitSign at h
  split at h <;> obtain ⟨-, rfl⟩ := Prod.mk.inj h
  · exact List.suffix_cons _ _
  · exact List.suffix_refl _

theorem append_of_splitWhole {body whole rest : List Char} (h : splitWhole body = (whole, rest)) :
    whole ++ rest = body ∧ ∀ c ∈ whole, isAsciiDigit c = true := by
  unfold splitWhole at h
  split at h <;> obtain ⟨rfl, rfl⟩ := Prod.mk.inj h
  · exact ⟨rfl, List.forall_mem_singleton.mpr rfl⟩
  · exact ⟨List.takeWhile_append_dropWhile, fun c hc => List.mem_takeWhile_imp hc⟩

theorem splitFraction_suffix {rest fraction tail : List Char}
    (h : splitFraction rest = (fraction, tail)) : tail <:+ rest := by
  unfold splitFraction at h
  split at h
  · dsimp only at h
    split at h <;> obtain ⟨-, rfl⟩ := Prod.mk.inj h
    · exact List.suffix_refl _
    · exact (List.dropWhile_suffix _).trans (List.suffix_cons _ _)
  · obtain ⟨-, rfl⟩ := Prod.mk.inj h
    exact List.suffix_refl _

theorem splitExponent_suffix {tail beyond : List Char} {exponent : Option Int}
    (h : splitExponent tail = (exponent, beyond)) : beyond <:+ tail := by
  unfold splitExponent at h
  split at h
  · split at h
    · split at h
      · rename_i hread
        obtain ⟨-, rfl⟩ := Prod.mk.inj h
        exact (exponent?_suffix hread).trans (List.suffix_cons _ _)
      · obtain ⟨-, rfl⟩ := Prod.mk.inj h
        exact List.suffix_refl _
    · obtain ⟨-, rfl⟩ := Prod.mk.inj h
      exact List.suffix_refl _
  · obtain ⟨-, rfl⟩ := Prod.mk.inj h
    exact List.suffix_refl _

/-- A number is refused for its length only when it is as long as it may not be. -/
theorem sound_readNumber (depth : Nat) (cs : List Char) : Sound depth cs (readNumber cs) := by
  rcases hsign : splitSign cs with ⟨negative, body⟩
  rcases hwhole : splitWhole body with ⟨whole, rest⟩
  rcases hfraction : splitFraction rest with ⟨fraction, tail⟩
  rcases hexponent : splitExponent tail with ⟨exponent, beyond⟩
  rw [readNumber_eq hsign hwhole hfraction hexponent]
  have hbody := splitSign_suffix hsign
  obtain ⟨happend, hdigits⟩ := append_of_splitWhole hwhole
  have hleft : beyond <:+ cs :=
    (splitExponent_suffix hexponent).trans ((splitFraction_suffix hfraction).trans
      ((happend ▸ List.suffix_append whole rest).trans hbody))
  split
  · trivial
  · split
    · split
      · rename_i hlong
        have hprefix : whole <+: body := happend ▸ List.prefix_append whole rest
        exact ⟨whole, hprefix.isInfix.trans hbody.isInfix, hdigits, hlong⟩
      · exact hleft
    · exact hleft

theorem after?_suffix {word cs rest : List Char} (h : after? word cs = some rest) : rest <:+ cs := by
  induction word generalizing cs with
  | nil =>
    obtain rfl := Option.some.inj h
    exact List.suffix_refl _
  | cons p ps ih =>
    cases cs with
    | nil => cases h
    | cons c cs =>
      rw [after?] at h
      split at h
      · exact (ih h).trans (List.suffix_cons c cs)
      · cases h

theorem sound_readScalar (depth : Nat) (cs : List Char) : Sound depth cs (readScalar cs) := by
  unfold readScalar
  split
  · rename_i found hfound
    obtain ⟨⟨word, v⟩, -, hword⟩ := List.exists_of_findSome?_eq_some hfound
    obtain ⟨rest, hafter, rfl⟩ := Option.map_eq_some_iff.mp hword
    exact after?_suffix hafter
  · exact sound_readNumber depth cs

section

variable {fuel : Nat} (hvalue : ∀ depth cs, Sound depth cs (readValue depth fuel cs))
  (hitems : ∀ depth items cs, Sound depth cs (readItems depth fuel items cs))
  (hmembers : ∀ depth members cs, Sound depth cs (readMembers depth fuel members cs))

include hitems hmembers in
theorem sound_readValue_succ (depth : Nat) (cs : List Char) :
    Sound depth cs (readValue depth (fuel + 1) cs) := by
  cases cs with
  | nil => trivial
  | cons c rest =>
    unfold readValue
    split
    · refine .of_suffix (List.suffix_cons c rest) ?_
      exact .bind (sound_readString depth _ _ rest) fun points after h => h
    split
    · rename_i hc
      refine .descend (by rw [hc, Bool.true_or]) (fun depth => ?_) depth
      have hskip := skipBlanks_suffix rest
      split
      · rename_i after hclose
        exact (hclose ▸ List.suffix_cons ']' after).trans hskip
      · exact .of_suffix hskip (hitems depth [] _)
    split
    · rename_i hc
      refine .descend (by rw [hc, Bool.or_true]) (fun depth => ?_) depth
      have hskip := skipBlanks_suffix rest
      split
      · rename_i after hclose
        exact (hclose ▸ List.suffix_cons '\x7d' after).trans hskip
      · exact .of_suffix hskip (hmembers depth [] _)
    · exact sound_readScalar depth _

include hvalue hitems in
theorem sound_readItems_succ (depth : Nat) (items : List Value) (cs : List Char) :
    Sound depth cs (readItems depth (fuel + 1) items cs) := by
  unfold readItems
  refine .bind (hvalue depth cs) fun v rest hrest => ?_
  have hskip := (skipBlanks_suffix rest).trans hrest
  dsimp only
  split
  · rename_i after hclose
    exact (hclose ▸ List.suffix_cons ']' after).trans hskip
  · rename_i after hcomma
    have hafter : after <:+ cs := (hcomma ▸ List.suffix_cons ',' after).trans hskip
    exact .of_suffix ((skipBlanks_suffix after).trans hafter) (hitems depth _ _)
  · trivial

include hvalue hmembers in
theorem sound_readMembers_succ (depth : Nat) (members : List (String × Value)) (cs : List Char) :
    Sound depth cs (readMembers depth (fuel + 1) members cs) := by
  unfold readMembers
  dsimp only
  split
  · rename_i cs rest
    have hkey : Sound depth ('\x22' :: rest) (readString (rest.length + 1) [] rest) :=
      .of_suffix (List.suffix_cons _ _) (sound_readString depth _ _ rest)
    refine .bind hkey fun points after hafter => ?_
    have hskip := (skipBlanks_suffix after).trans hafter
    dsimp only
    split
    · rename_i behind hcolon
      have hbehind : skipBlanks behind <:+ '\x22' :: rest :=
        (skipBlanks_suffix behind).trans ((hcolon ▸ List.suffix_cons ':' behind).trans hskip)
      refine .bind (.of_suffix hbehind (hvalue depth _)) fun v last hlast => ?_
      have hskip := (skipBlanks_suffix last).trans hlast
      dsimp only
      split
      · rename_i beyond hclose
        exact (hclose ▸ List.suffix_cons '\x7d' beyond).trans hskip
      · rename_i beyond hcomma
        have hbeyond : beyond <:+ '\x22' :: rest :=
          (hcomma ▸ List.suffix_cons ',' beyond).trans hskip
        exact .of_suffix ((skipBlanks_suffix beyond).trans hbeyond) (hmembers depth _ _)
      · trivial
    · trivial
  · trivial

end

/-- The three readers call each other; the induction is on the fuel that they share. -/
theorem sound_read (fuel : Nat) :
    (∀ depth cs, Sound depth cs (readValue depth fuel cs)) ∧
      (∀ depth items cs, Sound depth cs (readItems depth fuel items cs)) ∧
      ∀ depth members cs, Sound depth cs (readMembers depth fuel members cs) := by
  induction fuel with
  | zero => exact ⟨fun _ _ => trivial, fun _ _ _ => trivial, fun _ _ _ => trivial⟩
  | succ fuel ih =>
    obtain ⟨hvalue, hitems, hmembers⟩ := ih
    exact ⟨sound_readValue_succ hitems hmembers, sound_readItems_succ hvalue hitems,
      sound_readMembers_succ hvalue hmembers⟩

/-- Why a whole text was refused can be seen in it. -/
theorem explains_of_ofJson? {s : String} {depth : Nat} {fault : JsonFault}
    (h : ofJson? s depth = .error fault) : Explains depth s.toList fault := by
  unfold ofJson? at h
  dsimp only at h
  split at h
  · cases h
    trivial
  have hread : Sound depth s.toList (readValue depth
      (2 * (skipBlanks s.toList).length + 2) (skipBlanks s.toList)) :=
    .of_suffix (skipBlanks_suffix _) ((sound_read _).1 depth _)
  cases hr : readValue depth (2 * (skipBlanks s.toList).length + 2) (skipBlanks s.toList) with
  | error fault' =>
    rw [hr] at h hread
    cases h
    exact hread
  | ok r =>
    rw [hr] at h
    dsimp only [bind, Except.bind] at h
    split at h
    · cases h
    · cases h
      trivial

/-- Brackets that are opened beyond the depth of a reader. -/
theorem readValue_replicate {depth fuel n : Nat} (hn : depth < n) (hfuel : 2 * n ≤ fuel) :
    readValue depth fuel (List.replicate n '[') = .error .tooDeep := by
  induction depth generalizing fuel n with
  | zero =>
    obtain ⟨n, rfl⟩ : ∃ m, n = m + 1 := ⟨n - 1, by omega⟩
    obtain ⟨fuel, rfl⟩ : ∃ f, fuel = f + 1 := ⟨fuel - 1, by omega⟩
    rfl
  | succ depth ih =>
    obtain ⟨n, rfl⟩ : ∃ m, n = m + 2 := ⟨n - 2, by omega⟩
    obtain ⟨fuel, rfl⟩ : ∃ f, fuel = f + 2 := ⟨fuel - 2, by omega⟩
    have hinner : readValue depth fuel (List.replicate (n + 1) '[') = .error .tooDeep :=
      ih (by omega) (by omega)
    change readItems depth (fuel + 1) [] (List.replicate (n + 1) '[') = _
    unfold readItems
    rw [hinner]
    rfl

end CodeIndex.Value
