import Mathlib

/-!
# Powers of two as floating point numbers

A number of 64 bits holds the powers of two in its range exactly: doubling leads from one to the next.
The product of a number with the first of them, one, is the number itself, and the product of a number
that is not below zero with any of them is not below zero either.
-/

namespace CodeIndex.Decimal

open Float.Model (Format UnpackedFloat totalExponent)
open Float.Model.UnpackedFloat

abbrev double : Format := .binary64

/-! ## Rounding that drops nothing -/

/-- An exponent at which rounding leaves a significand as it is. -/
def IsExact (m : Nat) (e : Int) : Prop :=
  double.targetExponent (totalExponent m e) = e

/-- The significand has all its digits, or the exponent is the least. -/
theorem isExact_iff {m : Nat} {e : Int} :
    IsExact m e ↔ m.log2 = 52 ∧ -1074 ≤ e ∨ m.log2 < 52 ∧ e = -1074 := by
  unfold IsExact totalExponent
  change max (((m.log2 : Int) + 1 + e) - (53 : Nat)) (-1074 : Int) = e ↔ _
  omega

theorem log2_mul_two_pow {m : Nat} (hm : 0 < m) (k : Nat) : (m * 2 ^ k).log2 = m.log2 + k := by
  induction k with
  | zero => simp
  | succ k ih =>
    have hpos : m * 2 ^ k ≠ 0 := Nat.ne_of_gt (Nat.mul_pos hm (Nat.two_pow_pos k))
    rw [Nat.pow_succ, ← Nat.mul_assoc, Nat.mul_comm, Nat.log2_two_mul hpos, ih, Nat.add_assoc]

theorem repeat_shiftRightOne (m k : Nat) :
    k.repeat ExtendedMantissa.shiftRightOne ⟨m * 2 ^ k, false, false⟩ = ⟨m, false, false⟩ := by
  induction k generalizing m with
  | zero => simp [Nat.repeat]
  | succ k ih =>
    rw [Nat.repeat, show m * 2 ^ (k + 1) = m * 2 * 2 ^ k by ring, ih, ExtendedMantissa.shiftRightOne]
    simp

theorem shiftToTargetExponent_of_isExact {m k : Nat} {e : Int} (hm : 0 < m) (h : IsExact m (e + k)) :
    shiftToTargetExponent double (m * 2 ^ k) e .exact = (⟨m, false, false⟩, e + k) := by
  have htotal : totalExponent (m * 2 ^ k) e = totalExponent m (e + k) := by
    unfold totalExponent
    rw [log2_mul_two_pow hm]
    omega
  unfold shiftToTargetExponent shiftToExponent
  rw [htotal, h]
  dsimp only
  rw [show (e + k - e).toNat = k by omega]
  exact congrArg (·, e + k) (repeat_shiftRightOne m k)

theorem roundWithAccuracy_of_isExact {m k : Nat} {e : Int} (hm : 0 < m) (h : IsExact m (e + k))
    (s : Sign) : roundWithAccuracy double s (m * 2 ^ k) e .exact = .finite s m (e + k) hm := by
  have hagain : shiftToTargetExponent double m (e + k) .exact = (⟨m, false, false⟩, e + k) := by
    simpa using shiftToTargetExponent_of_isExact (k := 0) hm (by simpa using h)
  rw [roundWithAccuracy, shiftToTargetExponent_of_isExact hm h]
  dsimp only [ExtendedMantissa.roundedMantissa, ExtendedMantissa.accuracy, Accuracy.roundToNearestEven]
  rw [hagain]
  exact dif_neg (Nat.ne_of_gt hm)

/-- What the bits of a number say needs no rounding. -/
theorem isExact_of_unpack {b : BitVec double.numBits} {s : Sign} {m : Nat} {e : Int} {hm : 0 < m}
    (h : unpack double b = .finite s m e hm) : IsExact m e := by
  rw [isExact_iff]
  unfold unpack at h
  have hdigits := (unpackMantissa b).isLt
  change _ < 2 ^ 52 at hdigits
  dsimp only at h
  split at h
  · split at h <;> cases h
  · split at h
    · rename_i hleast
      split at h
      · cases h
      · injection h with _ hm' he
        refine .inr ⟨(Nat.log2_lt (by omega)).mpr (hm' ▸ hdigits), ?_⟩
        rw [hleast] at he
        exact he.symm
    · rename_i hnormal
      injection h with _ hm' he
      have hexponent : (unpackExponent b).toNat ≠ 0 := fun hzero => hnormal (BitVec.eq_of_toNat_eq hzero)
      refine .inl ⟨?_, ?_⟩
      · rw [Nat.log2_eq_iff (by omega), ← hm', BitVec.toNat_append]
        change 2 ^ 52 ≤ 1 <<< 52 ||| _ ∧ 1 <<< 52 ||| _ < _
        rw [← Nat.shiftLeft_add_eq_or_of_lt hdigits]
        omega
      · rw [← he]
        change -1074 ≤ ((unpackExponent b).toNat : Int) - ((1023 : Nat) + (52 : Nat))
        omega

/-! ## Powers of two -/

/-- Two to a power, with all the digits that a number of 64 bits has. -/
def power (e : Int) : UnpackedFloat := .finite .positive (2 ^ 52) (e - 52) (by decide)

theorem mul_power_of_isExact {m : Nat} {e i : Int} {hm : 0 < m} (h : IsExact m (e + i)) (s : Sign) :
    UnpackedFloat.mul double (.finite s m e hm) (power i) = .finite s m (e + i) hm := by
  have hsign : s * .positive = s := by cases s <;> rfl
  change roundWithAccuracy double (s * .positive) (m * 2 ^ 52) (e + (i - 52)) .exact = _
  rw [hsign, roundWithAccuracy_of_isExact hm (by convert h using 1; omega)]
  congr 1
  omega

/-- Powers of two in the range of doubles are packed exactly. -/
theorem unpack_pack_power {e : Int} (h : -1023 < e) (h' : e < 1024) :
    unpack double (pack double (power e)) = power e := by
  have hpack : pack double (power e) =
      packComponents double .positive (BitVec.ofNat 11 (e + 1023).toNat) 0 := by
    unfold power pack
    dsimp only
    change (if 2048 ≤ (e - 52 + (1023 : Nat) + (52 : Nat)).toNat + 1 then _ else _) = _
    rw [if_neg (by omega), if_pos (by rw [Nat.log2_two_pow]; rfl)]
    change packComponents double _ (BitVec.ofNat 11 (e - 52 + (1023 : Nat) + (52 : Nat)).toNat) _ = _
    rw [show e - 52 + (1023 : Nat) + (52 : Nat) = e + 1023 by omega]
    rfl
  have hexponent : ((BitVec.ofNat 11 (e + 1023).toNat).toNat : Int) = e + 1023 := by
    rw [BitVec.toNat_ofNat]
    omega
  rw [hpack]
  unfold unpack
  simp only [unpackMantissa_packComponents, unpackExponent_packComponents, unpackSign_packComponents,
    Sign.ofBitVec_toBitVec]
  -- the exponent is neither that of the smallest numbers nor that of infinity
  rw [if_neg, if_neg, hexponent]
  · unfold power
    congr 1
    change e + 1023 - ((1023 : Nat) + (52 : Nat)) = _
    omega
  · intro he
    rw [he] at hexponent
    change ((0 : Nat) : Int) = _ at hexponent
    omega
  · intro he
    rw [he] at hexponent
    change ((2047 : Nat) : Int) = _ at hexponent
    omega

def IsPower (x : Float) (e : Int) : Prop :=
  x.toModel.unpack = power e

/-- Doubling leads from one power of two to the next. -/
theorem isPower_two_mul {x : Float} {e : Int} (hx : IsPower x e) (h : -1023 ≤ e) (h' : e < 1023) :
    IsPower (2.0 * x) (e + 1) := by
  have htwo : (2.0 : Float).toModel.unpack = power 1 := by rfl
  have hexact : IsExact (2 ^ 52) (1 - 52 + e) :=
    isExact_iff.mpr (.inl ⟨Nat.log2_two_pow, by omega⟩)
  have hmul : mul double (power 1) (power e) = power (e + 1) := by
    rw [power, mul_power_of_isExact hexact]
    unfold power
    congr 1
    omega
  change unpack double (pack double (mul double (2.0 : Float).toModel.unpack x.toModel.unpack)) = _
  rw [hx, htwo, hmul]
  exact unpack_pack_power (by omega) (by omega)

theorem mul_of_isPower_zero (x : Float) {y : Float} (hy : IsPower y 0) : x * y = x := by
  have hmul : mul double x.toModel.unpack (power 0) = x.toModel.unpack := by
    cases hx : x.toModel.unpack with
    | notANumber => rfl
    | zero s => cases s <;> rfl
    | infinity s => cases s <;> rfl
    | finite s m e hm =>
      rw [mul_power_of_isExact (by simpa using isExact_of_unpack hx)]
      simp
  change Float.ofModel (.pack (mul double x.toModel.unpack y.toModel.unpack)) = x
  rw [hy, hmul]
  congr 1
  have hbits : pack double (unpack double x.toModel.toBits.toBitVec) = x.toModel.toBits.toBitVec :=
    pack_unpack_of_valid x.toModel.valid
  change Float.Model.mk (UInt64.ofBitVec (pack double (unpack double _))) _ = _
  simp only [hbits]

/-! ## Numbers that are not below zero -/

/-- A number that is zero or above it. -/
def IsNonneg (u : UnpackedFloat) : Prop :=
  (UnpackedFloat.zero .positive).le u = true

theorem isNonneg_toModel_iff (x : Float) : IsNonneg x.toModel.unpack ↔ 0.0 ≤ x := by
  have hzero : (0.0 : Float).toModel.unpack = .zero .positive := by rfl
  unfold IsNonneg
  rw [← hzero]
  change _ ↔ decide ((0.0 : Float).toModel ≤ x.toModel) = true
  rw [decide_eq_true_iff]
  exact Iff.rfl

theorem isNonneg_of_lt {u v : UnpackedFloat} (hu : IsNonneg u) (h : u.lt v = true) : IsNonneg v := by
  -- whatever is above zero or a number that is not below it is a positive number or infinity
  rcases v with (_ | _) | _ | _ | ⟨_ | _, _, _, _⟩
  case infinity.positive | zero | finite.positive => rfl
  all_goals
    rcases u with (_ | _) | _ | _ | ⟨_ | _, _, _, _⟩ <;>
      simp [IsNonneg, UnpackedFloat.le, UnpackedFloat.lt, UnpackedFloat.compare] at hu h

theorem zero_le_of_lt {x y : Float} (hx : 0.0 ≤ x) (h : x < y) : 0.0 ≤ y := by
  rw [← isNonneg_toModel_iff] at hx ⊢
  exact isNonneg_of_lt hx (of_decide_eq_true (show decide (x.toModel < y.toModel) = true from h))

theorem isNonneg_unpack_packComponents {e : BitVec double.exponentBits}
    {m : BitVec double.mantissaBitsWithoutImplicit} (h : e = -1#_ → m = 0#_) :
    IsNonneg (unpack double (packComponents double .positive e m)) := by
  unfold unpack
  simp only [unpackMantissa_packComponents, unpackExponent_packComponents, unpackSign_packComponents,
    Sign.ofBitVec_toBitVec]
  split
  · rename_i he
    rw [if_pos (h he)]
    rfl
  · split
    · split <;> rfl
    · rfl

/-- Rounding to a double keeps a number from becoming negative. -/
theorem isNonneg_unpack_pack {u : UnpackedFloat} (h : IsNonneg u) :
    IsNonneg (unpack double (pack double u)) := by
  cases u with
  | notANumber => cases h
  | zero s => cases s <;> rfl
  | infinity s =>
    cases s with
    | negative => cases h
    | positive => rfl
  | finite s m e =>
    cases s with
    | negative => cases h
    | positive =>
      unfold pack
      dsimp only
      split
      · rfl
      · rename_i hbelow
        split
        · refine isNonneg_unpack_packComponents fun he => absurd ?_ hbelow
          have hexponent := congrArg BitVec.toNat he
          rw [BitVec.toNat_ofNat] at hexponent
          change _ % 2048 = 2047 at hexponent
          change 2048 ≤ _
          omega
        · exact isNonneg_unpack_packComponents fun he => absurd he (by decide)

theorem isNonneg_mul_power {u : UnpackedFloat} (h : IsNonneg u) (e : Int) :
    IsNonneg (mul double u (power e)) := by
  cases u with
  | notANumber => cases h
  | zero s => cases s <;> rfl
  | infinity s =>
    cases s with
    | negative => cases h
    | positive => rfl
  | finite s m e =>
    cases s with
    | negative => cases h
    | positive =>
      unfold mul power roundWithAccuracy
      dsimp only
      split <;> rfl

theorem zero_le_mul_of_isPower {x y : Float} {e : Int} (hx : 0.0 ≤ x) (hy : IsPower y e) :
    0.0 ≤ x * y := by
  rw [← isNonneg_toModel_iff] at hx ⊢
  change IsNonneg (unpack double (pack double (mul double x.toModel.unpack y.toModel.unpack)))
  rw [hy]
  exact isNonneg_unpack_pack (isNonneg_mul_power hx e)

end CodeIndex.Decimal
