import CodeIndex.Proofs.Decimal.Power
import CodeIndex.Proofs.Store.Retrying

/-!
# Pauses between attempts at the write lock

Whether a pause can be waited for depends on the settings alone.  If the first one is not below zero, all
are, up to the attempt whose power of two is beyond all numbers; if it is below zero or no number, the
first attempt that finds the lock held is the last.
-/

namespace CodeIndex.Store.Lock

variable {settings : Settings.Database} {outcome : Nat → Attempt}

theorem isPower_powerOfTwo {n : Nat} (h : n < powerLimit) : Decimal.IsPower (powerOfTwo n) n := by
  induction n with
  | zero => rfl
  | succ n ih =>
    unfold powerLimit at ih h
    exact Decimal.isPower_two_mul (ih (by omega)) (by omega) (by omega)

theorem objection?_eq_none_iff {delay : Float} : objection? delay = none ↔ 0.0 ≤ delay := by
  unfold objection?
  split
  · simp_all
  · split
    · simp_all
    · split <;> simp_all

theorem zero_le_pause {base : Float} {n : Nat} (hbase : 0.0 ≤ base) (hn : n < powerLimit) :
    0.0 ≤ pause base n := by
  unfold pause
  dsimp only
  split
  · decide
  · exact Decimal.zero_le_mul_of_isPower hbase (isPower_powerOfTwo hn)

/-- The first pause is as long as the settings say, or the longest. -/
theorem zero_le_of_pause_zero {base : Float} (h : 0.0 ≤ pause base 0) : 0.0 ≤ base := by
  have hone : base * powerOfTwo 0 = base :=
    Decimal.mul_of_isPower_zero base (isPower_powerOfTwo (by decide))
  unfold pause at h
  dsimp only at h
  rw [hone] at h
  split at h
  · rename_i hlong
    exact Decimal.zero_le_of_lt (by decide : 0.0 ≤ longestPause) hlong
  · exact h

/-- All pauses can be waited for, or not even the first. -/
theorem waitable_of_nonneg (h : 0.0 ≤ settings.retryBaseDelay) {i : Nat} (hi : i < powerLimit) :
    Waitable settings i :=
  ⟨hi, objection?_eq_none_iff.mpr (zero_le_pause h hi)⟩

theorem nonneg_of_waitable_zero (h : Waitable settings 0) : 0.0 ≤ settings.retryBaseDelay :=
  zero_le_of_pause_zero (objection?_eq_none_iff.mp h.2)

theorem heldBefore_iff {k : Nat} : HeldBefore settings outcome k ↔
    (∀ i < k, outcome i = .locked) ∧ (0 < k → 0.0 ≤ settings.retryBaseDelay ∧ k ≤ powerLimit) := by
  constructor
  · intro h
    refine ⟨fun i hi => (h i hi).1, fun hk => ⟨nonneg_of_waitable_zero (h 0 hk).2, ?_⟩⟩
    have hlast := (h (k - 1) (by omega)).2.1
    omega
  · intro ⟨hlocked, hpauses⟩ i hi
    obtain ⟨hbase, hlimit⟩ := hpauses (by omega)
    exact ⟨hlocked i hi, waitable_of_nonneg hbase (by omega)⟩

theorem acquireFrom_succ_ne_nil {attempt left : Nat} :
    (acquireFrom settings outcome attempt (left + 1)).1 ≠ [] := by
  rw [acquireFrom]
  split
  · exact List.cons_ne_nil _ _
  · exact List.cons_ne_nil _ _
  · split
    · split
      · exact List.cons_ne_nil _ _
      · exact List.cons_ne_nil _ _
    · exact List.cons_ne_nil _ _

/-- How taking the lock ends.  A negative number of further attempts, and nothing else, leaves it without
any attempt.  Otherwise attempts that find the lock held follow one another, each with its pause, up to
one that ends the run: it gets the lock, fails for another reason, is the last that the settings allow, or
is one whose pause cannot be waited for. -/
theorem acquire_by_retrying (settings : Settings.Database) (outcome : Nat → Attempt) :
    (settings.maxRetries < 0 ↔ acquire settings outcome = ([], .error .noAttempt)) ∧
    (∀ k : Nat, k ≤ settings.maxRetries → (∀ i < k, outcome i = .locked) →
      (0 < k → 0.0 ≤ settings.retryBaseDelay ∧ k ≤ powerLimit) →
      (outcome k = .granted →
        acquire settings outcome = (heldAttempts settings k ++ [.tried k], .ok k)) ∧
      (∀ m, outcome k = .failed m →
        acquire settings outcome = (heldAttempts settings k ++ [.tried k], .error m)) ∧
      (outcome k = .locked → k = settings.maxRetries →
        acquire settings outcome = (heldAttempts settings k ++ [.tried k], .error .locked)) ∧
      (outcome k = .locked → k < settings.maxRetries → ¬ 0.0 ≤ settings.retryBaseDelay →
        ∃ m, objection? (pause settings.retryBaseDelay k) = some m ∧
          acquire settings outcome = ([.tried k, .noted (pauseEvent settings k)], .error m)) ∧
      (outcome k = .locked → k < settings.maxRetries → k = powerLimit →
        acquire settings outcome = (heldAttempts settings k ++ [.tried k],
          .error (.beyondRange "int too large to convert to float")))) ∧
    (0 ≤ settings.maxRetries → ∃ k : Nat, k ≤ settings.maxRetries ∧
      (∀ i < k, outcome i = .locked) ∧
      (0 < k → 0.0 ≤ settings.retryBaseDelay ∧ k ≤ powerLimit) ∧
      (outcome k = .locked → k = settings.maxRetries ∨ ¬ 0.0 ≤ settings.retryBaseDelay ∨
        k = powerLimit)) := by
  refine ⟨⟨fun h => acquire_of_neg h outcome, fun h => ?_⟩, fun k hk hlocked hpauses => ?_, fun h => ?_⟩
  · by_contra htries
    obtain ⟨left, hrun⟩ := acquire_of_heldBefore (k := 0) (Int.not_lt.mp htries)
      (fun i hi => absurd hi (Nat.not_lt_zero i))
    rw [hrun] at h
    exact acquireFrom_succ_ne_nil (Prod.ext_iff.mp h).1
  · have hheld : HeldBefore settings outcome k := heldBefore_iff.mpr ⟨hlocked, hpauses⟩
    refine ⟨acquire_of_granted hk hheld, fun m => acquire_of_failed hk hheld,
      acquire_of_last hk hheld, fun hl hmore hbase => ?_, fun hl hmore hlimit => ?_⟩
    · obtain rfl : k = 0 := by
        by_contra hk0
        exact hbase (hpauses (Nat.pos_of_ne_zero hk0)).1
      obtain ⟨m, hm⟩ := Option.ne_none_iff_exists'.mp
        (mt objection?_eq_none_iff.mp (mt zero_le_of_pause_zero hbase))
      have hrest : rest settings 0 = _ := rest_of_objection (by decide) hm
      refine ⟨m, hm, ?_⟩
      rw [acquire_of_rest_error hk hheld hl hmore (congrArg Prod.snd hrest), hrest]
      rfl
    · have hrest : rest settings k = _ := rest_of_powerLimit_le (Nat.le_of_eq hlimit.symm)
      rw [acquire_of_rest_error hk hheld hl hmore (congrArg Prod.snd hrest), hrest]
  · obtain ⟨k, hk, hheld, hends⟩ := exists_ends h outcome
    obtain ⟨hlocked, hpauses⟩ := heldBefore_iff.mp hheld
    refine ⟨k, hk, hlocked, hpauses, fun hl => (hends hl).imp_right fun hwait => ?_⟩
    by_cases hbase : 0.0 ≤ settings.retryBaseDelay
    · have hlimit : ¬ k < powerLimit := fun hlt => hwait (waitable_of_nonneg hbase hlt)
      have hpos : 0 < powerLimit := by decide
      have hle := (hpauses (by omega)).2
      exact .inr (by omega)
    · exact .inl hbase

/-- The lock got at the third attempt, after two pauses. -/
theorem acquire_on_third :
    acquire {} (fun i => if i < 2 then .locked else .granted) =
      (heldAttempts {} 2 ++ [.tried 2], .ok 2) :=
  ((acquire_by_retrying {} _).2.1 2 (by decide) (fun _ hi => if_pos hi)
    (fun _ => ⟨by decide, by decide⟩)).1 rfl

/-- Without any attempt a lock that is free is not got, and with a pause below zero one that is held is not
tried for again. -/
theorem acquire_without_retrying :
    acquire { maxRetries := -1 } (fun _ => .granted) = ([], .error .noAttempt) ∧
    (acquire { retryBaseDelay := -1.0 } fun i => if i = 0 then .locked else .granted).2 =
      .error (.wrongValue "sleep length must be non-negative") :=
  ⟨rfl, by decide +kernel⟩

end CodeIndex.Store.Lock
