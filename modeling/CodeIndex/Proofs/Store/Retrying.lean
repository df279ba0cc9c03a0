import CodeIndex.Store.Lock
import Mathlib.Data.Nat.Find
import Mathlib.Tactic.Common

/-!
# Trying again for the write lock

A run of attempts goes on for as long as they find the lock held and the pauses after them can be waited
for.  It ends with the first attempt that gets the lock or fails for another reason, or with the last one
that the settings allow.  Settings that allow no attempt at all are the only ones under which it ends
without any.
-/

namespace CodeIndex.Store.Lock

variable {settings : Settings.Database} {outcome : Nat → Attempt}

/-! ## Single attempts -/

theorem acquireFrom_of_granted {k : Nat} (h : outcome k = .granted) (left : Nat) :
    acquireFrom settings outcome k (left + 1) = ([.tried k], .ok k) := by
  rw [acquireFrom, h]

theorem acquireFrom_of_failed {k : Nat} {m : Mishap} (h : outcome k = .failed m) (left : Nat) :
    acquireFrom settings outcome k (left + 1) = ([.tried k], .error m) := by
  rw [acquireFrom, h]

theorem acquireFrom_of_last {k : Nat} (h : outcome k = .locked) (hlast : settings.maxRetries ≤ k)
    (left : Nat) : acquireFrom settings outcome k (left + 1) = ([.tried k], .error .locked) := by
  rw [acquireFrom, h]
  exact if_neg (Int.not_lt.mpr hlast)

theorem acquireFrom_of_rest_error {k : Nat} {m : Mishap} (h : outcome k = .locked)
    (hmore : k < settings.maxRetries) (hrest : (rest settings k).2 = .error m) (left : Nat) :
    acquireFrom settings outcome k (left + 1) = (.tried k :: (rest settings k).1, .error m) := by
  rw [acquireFrom, h]
  dsimp only
  rw [if_pos hmore]
  rcases hsteps : rest settings k with ⟨steps, result⟩
  rw [hsteps] at hrest
  obtain rfl : result = .error m := hrest
  rfl

/-! ## Pauses -/

/-- The pause after an attempt can be waited for. -/
def Waitable (settings : Settings.Database) (attempt : Nat) : Prop :=
  attempt < powerLimit ∧ objection? (pause settings.retryBaseDelay attempt) = none

instance (settings : Settings.Database) (attempt : Nat) : Decidable (Waitable settings attempt) :=
  inferInstanceAs (Decidable (_ ∧ _))

def heldAttempt (settings : Settings.Database) (attempt : Nat) : List Step :=
  [.tried attempt, .noted (pauseEvent settings attempt), .waited (pause settings.retryBaseDelay attempt)]

theorem rest_of_waitable {k : Nat} (h : Waitable settings k) :
    rest settings k =
      ([.noted (pauseEvent settings k), .waited (pause settings.retryBaseDelay k)], .ok ()) := by
  unfold rest
  rw [if_neg (Nat.not_le.mpr h.1)]
  dsimp only
  rw [h.2]

theorem rest_of_powerLimit_le {k : Nat} (hk : powerLimit ≤ k) :
    rest settings k = ([], .error (.beyondRange "int too large to convert to float")) :=
  if_pos hk

theorem rest_of_objection {k : Nat} {m : Mishap} (hk : k < powerLimit)
    (h : objection? (pause settings.retryBaseDelay k) = some m) :
    rest settings k = ([.noted (pauseEvent settings k)], .error m) := by
  unfold rest
  rw [if_neg (Nat.not_le.mpr hk)]
  dsimp only
  rw [h]

theorem exists_rest_error {k : Nat} (h : ¬ Waitable settings k) :
    ∃ m, (rest settings k).2 = .error m := by
  rcases Nat.lt_or_ge k powerLimit with hk | hk
  · obtain ⟨m, hm⟩ := Option.ne_none_iff_exists'.mp fun hnone => h ⟨hk, hnone⟩
    exact ⟨m, congrArg Prod.snd (rest_of_objection hk hm)⟩
  · exact ⟨_, congrArg Prod.snd (rest_of_powerLimit_le hk)⟩

/-- How attempts end that meet nothing wrong with the file: none was allowed, the last one found the lock
held, or a pause cannot be waited for. -/
inductive GivesUp : Mishap → Prop where
  | noAttempt : GivesUp .noAttempt
  | locked : GivesUp .locked
  | wrongValue (message : String) : GivesUp (.wrongValue message)
  | beyondRange (message : String) : GivesUp (.beyondRange message)

theorem givesUp_of_objection {delay : Float} {m : Mishap} (h : objection? delay = some m) :
    GivesUp m := by
  unfold objection? at h
  split_ifs at h
  · exact Option.some.inj h ▸ .wrongValue _
  · exact Option.some.inj h ▸ .beyondRange _
  · exact Option.some.inj h ▸ .wrongValue _

theorem givesUp_of_rest_error {k : Nat} {m : Mishap} (h : (rest settings k).2 = .error m) :
    GivesUp m := by
  rcases Nat.lt_or_ge k powerLimit with hk | hk
  · cases hm : objection? (pause settings.retryBaseDelay k) with
    | none =>
      rw [rest_of_waitable ⟨hk, hm⟩] at h
      cases h
    | some m =>
      rw [rest_of_objection hk hm] at h
      injection h with h
      exact h ▸ givesUp_of_objection hm
  · rw [rest_of_powerLimit_le hk] at h
    injection h with h
    exact h ▸ .beyondRange _

theorem acquireFrom_of_waitable {k : Nat} (h : outcome k = .locked) (hmore : k < settings.maxRetries)
    (hwait : Waitable settings k) (left : Nat) :
    acquireFrom settings outcome k (left + 1) =
      (heldAttempt settings k ++ (acquireFrom settings outcome (k + 1) left).1,
        (acquireFrom settings outcome (k + 1) left).2) := by
  rw [acquireFrom, h]
  dsimp only
  rw [if_pos hmore, rest_of_waitable hwait]
  rfl

/-! ## Runs of attempts -/

/-- The attempts before a number found the lock held, and the pauses after them could be waited for. -/
def HeldBefore (settings : Settings.Database) (outcome : Nat → Attempt) (k : Nat) : Prop :=
  ∀ i < k, outcome i = .locked ∧ Waitable settings i

/-- All that is done for the attempts before a number. -/
def heldAttempts (settings : Settings.Database) (k : Nat) : List Step :=
  (List.range k).flatMap (heldAttempt settings)

theorem heldAttempts_succ (k : Nat) :
    heldAttempts settings (k + 1) = heldAttempts settings k ++ heldAttempt settings k := by
  rw [heldAttempts, List.range_succ, List.flatMap_append, List.flatMap_singleton]
  rfl

/-- The run goes on from the first attempt that is not known to find the lock held. -/
theorem acquire_of_heldBefore {k : Nat} (hk : k ≤ settings.maxRetries)
    (h : HeldBefore settings outcome k) :
    ∃ left, acquire settings outcome =
      (heldAttempts settings k ++ (acquireFrom settings outcome k (left + 1)).1,
        (acquireFrom settings outcome k (left + 1)).2) := by
  -- of the attempts allowed, `left` follow the one of number `k`
  suffices hrun : ∀ left : Nat, settings.maxRetries = k + left → acquire settings outcome =
      (heldAttempts settings k ++ (acquireFrom settings outcome k (left + 1)).1,
        (acquireFrom settings outcome k (left + 1)).2) from
    ⟨(settings.maxRetries - k).toNat, hrun _ (by omega)⟩
  induction k with
  | zero =>
    intro left hleft
    rw [acquire, show (settings.maxRetries + 1).toNat = left + 1 by omega]
    rfl
  | succ k ih =>
    intro left hleft
    obtain ⟨hlocked, hwait⟩ := h k (Nat.lt_succ_self k)
    rw [ih (by omega) (fun i hi => h i (Nat.lt_succ_of_lt hi)) (left + 1) (by omega),
      acquireFrom_of_waitable hlocked (by omega) hwait, heldAttempts_succ, List.append_assoc]

theorem acquire_of_neg (h : settings.maxRetries < 0) (outcome : Nat → Attempt) :
    acquire settings outcome = ([], .error .noAttempt) := by
  rw [acquire, show (settings.maxRetries + 1).toNat = 0 by omega]
  rfl

section

variable {k : Nat} (hk : k ≤ settings.maxRetries) (h : HeldBefore settings outcome k)

include hk h

theorem acquire_of_granted (hgranted : outcome k = .granted) :
    acquire settings outcome = (heldAttempts settings k ++ [.tried k], .ok k) := by
  obtain ⟨left, hrun⟩ := acquire_of_heldBefore hk h
  rw [hrun, acquireFrom_of_granted hgranted]

theorem acquire_of_failed {m : Mishap} (hfailed : outcome k = .failed m) :
    acquire settings outcome = (heldAttempts settings k ++ [.tried k], .error m) := by
  obtain ⟨left, hrun⟩ := acquire_of_heldBefore hk h
  rw [hrun, acquireFrom_of_failed hfailed]

theorem acquire_of_last (hlocked : outcome k = .locked) (hlast : k = settings.maxRetries) :
    acquire settings outcome = (heldAttempts settings k ++ [.tried k], .error .locked) := by
  obtain ⟨left, hrun⟩ := acquire_of_heldBefore hk h
  rw [hrun, acquireFrom_of_last hlocked (Int.le_of_eq hlast.symm)]

theorem acquire_of_rest_error {m : Mishap} (hlocked : outcome k = .locked)
    (hmore : k < settings.maxRetries) (hrest : (rest settings k).2 = .error m) :
    acquire settings outcome =
      (heldAttempts settings k ++ .tried k :: (rest settings k).1, .error m) := by
  obtain ⟨left, hrun⟩ := acquire_of_heldBefore hk h
  rw [hrun, acquireFrom_of_rest_error hlocked hmore hrest]

end

/-- An attempt that ends a run: it does not find the lock held, or no pause follows it. -/
def Ends (settings : Settings.Database) (outcome : Nat → Attempt) (k : Nat) : Prop :=
  outcome k = .locked → k = settings.maxRetries ∨ ¬ Waitable settings k

/-- Where an attempt is allowed, some attempt ends the run. -/
theorem exists_ends (h : 0 ≤ settings.maxRetries) (outcome : Nat → Attempt) :
    ∃ k : Nat, k ≤ settings.maxRetries ∧ HeldBefore settings outcome k ∧
      Ends settings outcome k := by
  -- the first attempt after which the run does not go on
  have hlast : Ends settings outcome settings.maxRetries.toNat := fun _ => .inl (by omega)
  classical
  refine ⟨Nat.find ⟨_, hlast⟩, ?_, ?_, Nat.find_spec ⟨_, hlast⟩⟩
  · have := Nat.find_min' ⟨_, hlast⟩ hlast
    omega
  · intro i hi
    obtain ⟨hlocked, hnot⟩ := Classical.not_imp.mp (Nat.find_min ⟨_, hlast⟩ hi)
    exact ⟨hlocked, Classical.not_not.mp fun hwait => hnot (.inr hwait)⟩

/-- Attempts that all come to one outcome get the lock only if that is the lock; otherwise they fail as that
outcome does, or are given up. -/
theorem exists_error (settings : Settings.Database) {a : Attempt}
    (h : 0 ≤ settings.maxRetries → a ≠ .granted) :
    ∃ m, (acquire settings fun _ => a).2 = .error m ∧ (a = .failed m ∨ GivesUp m) := by
  by_cases htries : 0 ≤ settings.maxRetries
  · obtain ⟨k, hk, hheld, hends⟩ := exists_ends htries fun _ => a
    cases ha : a with
    | granted => exact absurd ha (h htries)
    | failed m => exact ⟨m, by rw [acquire_of_failed hk (ha ▸ hheld) rfl], .inl rfl⟩
    | locked =>
      subst ha
      by_cases hlast : k = settings.maxRetries
      · exact ⟨.locked, by rw [acquire_of_last hk hheld rfl hlast], .inr .locked⟩
      · obtain ⟨m, hm⟩ := exists_rest_error ((hends rfl).resolve_left hlast)
        refine ⟨m, ?_, .inr (givesUp_of_rest_error hm)⟩
        rw [acquire_of_rest_error hk hheld rfl (by omega) hm]
  · exact ⟨.noAttempt, by rw [acquire_of_neg (Int.not_le.mp htries)], .inr .noAttempt⟩

end CodeIndex.Store.Lock
