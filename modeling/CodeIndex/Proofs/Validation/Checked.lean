import CodeIndex.Validation.Scalar
import Mathlib.Data.List.Forall2
import Mathlib.Tactic.Common

/-!
# Checks that pass

When a check that is made of parts passes, and with which value.  Parts side by side pass if all of them
do; a member that is missing passes with its default.
-/

namespace CodeIndex

open Validation

namespace Checked

variable {α β : Type}

/-! ## Parts side by side -/

/-- Two parts side by side pass if and as each passes. -/
theorem seq_eq_ok_iff {f : Checked (α → β)} {x : Checked α} {b : β} :
    f <*> x = .ok b ↔ ∃ g, f = .ok g ∧ ∃ a, x = .ok a ∧ g a = b := by
  change both f x = .ok b ↔ _
  cases f <;> cases x <;> simp [both]

theorem map_eq_ok_iff {f : α → β} {x : Checked α} {b : β} :
    f <$> x = .ok b ↔ ∃ a, x = .ok a ∧ f a = b := by
  change x.map f = .ok b ↔ _
  cases x <;> simp [map]

theorem eq_ok_iff_exists {c : Checked α} {a : α} : c = .ok a ↔ ∃ b, c = .ok b ∧ b = a := by
  simp

/-- A check with something to hold of its value, for two parts side by side. -/
theorem exists_seq {f : Checked (α → β)} {x : Checked α} {P : β → Prop} :
    (∃ b, f <*> x = .ok b ∧ P b) ↔ ∃ g, f = .ok g ∧ ∃ a, x = .ok a ∧ P (g a) := by
  simp only [seq_eq_ok_iff]
  constructor
  · rintro ⟨_, ⟨g, hg, a, ha, rfl⟩, h⟩
    exact ⟨g, hg, a, ha, h⟩
  · rintro ⟨g, hg, a, ha, h⟩
    exact ⟨_, ⟨g, hg, a, ha, rfl⟩, h⟩

theorem exists_map {f : α → β} {x : Checked α} {P : β → Prop} :
    (∃ b, f <$> x = .ok b ∧ P b) ↔ ∃ a, x = .ok a ∧ P (f a) := by
  simp only [map_eq_ok_iff]
  constructor
  · rintro ⟨_, ⟨a, ha, rfl⟩, h⟩
    exact ⟨a, ha, h⟩
  · rintro ⟨a, ha, h⟩
    exact ⟨_, ⟨a, ha, rfl⟩, h⟩

theorem inside_eq_ok_iff {place : Place} {x : Checked α} {a : α} :
    x.inside place = .ok a ↔ x = .ok a := by
  cases x <;> simp [inside]

theorem andThen_eq_ok_iff {f : α → Checked β} {x : Checked α} {b : β} :
    x.andThen f = .ok b ↔ ∃ a, x = .ok a ∧ f a = .ok b := by
  cases x <;> simp [andThen]

theorem all_eq_ok_iff {f : β → Checked α} {items : List β} {start : Nat} {values : List α} :
    all f items start = .ok values ↔ List.Forall₂ (fun v a => f v = .ok a) items values := by
  induction items generalizing start values with
  | nil => simp [all, List.forall₂_nil_left_iff, eq_comm]
  | cons v rest ih =>
    change ((f v).inside (.index start) |>.map List.cons) <*> all f rest (start + 1) = _ ↔ _
    rw [seq_eq_ok_iff, List.forall₂_cons_left_iff]
    constructor
    · rintro ⟨g, hg, tail, htail, rfl⟩
      obtain ⟨a, ha, rfl⟩ := map_eq_ok_iff.mp hg
      exact ⟨a, tail, inside_eq_ok_iff.mp ha, ih.mp htail, rfl⟩
    · rintro ⟨a, tail, ha, htail, rfl⟩
      exact ⟨_, map_eq_ok_iff.mpr ⟨a, inside_eq_ok_iff.mpr ha, rfl⟩, tail, ih.mpr htail, rfl⟩

theorem exists_of_all {f : β → Checked α} {items : List β} {start : Nat} {values : List α}
    (h : all f items start = .ok values) {a : α} (ha : a ∈ values) : ∃ v ∈ items, f v = .ok a := by
  induction all_eq_ok_iff.mp h with
  | nil => cases ha
  | @cons v b rest values hv htail ih =>
    rcases List.mem_cons.mp ha with rfl | ha
    · exact ⟨v, List.mem_cons_self, hv⟩
    · obtain ⟨w, hw, hf⟩ := ih (all_eq_ok_iff.mpr htail) ha
      exact ⟨w, List.mem_cons_of_mem _ hw, hf⟩

theorem exists_of_mem_all {f : β → Checked α} {items : List β} {start : Nat} {values : List α}
    (h : all f items start = .ok values) {v : β} (hv : v ∈ items) : ∃ a ∈ values, f v = .ok a := by
  induction all_eq_ok_iff.mp h with
  | nil => cases hv
  | @cons w a rest values hw htail ih =>
    rcases List.mem_cons.mp hv with rfl | hv
    · exact ⟨a, List.mem_cons_self, hw⟩
    · obtain ⟨b, hb, hf⟩ := ih (all_eq_ok_iff.mpr htail) hv
      exact ⟨b, List.mem_cons_of_mem _ hb, hf⟩

/-! ## Faults -/

/-- A check that does not pass says what is wrong. -/
def IsTelling (c : Checked α) : Prop :=
  c ≠ .faults []

theorem IsTelling.map {c : Checked α} (h : c.IsTelling) (f : α → β) : (c.map f).IsTelling := by
  cases c with
  | ok a => nofun
  | faults fs => exact fun he => h (congrArg faults (Checked.faults.inj he))

theorem IsTelling.inside {c : Checked α} (h : c.IsTelling) (place : Place) :
    (c.inside place).IsTelling := by
  cases c with
  | ok a => nofun
  | faults fs => exact fun he => h (congrArg faults (List.map_eq_nil_iff.mp (Checked.faults.inj he)))

theorem IsTelling.andThen {c : Checked α} (h : c.IsTelling) {f : α → Checked β}
    (hf : ∀ a, (f a).IsTelling) : (c.andThen f).IsTelling := by
  cases c with
  | ok a => exact hf a
  | faults fs => exact fun he => h (congrArg faults (Checked.faults.inj he))

end Checked

variable {α : Type}

/-! ## Members -/

theorem member_eq_ok_iff {members : Value.Members} {name : String} {check : Value → Checked α}
    {default a : α} : member members name check default = .ok a ↔
      match members.get? name with
      | some v => check v = .ok a
      | none => default = a := by
  unfold member
  cases members.get? name with
  | none => simp
  | some v => exact Checked.inside_eq_ok_iff

theorem required_eq_ok_iff {members : Value.Members} {name : String} {check : Value → Checked α}
    {a : α} :
    required members name check = .ok a ↔ ∃ v, members.get? name = some v ∧ check v = .ok a := by
  unfold required
  cases members.get? name with
  | none => simp [Checked.inside, Checked.complain]
  | some v => simp [Checked.inside_eq_ok_iff]

theorem optional_text_value? (w : Option Writing) : optional text (Textual.value? w) = .ok w := by
  rcases w with _ | (_ | _) <;> rfl

theorem optional_legibleText_ofText? (s : Option String) :
    optional legibleText (.ofText? s) = .ok s := by
  cases s <;> rfl

theorem intFrom_int {bound n : Int} (h : bound ≤ n) : intFrom bound (.int n) = .ok n := by
  unfold intFrom
  simp only [int, Checked.andThen]
  rw [if_neg (by omega)]

theorem natural_nat (n : Nat) : natural (.nat n) = .ok n := by
  unfold natural
  rw [Value.nat, intFrom_int (by omega)]
  rfl

theorem le_of_intFrom {bound n : Int} {v : Value} (h : intFrom bound v = .ok n) : bound ≤ n := by
  obtain ⟨m, -, hm⟩ := Checked.andThen_eq_ok_iff.mp h
  split at hm
  · cases hm
  · injection hm with hm
    omega

theorem list_texts {items : List String} : list legibleText (.texts items) = .ok items := by
  refine Checked.all_eq_ok_iff.mpr ?_
  rw [List.forall₂_map_left_iff]
  exact List.forall₂_same.mpr fun _ _ => rfl

theorem option_text {options : List String} {s : String} (h : s ∈ options) :
    option options (.text s) = .ok s :=
  if_pos (List.contains_iff_mem.mpr h)

theorem mem_of_option {options : List String} {v : Value} {s : String}
    (h : option options v = .ok s) : s ∈ options := by
  unfold option at h
  split at h
  · split at h
    · rename_i hmem
      injection h with h
      exact h ▸ List.contains_iff_mem.mp hmem
    · cases h
  · cases h

end CodeIndex
