import CodeIndex.Value.Merge
import Mathlib.Data.List.Nodup
import Mathlib.Tactic.Common

/-!
# Merged maps

What a map laid over another holds at a key: what the upper one holds, and what the lower one holds where
the upper one holds nothing.  The same is true one level down, for the parts of two maps of maps.
-/

namespace CodeIndex.Value

namespace Members

theorem set_of_not_mem {m : Members} {key : String} (h : key ∉ m.keys) (v : Value) :
    m.set key v = m ++ [(key, v)] := by
  induction m with
  | nil => rfl
  | cons member rest ih =>
    obtain ⟨first, w⟩ := member
    obtain ⟨hfirst, hrest⟩ := List.ne_and_not_mem_of_not_mem_cons h
    rw [set, if_neg (by simpa using hfirst.symm), ih hrest]
    rfl

/-- Pairs of different keys are members as they are. -/
theorem ofPairs_of_nodup {pairs : List (String × Value)} (h : (keys pairs).Nodup) :
    ofPairs pairs = pairs := by
  suffices hfold : ∀ m : Members, (keys (m ++ pairs)).Nodup →
      pairs.foldl (fun members pair => set members pair.1 pair.2) m = m ++ pairs from hfold [] h
  clear h
  induction pairs with
  | nil => exact fun m _ => (List.append_nil m).symm
  | cons pair rest ih =>
    obtain ⟨key, v⟩ := pair
    intro m hm
    have hnew : key ∉ keys m := by
      rw [keys, List.map_append, List.nodup_append'] at hm
      exact fun hkey => hm.2.2 hkey List.mem_cons_self
    rw [List.append_cons] at hm ⊢
    rw [List.foldl_cons, ← ih _ hm, ← set_of_not_mem hnew v]

end Members

/-! ## One map over another -/

/-- What is seen at a key of a map that lies over another. -/
def overlaid (lower upper : Option Value) : Option Value :=
  match upper, lower with
  | some u, some l => some (mergedValue l u)
  | some u, none => some u
  | none, l => l

variable {base upper : Members} {name key : String}

theorem merged_cons (base : Members) (key : String) (v : Value) (rest : Members) :
    merged base ((key, v) :: rest) =
      merged (base.set key (((base.get? key).map (mergedValue · v)).getD v)) rest := by
  rw [merged]
  cases base.get? key <;> rfl

theorem get?_merged (h : upper.keys.Nodup) :
    (merged base upper).get? key = overlaid (base.get? key) (upper.get? key) := by
  induction upper generalizing base with
  | nil => rfl
  | cons member rest ih =>
    obtain ⟨first, v⟩ := member
    obtain ⟨hfirst, hrest⟩ := List.nodup_cons.mp h
    rw [merged_cons, ih hrest, Members.get?_set, Members.get?_cons]
    by_cases hkey : key = first
    · subst hkey
      rw [if_pos rfl, if_pos rfl, Members.get?_eq_none_iff.mpr hfirst]
      cases base.get? key <;> rfl
    · rw [if_neg hkey, if_neg hkey]

theorem mem_keys_merged : key ∈ (merged base upper).keys ↔ key ∈ base.keys ∨ key ∈ upper.keys := by
  induction upper generalizing base with
  | nil => simp [merged, Members.keys]
  | cons member rest ih =>
    obtain ⟨first, v⟩ := member
    rw [merged_cons, ih, Members.mem_keys_set, or_assoc]
    simp [Members.keys]

theorem nodup_keys_merged (h : base.keys.Nodup) : (merged base upper).keys.Nodup := by
  induction upper generalizing base with
  | nil => exact h
  | cons member rest ih =>
    obtain ⟨first, v⟩ := member
    rw [merged_cons]
    exact ih (Members.nodup_keys_set h _ _)

/-! ## Maps of maps -/

/-- Whether what stands at a name, if anything, is a map. -/
def Members.IsMapAt (m : Members) (name : String) : Prop :=
  ∀ v, m.get? name = some v → ∃ members, v = .map members

instance (m : Members) (name : String) : Decidable (m.IsMapAt name) :=
  match h : m.get? name with
  | none => .isTrue fun v hv => by rw [h] at hv; cases hv
  | some (.map members) => .isTrue fun v hv => ⟨members, by rw [h] at hv; exact (Option.some.inj hv).symm⟩
  | some .null | some (.bool _) | some (.int _) | some (.float _) | some (.text _) | some (.broken _)
  | some (.moment _) | some (.list _) =>
    .isFalse fun hmap => by obtain ⟨members, heq⟩ := hmap _ h; cases heq

theorem Members.part_of_none {m : Members} (h : m.get? name = none) : m.part name = [] := by
  rw [part, h]

theorem Members.part_of_map {m members : Members} (h : m.get? name = some (.map members)) :
    m.part name = members := by
  rw [part, h]

theorem Members.IsMapAt.cases {m : Members} (h : m.IsMapAt name) :
    (m.get? name = none ∧ m.part name = []) ∨ m.get? name = some (.map (m.part name)) := by
  unfold Members.part
  cases hget : m.get? name with
  | none => exact .inl ⟨rfl, rfl⟩
  | some v =>
    obtain ⟨members, rfl⟩ := h v hget
    exact .inr rfl

section Parts

variable (hbase : base.IsMapAt name) (hupper : upper.IsMapAt name) (hkeyed : upper.IsKeyed)

include hbase hupper hkeyed

theorem isMapAt_merged : (merged base upper).IsMapAt name := by
  intro v hv
  rw [get?_merged hkeyed.keys] at hv
  rcases hbase.cases with ⟨hb, -⟩ | hb <;> rcases hupper.cases with ⟨hu, -⟩ | hu <;>
    rw [hb, hu] at hv <;> cases hv
  · exact ⟨_, rfl⟩
  · exact ⟨_, rfl⟩
  · exact ⟨merged (base.part name) (upper.part name), by rw [mergedValue]⟩

/-- A key in a part of a map that lies over another. -/
theorem get?_part_merged : ((merged base upper).part name).get? key =
    overlaid ((base.part name).get? key) ((upper.part name).get? key) := by
  have hget : (merged base upper).get? name = overlaid (base.get? name) (upper.get? name) :=
    get?_merged hkeyed.keys
  rcases hbase.cases with ⟨hb, hbnil⟩ | hb <;> rcases hupper.cases with ⟨hu, hunil⟩ | hu <;>
    rw [hb, hu] at hget
  · rw [Members.part_of_none hget, hbnil, hunil]
    rfl
  · rw [Members.part_of_map hget, hbnil]
    cases (upper.part name).get? key <;> rfl
  · rw [Members.part_of_map hget, hunil]
    rfl
  · rw [overlaid, mergedValue] at hget
    rw [Members.part_of_map hget]
    exact get?_merged (hkeyed.parts name)

end Parts

theorem Members.IsKeyed.merged (hbase : base.IsKeyed) (hupper : upper.IsKeyed) :
    Members.IsKeyed (merged base upper) where
  keys := nodup_keys_merged hbase.keys
  parts name := by
    have hb := hbase.parts name
    have hu := hupper.parts name
    unfold Members.part at hb hu ⊢
    rw [get?_merged hupper.keys]
    cases hbget : base.get? name with
    | none => cases huget : upper.get? name <;> rw [huget] at hu <;> exact hu
    | some l =>
      rw [hbget] at hb
      cases huget : upper.get? name with
      | none => exact hb
      | some u =>
        rw [huget] at hu
        cases u with
        | map overlay =>
          cases l with
          | map base => simpa only [overlaid, mergedValue] using nodup_keys_merged hb
          | _ => simpa only [overlaid, mergedValue] using hu
        | _ => simp [overlaid, mergedValue, Members.keys]

end CodeIndex.Value
