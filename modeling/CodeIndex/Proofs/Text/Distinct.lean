import CodeIndex.Text.Pieces
import Mathlib.Data.List.Nodup

/-!
# Lists without repeats, and lists in order

`distinct` keeps the first occurrence of each item: it is the list library's `eraseDups`.  Putting items
in order neither adds nor loses any.
-/

namespace CodeIndex.Text

variable {α : Type} [BEq α] [LawfulBEq α]

/-- Removing repeats with some items already seen keeps what is new, without its own repeats. -/
theorem distinctFrom_eq (seen items : List α) :
    items.foldl (fun seen x => if seen.contains x then seen else seen ++ [x]) seen =
      seen ++ (items.filter fun x => !seen.contains x).eraseDups := by
  induction items generalizing seen with
  | nil => simp
  | cons x rest ih =>
    rw [List.foldl_cons, ih]
    by_cases hx : seen.contains x
    · rw [if_pos hx, List.filter_cons_of_neg (by simp only [hx]; decide)]
    · rw [if_neg hx, List.filter_cons_of_pos (by simp only [hx]; decide), List.eraseDups_cons,
        List.filter_filter, List.append_assoc, List.singleton_append]
      congr 4
      funext y
      simp only [List.contains_eq_mem, List.mem_append, List.mem_singleton]
      by_cases h : y = x <;> by_cases h' : y ∈ seen <;> simp [h, h']

theorem distinct_eq_eraseDups (items : List α) : distinct items = items.eraseDups := by
  unfold distinct
  rw [distinctFrom_eq, List.nil_append, List.filter_eq_self.mpr (by simp)]

theorem distinct_cons (x : α) (rest : List α) :
    distinct (x :: rest) = x :: distinct (rest.filter fun y => !y == x) := by
  rw [distinct_eq_eraseDups, distinct_eq_eraseDups, List.eraseDups_cons]

@[simp] theorem mem_distinct {items : List α} {x : α} : x ∈ distinct items ↔ x ∈ items := by
  rw [distinct_eq_eraseDups, List.mem_eraseDups]

theorem nodup_distinct (items : List α) : (distinct items).Nodup := by
  unfold distinct
  suffices h : ∀ seen : List α, seen.Nodup →
      (items.foldl (fun seen x => if seen.contains x then seen else seen ++ [x]) seen).Nodup from
    h [] List.nodup_nil
  induction items with
  | nil => exact fun seen h => h
  | cons x rest ih =>
    intro seen h
    rw [List.foldl_cons]
    apply ih
    split
    · exact h
    · rename_i hx
      rw [List.contains_iff_mem] at hx
      exact List.nodup_append.mpr ⟨h, List.nodup_singleton x, by
        intro a ha b hb
        rw [List.mem_singleton] at hb
        subst hb
        exact fun e => hx (e ▸ ha)⟩

theorem distinct_of_nodup {items : List α} (h : items.Nodup) : distinct items = items := by
  induction items with
  | nil => rfl
  | cons x rest ih =>
    rw [List.nodup_cons] at h
    have hrest : rest.filter (fun y => !y == x) = rest :=
      List.filter_eq_self.mpr fun y hy => by
        have hne : y ≠ x := fun he => h.1 (he ▸ hy)
        simpa using hne
    rw [distinct_cons, hrest, ih h.2]

theorem distinct_distinct_append (first second : List α) :
    distinct (distinct first ++ second) = distinct (first ++ second) := by
  have hfirst : distinct (distinct first) = distinct first := distinct_of_nodup (nodup_distinct first)
  unfold distinct at hfirst ⊢
  rw [List.foldl_append, List.foldl_append, hfirst]

/-- What comes second adds only what is not among the first. -/
theorem distinct_append (first second : List α) :
    distinct (first ++ second) = distinct first ++ distinct (second.filter fun x => !first.contains x) := by
  have hseen : ∀ x, (distinct first).contains x = first.contains x := by
    intro x
    rw [Bool.eq_iff_iff, List.contains_iff_mem, List.contains_iff_mem, mem_distinct]
  have hfold : distinct (first ++ second) =
      second.foldl (fun seen x => if seen.contains x then seen else seen ++ [x]) (distinct first) :=
    List.foldl_append
  rw [hfold, distinctFrom_eq, distinct_eq_eraseDups (second.filter _)]
  simp only [hseen]

theorem distinct_perm {first second : List α}
    (h : first.Perm second) : (distinct first).Perm (distinct second) := by
  rw [List.perm_ext_iff_of_nodup (nodup_distinct _) (nodup_distinct _)]
  intro x
  rw [mem_distinct, mem_distinct]
  exact h.mem_iff

/-- Dropping repeats and picking can change places. -/
theorem filter_distinct (p : α → Bool) (items : List α) :
    (distinct items).filter p = distinct (items.filter p) := by
  induction h : items.length using Nat.strongRecOn generalizing items with
  | ind n ih =>
    cases items with
    | nil => rfl
    | cons x rest =>
      have hrest : (rest.filter fun y => !y == x).length < n := by
        have := List.length_filter_le (fun y => !y == x) rest
        rw [← h, List.length_cons]
        omega
      rw [distinct_cons]
      by_cases hx : p x
      · rw [List.filter_cons_of_pos hx, List.filter_cons_of_pos hx, distinct_cons,
          ih _ hrest _ rfl, List.filter_filter, List.filter_filter]
        simp only [Bool.and_comm]
      · -- dropping the occurrences of an item that the test rejects anyway is no loss
        rw [List.filter_cons_of_neg hx, List.filter_cons_of_neg hx, ih _ hrest _ rfl,
          List.filter_filter]
        congr 1
        apply List.filter_congr
        intro y _
        by_cases hy : y = x
        · subst hy; simp [hx]
        · simp [hy]

theorem distinct_append_distinct (first second : List α) :
    distinct (first ++ distinct second) = distinct (first ++ second) := by
  have hsecond : ∀ items : List α, distinct (distinct items) = distinct items := fun items =>
    distinct_of_nodup (nodup_distinct items)
  rw [distinct_append, filter_distinct, hsecond, ← distinct_append]

theorem map_distinct {β : Type} [BEq β] [LawfulBEq β] {f : α → β} (hf : Function.Injective f)
    (items : List α) : (distinct items).map f = distinct (items.map f) := by
  unfold distinct
  suffices h : ∀ seen : List α,
      (items.foldl (fun seen x => if seen.contains x then seen else seen ++ [x]) seen).map f =
        (items.map f).foldl (fun seen x => if seen.contains x then seen else seen ++ [x])
          (seen.map f) from h []
  induction items with
  | nil => exact fun seen => rfl
  | cons x rest ih =>
    intro seen
    rw [List.foldl_cons, ih, List.map_cons, List.foldl_cons]
    have hx : (seen.map f).contains (f x) = seen.contains x := by
      rw [Bool.eq_iff_iff, List.contains_iff_mem, List.contains_iff_mem, List.mem_map]
      exact ⟨fun ⟨y, hy, e⟩ => hf e ▸ hy, fun hy => ⟨x, hy, rfl⟩⟩
    rw [hx]
    split
    · rfl
    · rw [List.map_append, List.map_singleton]

/-! ## Lists in order -/

theorem mem_insertBy {α : Type} {le : α → α → Bool} {x y : α} {items : List α} :
    y ∈ insertBy le x items ↔ y = x ∨ y ∈ items := by
  induction items with
  | nil => rw [insertBy, List.mem_singleton, or_iff_left List.not_mem_nil]
  | cons z rest ih =>
    rw [insertBy]
    split
    · rw [List.mem_cons]
    · rw [List.mem_cons, ih, List.mem_cons, or_left_comm]

@[simp] theorem mem_sortedBy {α : Type} {le : α → α → Bool} {x : α} {items : List α} :
    x ∈ sortedBy le items ↔ x ∈ items := by
  unfold sortedBy
  induction items with
  | nil => rfl
  | cons y rest ih => rw [List.foldr_cons, mem_insertBy, ih, List.mem_cons]

theorem map_insertBy {α β : Type} {f : α → β} {le : α → α → Bool} {le' : β → β → Bool}
    (h : ∀ a b, le' (f a) (f b) = le a b) (x : α) (items : List α) :
    (insertBy le x items).map f = insertBy le' (f x) (items.map f) := by
  induction items with
  | nil => rfl
  | cons y rest ih =>
    rw [List.map_cons, insertBy, insertBy, h]
    split
    · rfl
    · rw [List.map_cons, ih]

theorem map_sortedBy {α β : Type} {f : α → β} {le : α → α → Bool} {le' : β → β → Bool}
    (h : ∀ a b, le' (f a) (f b) = le a b) (items : List α) :
    (sortedBy le items).map f = sortedBy le' (items.map f) := by
  unfold sortedBy
  induction items with
  | nil => rfl
  | cons x rest ih => rw [List.foldr_cons, map_insertBy h, ih, List.map_cons, List.foldr_cons]

end CodeIndex.Text
