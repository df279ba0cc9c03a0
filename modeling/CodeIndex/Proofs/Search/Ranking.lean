import CodeIndex.Proofs.Text.Distinct
import CodeIndex.Search.Result
import Mathlib.Data.List.Basic

/-!
# Ranking matches and keeping the first at each place

Ordering matches by falling score keeps those of one score in the order in which they were found, which
is all there is to say about the order.  What is kept of a list of results is, of those at one place, the
one with nothing at that place before it.
-/

namespace CodeIndex

namespace LineSearch

/-! ## Falling scores -/

/-- Matches in non-increasing order of their scores, those of one score in the order found. -/
structure IsRanking (found ranked : List Match) : Prop where
  falling : ranked.Pairwise fun a b => b.score ≤ a.score
  stable : ∀ n, ranked.filter (·.score == n) = found.filter (·.score == n)

/-- A ranking has exactly the matches found. -/
theorem IsRanking.perm {found ranked : List Match} (h : IsRanking found ranked) :
    ranked.Perm found := by
  rw [List.perm_iff_count]
  intro m
  rw [← List.count_filter (p := (·.score == m.score)) (by simp), h.stable, List.count_filter (by simp)]

/-- The matches by score are a ranking of the matches that were found. -/
theorem isRanking_byScore (found : List Match) : IsRanking found (byScore found) := by
  have htrans : ∀ a b c : Match, decide (b.score ≤ a.score) = true →
      decide (c.score ≤ b.score) = true → decide (c.score ≤ a.score) = true := by
    intro a b c hab hbc
    rw [decide_eq_true_eq] at *
    omega
  have htotal : ∀ a b : Match,
      (decide (b.score ≤ a.score) || decide (a.score ≤ b.score)) = true := by
    intro a b
    rw [Bool.or_eq_true, decide_eq_true_eq, decide_eq_true_eq]
    omega
  constructor
  · exact (List.pairwise_mergeSort htrans htotal found).imp of_decide_eq_true
  · intro n
    -- those of one score are in order as they stand, and a sort keeps what is in order
    have hsame : (found.filter (·.score == n)).Pairwise fun a b =>
        decide (b.score ≤ a.score) = true := by
      apply List.pairwise_of_forall_mem_list
      intro a ha b hb
      have hna := (List.mem_filter.mp ha).2
      have hnb := (List.mem_filter.mp hb).2
      rw [beq_iff_eq] at hna hnb
      rw [decide_eq_true_eq]
      omega
    have hkept := (List.sublist_mergeSort htrans htotal hsame List.filter_sublist).filter (·.score == n)
    rw [List.filter_filter] at hkept
    simp only [Bool.and_self] at hkept
    have hlength := ((List.mergeSort_perm found fun a b => b.score ≤ a.score).filter
      (·.score == n)).length_eq
    exact (hkept.eq_of_length hlength.symm).symm

/-- There is only one ranking of what was found. -/
theorem IsRanking.eq_of {found ranked ranked' : List Match} (h : IsRanking found ranked)
    (h' : IsRanking found ranked') : ranked = ranked' := by
  have hsame : ∀ n, ranked.filter (·.score == n) = ranked'.filter (·.score == n) :=
    fun n => (h.stable n).trans (h'.stable n).symm
  have hmem : ∀ {a b : List Match}, (∀ n, a.filter (·.score == n) = b.filter (·.score == n)) →
      ∀ m ∈ a, m ∈ b := by
    intro a b hab m hm
    have hm' : m ∈ a.filter (·.score == m.score) := List.mem_filter.mpr ⟨hm, beq_self_eq_true _⟩
    rw [hab] at hm'
    exact (List.mem_filter.mp hm').1
  have hfalling := h.falling
  have hfalling' := h'.falling
  clear h h'
  induction ranked generalizing ranked' with
  | nil =>
    cases ranked' with
    | nil => rfl
    | cons y ys => exact absurd (hmem (fun n => (hsame n).symm) y List.mem_cons_self) List.not_mem_nil
  | cons x xs ih =>
    cases ranked' with
    | nil => exact absurd (hmem hsame x List.mem_cons_self) List.not_mem_nil
    | cons y ys =>
      obtain ⟨hx, hxs⟩ := List.pairwise_cons.mp hfalling
      obtain ⟨hy, hys⟩ := List.pairwise_cons.mp hfalling'
      -- the heads have the highest score of all, and are the first to have it
      have hle : y.score ≤ x.score := by
        rcases List.mem_cons.mp (hmem (fun n => (hsame n).symm) y List.mem_cons_self) with he | he
        · exact Int.le_of_eq (congrArg _ he)
        · exact hx y he
      have hge : x.score ≤ y.score := by
        rcases List.mem_cons.mp (hmem hsame x List.mem_cons_self) with he | he
        · exact Int.le_of_eq (congrArg _ he)
        · exact hy x he
      have hscore : y.score = x.score := Int.le_antisymm hle hge
      have hhead : x = y := by
        have := hsame x.score
        simp only [List.filter_cons, hscore, beq_self_eq_true, if_true] at this
        exact (List.cons.inj this).1
      subst hhead
      rw [ih (fun n => ?_) hxs hys]
      have := hsame n
      rw [List.filter_cons, List.filter_cons] at this
      split at this
      · exact (List.cons.inj this).2
      · exact this

/-- Matches of different scores have only one order. -/
theorem byScore_eq_of_perm {found ranked : List Match} (hperm : ranked.Perm found)
    (hfalling : ranked.Pairwise fun a b => b.score < a.score) : byScore found = ranked := by
  have h := isRanking_byScore found
  have hperm : (byScore found).Perm ranked := h.perm.trans hperm.symm
  have hscores : (ranked.map Match.score).Nodup :=
    List.pairwise_map.mpr (hfalling.imp fun hless => (Int.ne_of_lt hless).symm)
  refine hperm.eq_of_pairwise ?_ h.falling (hfalling.imp Int.le_of_lt)
  intro a b ha hb hba hab
  exact List.inj_on_of_nodup_map hscores (hperm.mem_iff.mp ha) hb (Int.le_antisymm hab hba)

/-! ## The first of each key -/

variable {α β : Type} [BEq β] [LawfulBEq β]

/-- The items at whose key no earlier item is. -/
def firstOfEach (key : α → β) (items : List α) : List α :=
  (items.zipIdx.filter fun (x, i) => !((items.take i).map key).contains (key x)).map Prod.fst

/-- Dropping repeats as they come is keeping the first of each. -/
theorem distinctBy_eq_firstOfEach (key : α → β) (items : List α) :
    distinctBy key items = firstOfEach key items := by
  unfold distinctBy firstOfEach
  -- what was passed so far are the items before the rest, and their keys are those seen
  suffices h : ∀ (rest before : List α) (seen : List β),
      (∀ k, seen.contains k = (before.map key).contains k) →
        distinctBy.go key seen rest = ((rest.zipIdx before.length).filter fun (x, i) =>
          !(((before ++ rest).take i).map key).contains (key x)).map Prod.fst from
    h items [] [] fun _ => rfl
  intro rest
  induction rest with
  | nil => exact fun _ _ _ => rfl
  | cons x rest ih =>
    intro before seen hseen
    have htail : ∀ seen' : List β,
        (∀ k, seen'.contains k = ((before.map key).contains k || k == key x)) →
        distinctBy.go key seen' rest = ((rest.zipIdx (before.length + 1)).filter fun (y, i) =>
          !(((before ++ x :: rest).take i).map key).contains (key y)).map Prod.fst := by
      intro seen' hseen'
      have hnext := ih (before ++ [x]) seen' fun k => by
        rw [hseen', List.map_append, List.contains_append, List.map_singleton, List.contains_cons,
          List.contains_nil, Bool.or_false]
      rwa [List.append_assoc, List.length_append] at hnext
    have hhead : (before ++ x :: rest).take before.length = before := List.take_left
    rw [List.zipIdx_cons, distinctBy.go]
    by_cases hx : seen.contains (key x) = true
    · rw [if_pos hx, List.filter_cons_of_neg, htail]
      · intro k
        rw [hseen]
        by_cases hk : k = key x
        · rw [hk, ← hseen, hx, Bool.true_or]
        · rw [beq_false_of_ne hk, Bool.or_false]
      · simp only [hhead, ← hseen, hx, Bool.not_true, Bool.false_eq_true, not_false_eq_true]
    · rw [if_neg hx, List.filter_cons_of_pos, List.map_cons, htail]
      · intro k
        rw [List.contains_cons, hseen, Bool.or_comm]
      · simpa only [hhead, ← hseen, Bool.not_eq_true', Bool.not_eq_true] using hx

omit [LawfulBEq β] in
theorem firstOfEach_sublist (key : α → β) (items : List α) :
    (firstOfEach key items).Sublist items := by
  have h : (firstOfEach key items).Sublist (items.zipIdx.map Prod.fst) := List.filter_sublist.map _
  rwa [List.zipIdx_map_fst] at h

/-- Of the items kept no two have one key. -/
theorem firstOfEach_pairwise (key : α → β) (items : List α) :
    (firstOfEach key items).Pairwise fun x y => key x ≠ key y := by
  rw [← distinctBy_eq_firstOfEach]
  unfold distinctBy
  suffices h : ∀ seen : List β, (∀ x ∈ distinctBy.go key seen items, seen.contains (key x) = false) ∧
      (distinctBy.go key seen items).Pairwise fun x y => key x ≠ key y from (h []).2
  induction items with
  | nil => exact fun seen => ⟨nofun, .nil⟩
  | cons x rest ih =>
    intro seen
    rw [distinctBy.go]
    split
    · exact ih seen
    · rename_i hx
      obtain ⟨hnew, hpairwise⟩ := ih (key x :: seen)
      simp only [List.contains_cons, Bool.or_eq_false_iff, beq_eq_false_iff_ne] at hnew
      refine ⟨List.forall_mem_cons.mpr ⟨by simpa using hx, fun y hy => (hnew y hy).2⟩, ?_⟩
      exact List.pairwise_cons.mpr ⟨fun y hy => (hnew y hy).1.symm, hpairwise⟩

/-- What is kept of a list is also kept, first, when more items follow it. -/
theorem prefix_firstOfEach (key : α → β) (items more : List α) :
    firstOfEach key items <+: firstOfEach key (items ++ more) := by
  rw [← distinctBy_eq_firstOfEach, ← distinctBy_eq_firstOfEach]
  unfold distinctBy
  suffices h : ∀ seen : List β,
      distinctBy.go key seen items <+: distinctBy.go key seen (items ++ more) from h []
  induction items with
  | nil => exact fun _ => List.nil_prefix
  | cons x rest ih =>
    intro seen
    rw [List.cons_append, distinctBy.go, distinctBy.go]
    split
    · exact ih seen
    · exact (List.prefix_cons_inj x).mpr (ih (key x :: seen))

/-- Items of which no two have one key are all kept. -/
theorem firstOfEach_of_pairwise {key : α → β} {items : List α}
    (h : items.Pairwise fun x y => key x ≠ key y) : firstOfEach key items = items := by
  rw [← distinctBy_eq_firstOfEach]
  unfold distinctBy
  suffices hgo : ∀ seen : List β, (∀ x ∈ items, seen.contains (key x) = false) →
      distinctBy.go key seen items = items from hgo [] fun _ _ => rfl
  induction items with
  | nil => exact fun _ _ => rfl
  | cons x rest ih =>
    intro seen hseen
    rw [List.pairwise_cons] at h
    rw [List.forall_mem_cons] at hseen
    rw [distinctBy.go, if_neg (Bool.eq_false_iff.mp hseen.1), ih h.2]
    intro y hy
    rw [List.contains_cons, hseen.2 y hy, Bool.or_false, beq_eq_false_iff_ne]
    exact (h.1 y hy).symm

/-! ## What is kept behind other items -/

/-- Of items of which no two have one key those are dropped whose key was seen before. -/
theorem distinctBy_go_of_pairwise {key : α → β} {items : List α}
    (h : items.Pairwise fun x y => key x ≠ key y) (seen : List β) :
    distinctBy.go key seen items = items.filter fun x => !seen.contains (key x) := by
  induction items generalizing seen with
  | nil => rfl
  | cons x rest ih =>
    obtain ⟨hx, hrest⟩ := List.pairwise_cons.mp h
    rw [distinctBy.go]
    split
    · rename_i hseen
      rw [ih hrest, List.filter_cons_of_neg (by simp only [hseen, Bool.not_true]; decide)]
    · rename_i hseen
      rw [ih hrest, List.filter_cons_of_pos (by simpa using hseen)]
      congr 1
      -- the key of the head is seen by now, but no other item has it
      apply List.filter_congr
      intro y hy
      rw [List.contains_cons, beq_false_of_ne (hx y hy).symm, Bool.false_or]

theorem distinctBy_go_append {key : α → β} {items more : List α}
    (h : more.Pairwise fun x y => key x ≠ key y) (seen : List β) :
    distinctBy.go key seen (items ++ more) = distinctBy.go key seen items ++
      more.filter fun x => !(seen ++ items.map key).contains (key x) := by
  induction items generalizing seen with
  | nil =>
    rw [List.nil_append, distinctBy_go_of_pairwise h, List.map_nil, List.append_nil]
    rfl
  | cons x rest ih =>
    rw [List.cons_append, distinctBy.go, distinctBy.go]
    split
    · rename_i hseen
      rw [ih]
      congr 1
      apply List.filter_congr
      intro y _
      rw [List.contains_iff_mem] at hseen
      grind
    · rw [ih, List.cons_append]
      congr 2
      apply List.filter_congr
      intro y _
      grind

/-- Behind other items, of items of which no two have one key those are kept that have the key of none of
the others. -/
theorem firstOfEach_append {key : α → β} {items more : List α}
    (h : more.Pairwise fun x y => key x ≠ key y) :
    firstOfEach key (items ++ more) =
      firstOfEach key items ++ more.filter fun x => !(items.map key).contains (key x) := by
  rw [← distinctBy_eq_firstOfEach, ← distinctBy_eq_firstOfEach]
  exact distinctBy_go_append h []

/-- The keys of what is kept are all the keys, each once. -/
theorem map_firstOfEach (key : α → β) (items : List α) :
    (firstOfEach key items).map key = Text.distinct (items.map key) := by
  rw [← distinctBy_eq_firstOfEach]
  unfold distinctBy Text.distinct
  -- one of the two puts a new key in front of those seen, the other behind them
  suffices h : ∀ seen kept : List β, (∀ k, seen.contains k = kept.contains k) →
      kept ++ (distinctBy.go key seen items).map key =
        (items.map key).foldl (fun kept k => if kept.contains k then kept else kept ++ [k]) kept from
    h [] [] fun _ => rfl
  induction items with
  | nil => exact fun _ kept _ => List.append_nil kept
  | cons x rest ih =>
    intro seen kept hsame
    rw [distinctBy.go, List.map_cons, List.foldl_cons, ← hsame]
    split
    · exact ih seen kept hsame
    · rw [← ih (key x :: seen) (kept ++ [key x])]
      · rw [List.map_cons, List.append_assoc, List.singleton_append]
      · intro k
        rw [List.contains_cons, hsame, List.contains_append, List.contains_cons, List.contains_nil,
          Bool.or_false, Bool.or_comm]

end LineSearch

end CodeIndex
