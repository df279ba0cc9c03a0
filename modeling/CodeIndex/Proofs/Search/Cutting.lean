import CodeIndex.Proofs.Search.Ranking
import Mathlib.Data.List.Perm.Subperm

/-!
# Cutting the matches off early

Of the matches of the line search only the best are handed on, as many as results are asked for, before
anyone has looked at which of them are where the index has a hit.  Those are dropped afterwards, and their
slots are gone.  The answer is none the worse for it: no two matches are at one place, so that each match
that is dropped has a place among the hits to itself, and the hits of these places fill the slots.
-/

namespace CodeIndex

open LineSearch (Match best byScore firstOfEach firstOfEach_append firstOfEach_sublist firsts
  map_firstOfEach)

def LineSearch.Match.place (m : Match) : String × Int :=
  (m.path, m.line)

namespace Search

/-! ## Counting places -/

section

variable {α β : Type} [BEq β] [LawfulBEq β] {key : α → β} {more : List α}

/-- Among items of which no two have one key, no more have one of some keys than there are such keys. -/
theorem length_filter_contains_le (h : more.Pairwise fun x y => key x ≠ key y) (keys : List β) :
    (more.filter fun x => keys.contains (key x)).length ≤ (Text.distinct keys).length := by
  have hnodup : ((more.filter fun x => keys.contains (key x)).map key).Nodup :=
    List.pairwise_map.mpr (h.sublist List.filter_sublist)
  have hsubset : (more.filter fun x => keys.contains (key x)).map key ⊆ Text.distinct keys := by
    intro k hk
    obtain ⟨x, hx, rfl⟩ := List.mem_map.mp hk
    rw [Text.mem_distinct, ← List.contains_iff_mem]
    exact (List.mem_filter.mp hx).2
  rw [← List.length_map key]
  exact (hnodup.subperm hsubset).length_le

/-- What follows other items may be cut off at some length before the keys are compared, if that is where
the whole is cut off afterwards. -/
theorem take_firstOfEach_append_take (h : more.Pairwise fun x y => key x ≠ key y) (items : List α)
    (n : Nat) :
    (firstOfEach key (items ++ more.take n)).take n = (firstOfEach key (items ++ more)).take n := by
  rcases Nat.le_total more.length n with hshort | hlong
  · rw [List.take_of_length_le hshort]
  rw [firstOfEach_append (h.sublist (List.take_sublist _ _)), firstOfEach_append h, List.take_append,
    List.take_append]
  congr 1
  -- the first part has one item for each key, and for each item that is dropped of the first `n`
  have hkept : n ≤ (firstOfEach key items).length +
      ((more.take n).filter fun x => !(items.map key).contains (key x)).length := by
    have hdropped := length_filter_contains_le (h.sublist (List.take_sublist n more)) (items.map key)
    have hparts := (more.take n).length_eq_length_filter_add fun x => (items.map key).contains (key x)
    rw [← map_firstOfEach, List.length_map] at hdropped
    rw [List.length_take_of_le hlong] at hparts
    omega
  obtain ⟨rest, hrest⟩ := (List.take_prefix n more).filter fun x => !(items.map key).contains (key x)
  rw [← hrest, List.take_append_of_le_length (by omega)]

end

/-! ## The answer -/

section

variable {layout : Settings.Index} {hits : List Store.Hit} {found : List Match}

theorem pairwise_place_byScore (h : (found.map Match.place).Nodup) :
    ((byScore found).map (Result.ofMatch layout)).Pairwise fun a b => a.place ≠ b.place := by
  have hnodup : ((byScore found).map Match.place).Nodup :=
    (((LineSearch.isRanking_byScore found).perm.map Match.place).nodup_iff).mpr h
  exact List.pairwise_map.mpr (List.pairwise_map.mp hnodup)

/-- A result that may stand before a match: a hit, or a match that is no worse. -/
def Outranks (layout : Settings.Index) (hits : List Store.Hit) (found : List Match) (m : Match)
    (r : Result) : Prop :=
  (∃ hit ∈ hits, r = Result.ofHit hit) ∨
    ∃ m' ∈ found, r = Result.ofMatch layout m' ∧ m.score ≤ m'.score

theorem pairwise_outranks (h : (found.map Match.place).Nodup) {m : Match} (hm : m ∈ found) :
    (together layout hits (byScore found)).Pairwise fun a b =>
      b = Result.ofMatch layout m → Outranks layout hits found m a := by
  have hranking := LineSearch.isRanking_byScore found
  rw [together, LineSearch.distinctBy_eq_firstOfEach]
  refine List.Pairwise.sublist (firstOfEach_sublist _ _) (List.pairwise_append.mpr ⟨?_, ?_, ?_⟩)
  · apply List.pairwise_of_forall_mem_list
    intro a ha _ _ _
    obtain ⟨hit, hhit, rfl⟩ := List.mem_map.mp ha
    exact .inl ⟨hit, hhit, rfl⟩
  · refine List.pairwise_map.mpr (hranking.falling.imp_of_mem ?_)
    intro a b ha hb hfalling hresult
    -- no other match is at the place of this one
    have hplace : b.place = m.place := congrArg Result.place hresult
    obtain rfl : b = m := List.inj_on_of_nodup_map h (hranking.perm.mem_iff.mp hb) hm hplace
    exact .inr ⟨a, hranking.perm.mem_iff.mp ha, rfl, hfalling⟩
  · intro a ha _ _ _
    obtain ⟨hit, hhit, rfl⟩ := List.mem_map.mp ha
    exact .inl ⟨hit, hhit, rfl⟩

theorem mem_together_of_apart (h : (found.map Match.place).Nodup) {m : Match} (hm : m ∈ found)
    (happart : ∀ hit ∈ hits, (Result.ofHit hit).place ≠ m.place) :
    Result.ofMatch layout m ∈ together layout hits (byScore found) := by
  rw [together, LineSearch.distinctBy_eq_firstOfEach, firstOfEach_append (pairwise_place_byScore h)]
  refine List.mem_append_right _ (List.mem_filter.mpr ⟨List.mem_map_of_mem ?_, ?_⟩)
  · exact (LineSearch.isRanking_byScore found).perm.mem_iff.mpr hm
  · rw [Bool.not_eq_true', ← Bool.not_eq_true, List.contains_iff_mem, List.map_map]
    intro hmem
    obtain ⟨hit, hhit, hplace⟩ := List.mem_map.mp hmem
    exact happart hit hhit hplace

end

/-- Matches of which no two are at one place may be cut off at the limit before they are put behind the
hits: the answer is as without that.  A match where no hit is belongs in the answer, unless that is full of
hits and of matches that are no worse; and so it is there. -/
theorem firsts_together_best (layout : Settings.Index) (hits : List Store.Hit) {found : List Match}
    (h : (found.map Match.place).Nodup) {limit : Int} (hlimit : 1 ≤ limit) :
    let answer := firsts limit (together layout hits (best limit found))
    answer = firsts limit (together layout hits (byScore found)) ∧
      ∀ m ∈ found, (∀ hit ∈ hits, (Result.ofHit hit).place ≠ m.place) →
        Result.ofMatch layout m ∈ answer ∨
          answer.length = limit ∧ ∀ r ∈ answer, Outranks layout hits found m r := by
  have hfirsts : ∀ {α : Type} (items : List α), firsts limit items = items.take limit.toNat :=
    fun _ => if_pos (by omega)
  have hcut : firsts limit (together layout hits (best limit found)) =
      (together layout hits (byScore found)).take limit.toNat := by
    rw [hfirsts, best, hfirsts, together, together, LineSearch.distinctBy_eq_firstOfEach,
      LineSearch.distinctBy_eq_firstOfEach, List.map_take]
    exact take_firstOfEach_append_take (pairwise_place_byScore h) _ _
  intro answer
  have hanswer : answer = (together layout hits (byScore found)).take limit.toNat := hcut
  rw [hanswer, hfirsts]
  refine ⟨rfl, fun m hm happart => ?_⟩
  have hmem : Result.ofMatch layout m ∈ together layout hits (byScore found) :=
    mem_together_of_apart h hm happart
  have houtranks : (together layout hits (byScore found)).Pairwise fun a b =>
      b = Result.ofMatch layout m → Outranks layout hits found m a :=
    pairwise_outranks h hm
  rw [← List.take_append_drop limit.toNat (together layout hits (byScore found))] at hmem houtranks
  refine (List.mem_append.mp hmem).imp_right fun hdropped => ?_
  have hlong : limit.toNat < (together layout hits (byScore found)).length := by
    have := List.length_pos_of_mem hdropped
    rw [List.length_drop] at this
    omega
  constructor
  · rw [List.length_take_of_le (Nat.le_of_lt hlong)]
    omega
  · exact fun r hr => (List.pairwise_append.mp houtranks).2.2 r hr _ hdropped rfl

def indexed : Store.Hit :=
  { entity := { id := "x", container := "A", name := "f", arity := 1, path := "lib/a.ex", startLine := 3
                endLine := 4, lexicalText := "" }
    score := 1 }

/-- Three matches, the best of which is where the hit is. -/
def shadowed : List Match :=
  [{ path := "lib/b.ex", line := 1, text := "f(1)", score := 120 },
    { path := "lib/a.ex", line := 3, text := "def f(x)", score := 170 },
    { path := "lib/c.ex", line := 9, text := "def f(y)", score := 150 }]

/-- The best match takes one of two slots in vain, and the second best still has its place in the
answer. -/
theorem firsts_together_best_shadowed :
    let answer := firsts 2 (together {} [indexed] (best 2 shadowed))
    answer = firsts 2 (together {} [indexed] (byScore shadowed)) ∧
      answer.map Result.place = [("lib/a.ex", 3), ("lib/c.ex", 9)] := by
  intro answer
  have hsorted : byScore shadowed = [{ path := "lib/a.ex", line := 3, text := "def f(x)", score := 170 },
      { path := "lib/c.ex", line := 9, text := "def f(y)", score := 150 },
      { path := "lib/b.ex", line := 1, text := "f(1)", score := 120 }] :=
    LineSearch.byScore_eq_of_perm (by decide) (by decide)
  have hanswer : answer = firsts 2 (together {} [indexed] (byScore shadowed)) :=
    (firsts_together_best {} [indexed] (by decide) (by decide)).1
  refine ⟨hanswer, ?_⟩
  rw [hanswer, hsorted]
  decide

end Search

end CodeIndex
