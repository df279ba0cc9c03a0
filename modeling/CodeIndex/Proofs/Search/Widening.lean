import CodeIndex.Proofs.Search.Answer
import CodeIndex.Proofs.Store.Finding

/-!
# Searching with and without the line search

One store is asked one query twice, with the line search and without it.  The second answer is the hits of
the index.  The first begins with them as long as no two of them are at one place: results at the place of
an earlier one are dropped from the hits as well as from the matches, and an index may well have two
entities that begin on one line.  If the line search has no occasion to run the answers are the same.
-/

namespace CodeIndex.Workspace

open LineSearch (firstOfEach firstOfEach_of_pairwise firstOfEach_pairwise prefix_firstOfEach
  firstOfEach_sublist)
open Search (Result)

/-! ## Cutting merged results off -/

/-- The hits that are shown, of those at one place the first, come first in what is merged. -/
theorem prefix_firstOfEach_take (hits more : List Result) (n : Nat) :
    firstOfEach Result.place (hits.take n) <+: (firstOfEach Result.place (hits ++ more)).take n := by
  rw [List.prefix_take_iff]
  constructor
  · have hsplit : hits ++ more = hits.take n ++ (hits.drop n ++ more) := by
      rw [← List.append_assoc, List.take_append_drop]
    rw [hsplit]
    exact prefix_firstOfEach _ _ _
  · exact Nat.le_trans (firstOfEach_sublist _ _).length_le (List.length_take_le _ _)

/-- All the hits that are shown come first in what is merged just if no two of them are at one place. -/
theorem take_prefix_iff (hits more : List Result) (n : Nat) :
    hits.take n <+: (firstOfEach Result.place (hits ++ more)).take n ↔
      (hits.take n).Pairwise fun a b => a.place ≠ b.place := by
  constructor
  · intro h
    exact (firstOfEach_pairwise Result.place (hits ++ more)).sublist
      (h.sublist.trans (List.take_sublist _ _))
  · intro h
    have hprefix := prefix_firstOfEach_take hits more n
    rwa [firstOfEach_of_pairwise h] at hprefix

/-! ## The two answers -/

section Answers

variable {engine : Engine} {query : String} {k : Option Int} {w w₁ : Workspace}
  {hits : List Store.Hit}

/-- Without the line search the hits are the answer, however few they are. -/
theorem answer_without {n : Int} (hn : k.getD engine.settings.defaultCount = n) (hpos : 0 < n)
    (hindex : (engine.index query (Search.limitOf n)).on w = (.ok hits, w₁)) :
    ((engine.search query k (some false)).on w).1 =
      .ok ((hits.map Result.ofHit).take (Search.limitOf n).toNat) := by
  have hlimit : 0 ≤ Search.limitOf n := Int.le_min.mpr ⟨Int.le_of_lt hpos, by decide⟩
  have henough : Search.isEnough engine.settings hits
      ((some false).getD engine.settings.useFallback) = true := (isEnough_iff _ _ _).mpr (.inr rfl)
  rw [on_search_of_enough hn hpos hindex (.inl henough), firsts_of_nonneg hlimit]

/-- With a line search that answers, its results come behind few hits, and of the results at one place
the first stays. -/
theorem answer_with {lines : String → Action (List LineSearch.Match)}
    (hlines : engine.lines = some lines)
    (hanswers : ∀ w, ∃ found, ((lines query).on w).1 = .ok found) {n : Int}
    (hn : k.getD engine.settings.defaultCount = n) (hpos : 0 < n)
    (hindex : (engine.index query (Search.limitOf n)).on w = (.ok hits, w₁))
    (hfew : hits.length < engine.settings.minIndexResults) :
    ∃ more, ((engine.search query k (some true)).on w).1 =
      .ok ((firstOfEach Result.place (hits.map Result.ofHit ++ more)).take
        (Search.limitOf n).toNat) := by
  have hlimit : 0 ≤ Search.limitOf n := Int.le_min.mpr ⟨Int.le_of_lt hpos, by decide⟩
  have hnot : Search.isEnough engine.settings hits
      ((some true).getD engine.settings.useFallback) = false := by
    rw [← Bool.not_eq_true, isEnough_iff]
    simp only [Option.getD_some, Bool.true_eq_false, or_false]
    omega
  obtain ⟨found, hfound⟩ := hanswers w₁
  obtain ⟨w₂, hon⟩ := on_search_of_found hn hpos hindex hnot hlines (Prod.ext hfound rfl)
  rw [Search.together, LineSearch.distinctBy_eq_firstOfEach, firsts_of_nonneg hlimit] at hon
  exact ⟨_, congrArg Prod.fst hon⟩

end Answers

/-- The answers of a search with and without a line search that answers.  Where the index fails both fail,
and where nothing is asked for or the hits are many enough they are the same.  Otherwise the answer with
the line search begins with the hits that are shown without it, those at the place of an earlier hit left
out; so it begins with all of them just if no two of them are at one place. -/
theorem widened_of_search (engine : Engine) (query : String)
    {lines : String → Action (List LineSearch.Match)} (hlines : engine.lines = some lines)
    (hanswers : ∀ w, ∃ found, ((lines query).on w).1 = .ok found) (k : Option Int) (w : Workspace) :
    let count := k.getD engine.settings.defaultCount
    let answer := fun useFallback => ((engine.search query k (some useFallback)).on w).1
    (count ≤ 0 → answer false = .ok [] ∧ answer true = .ok []) ∧
    (0 < count →
      (∀ t w₁, (engine.index query (min count 100)).on w = (.error t, w₁) →
        answer false = .error t ∧ answer true = .error t) ∧
      (∀ hits w₁, (engine.index query (min count 100)).on w = (.ok hits, w₁) →
        ∃ shown full, answer false = .ok shown ∧ answer true = .ok full ∧
          (engine.settings.minIndexResults ≤ hits.length → full = shown) ∧
          (hits.length < engine.settings.minIndexResults →
            firstOfEach Result.place shown <+: full ∧
            (shown <+: full ↔ shown.Pairwise fun a b => a.place ≠ b.place)))) := by
  intro count answer
  refine ⟨fun h => ?_, fun hpos => ⟨fun t w₁ hindex => ?_, fun hits w₁ hindex => ?_⟩⟩
  · have hnothing : ∀ useFallback, (engine.search query k useFallback).on w = (.ok [], w) :=
      fun _ => on_search_of_nonpos rfl h
    exact ⟨congrArg Prod.fst (hnothing _), congrArg Prod.fst (hnothing _)⟩
  · have hfails : ∀ useFallback, (engine.search query k useFallback).on w = (.error t, w₁) :=
      fun _ => on_search_of_index_error rfl hpos hindex
    exact ⟨congrArg Prod.fst (hfails _), congrArg Prod.fst (hfails _)⟩
  have hwithout := answer_without rfl hpos hindex
  by_cases hmany : engine.settings.minIndexResults ≤ hits.length
  · have hlimit : 0 ≤ Search.limitOf count := Int.le_min.mpr ⟨Int.le_of_lt hpos, by decide⟩
    have henough : Search.isEnough engine.settings hits
        ((some true).getD engine.settings.useFallback) = true := (isEnough_iff _ _ _).mpr (.inl hmany)
    have hwith := on_search_of_enough rfl hpos hindex (.inl henough)
    rw [firsts_of_nonneg hlimit] at hwith
    exact ⟨_, _, hwithout, congrArg Prod.fst hwith, fun _ => rfl,
      fun hfew => absurd hmany (Nat.not_le.mpr hfew)⟩
  · obtain ⟨more, hwith⟩ := answer_with hlines hanswers rfl hpos hindex (Nat.not_le.mp hmany)
    exact ⟨_, _, hwithout, hwith, fun h => absurd h hmany,
      fun _ => ⟨prefix_firstOfEach_take _ _ _, take_prefix_iff _ _ _⟩⟩

/-- A search whose index has two hits, which are fewer than wanted, and a match where the first hit is. -/
def sparse : Engine where
  settings := { minIndexResults := 3 }
  layout := {}
  index _ _ :=
    let e : Entity := { id := "x", container := "A", name := "f", arity := 1, path := "lib/a.ex"
                        startLine := 3, endLine := 4, lexicalText := "" }
    return [{ entity := e, score := 1 }, { entity := { e with id := "y", startLine := 7 }, score := 1 }]
  lines := some fun _ =>
    return [{ path := "lib/a.ex", line := 3, text := "def f(x)", score := 1 },
      { path := "lib/b.ex", line := 1, text := "f(1)", score := 2 }]

/-- Its hits are at two places, so both stay in front. -/
theorem widened_of_sparse :
    ∃ shown full,
      ((sparse.search "f" none (some false)).on bare).1 = .ok shown ∧
      ((sparse.search "f" none (some true)).on bare).1 = .ok full ∧
      shown.map Result.place = [("lib/a.ex", 3), ("lib/a.ex", 7)] ∧ shown <+: full := by
  obtain ⟨-, h⟩ := widened_of_search sparse "f" rfl (fun _ => ⟨_, rfl⟩) none bare
  obtain ⟨shown, full, hwithout, hwith, -, hfew⟩ := (h (by decide)).2 _ _ rfl
  have hplaces : shown.map Result.place = [("lib/a.ex", 3), ("lib/a.ex", 7)] := by
    cases hwithout
    decide
  refine ⟨shown, full, hwithout, hwith, hplaces, (hfew (by decide)).2.mpr ?_⟩
  have hapart : (shown.map Result.place).Pairwise (· ≠ ·) := by
    rw [hplaces]
    decide
  exact List.pairwise_map.mp hapart

/-! ## Two entities on one line -/

/-- The tables of a store with two entities that begin on one line. -/
def crowdedTables : Store.Tables :=
  let e : Entity := { id := "x", container := "A", name := "f", arity := 1, path := "lib/a.ex"
                      startLine := 3, endLine := 3, lexicalText := "f" }
  Store.Tables.insert {} [e, { e with id := "y", arity := 2 }]

/-- A workspace with this store, in which two hits are fewer than wanted. -/
def crowded : Workspace where
  tree := .dir [("p", .dir [(".contextdex",
    .dir [("index.db", .file (.database (.ofTables crowdedTables)) false)])])]
  root := ⟨"/", ["p"]⟩
  home := { own := ⟨"/", []⟩ }
  settings := { search := { minIndexResults := 3 } }

/-- A search of the crowded store finds both entities, in one order or the other. -/
theorem hits_of_crowded :
    ∃ a b s, (Store.search (.whole "f") 10).on crowded.store = (.ok [a, b], s) ∧
      (Result.ofHit a).place = (Result.ofHit b).place := by
  have ht : crowded.store.disk.tables? = some crowdedTables := by decide +kernel
  have hnormal : ∀ e ∈ crowdedTables.entities, e.IsNormal := by decide +kernel
  have hmatches : ((FullText.Query.ofString? "f").map fun q =>
      (crowdedTables.texts.filter q.accepts).filterMap fun r => crowdedTables.find? r.id) =
        some crowdedTables.entities := by decide +kernel
  obtain ⟨q, hq, hrows⟩ := Option.map_eq_some_iff.mp hmatches
  have hon : (Store.search (.whole "f") 10).on crowded.store = _ :=
    Store.on_search_ok ht hnormal (by decide) (by decide) (by decide) hq
  have hperm := Store.Tables.search_perm crowdedTables q
  rw [hrows] at hperm
  -- what the rows count for is left open, and so is which of the two comes first
  obtain ⟨a, b, hfound⟩ : ∃ a b, crowdedTables.search q = [a, b] := by
    rw [← List.length_eq_two, ← List.length_map Prod.fst, hperm.length_eq]
    rfl
  rw [hfound] at hon hperm
  refine ⟨_, _, _, hon, ?_⟩
  have hplace : ∀ e ∈ [a.1, b.1], (e.path, (e.startLine : Int)) = ("lib/a.ex", 3) := by
    intro e he
    exact (by decide : ∀ e ∈ crowdedTables.entities, (e.path, (e.startLine : Int)) = ("lib/a.ex", 3))
      e (hperm.mem_iff.mp he)
  exact (hplace a.1 (by simp)).trans (hplace b.1 (by simp)).symm

/-- The hits that are shown without the line search need not come first with it: of two entities that
begin on one line the second is lost, though the line search finds nothing. -/
theorem not_prefix_of_search :
    ¬∀ (w : Workspace) (found : List LineSearch.Match) (query : String) (k : Option Int)
      (shown full : List Result),
      let engine : Engine := { w.engine with lines := some fun _ => return found }
      ((engine.search query k (some false)).on w).1 = .ok shown →
        ((engine.search query k (some true)).on w).1 = .ok full → shown <+: full := by
  intro h
  obtain ⟨a, b, s, hon, hplace⟩ := hits_of_crowded
  let engine : Engine := { crowded.engine with lines := some fun _ => return [] }
  have hindex : (engine.index "f" 10).on crowded = (.ok [a, b], crowded.withStore s) := by
    change (onStore (Store.search (.whole "f") 10)).on crowded = _
    rw [on_onStore, hon]
  have hwithout := answer_without (k := some 10) rfl (by decide) hindex
  have hfew : [a, b].length < engine.settings.minIndexResults := Nat.lt_succ_self 2
  obtain ⟨more, hwith⟩ := answer_with (k := some 10) rfl (fun _ => ⟨_, rfl⟩) rfl (by decide) hindex hfew
  have hprefix := (take_prefix_iff _ _ _).mp (h crowded [] "f" (some 10) _ _ hwithout hwith)
  -- both hits are shown, and they are at one place
  exact (List.pairwise_cons.mp hprefix).1 _ List.mem_cons_self hplace

end CodeIndex.Workspace
