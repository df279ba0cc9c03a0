import CodeIndex.Proofs.Search.Ranking
import CodeIndex.Proofs.Workspace.Action
import CodeIndex.Workspace.Search

/-!
# What a search answers

The index is asked first, and nothing else if it has enough, if the line search is not wanted, or if there
is none; its hits are then the answer.  So they are if the line search turns out to be unavailable.
Otherwise the best matches of the line search come after the hits, and of the results at one place only
the first is kept.  From this follow the bound on the number of results, the precedence of the index, and
that no result of the line search is where one of the index is.
-/

namespace CodeIndex.Workspace

open LineSearch (IsRanking firstOfEach firstOfEach_sublist firstOfEach_pairwise firsts)
open Search (Result)

theorem firsts_of_nonneg {α : Type} {limit : Int} (h : 0 ≤ limit) (items : List α) :
    firsts limit items = items.take limit.toNat := by
  unfold firsts
  rw [if_pos h]

theorem isEnough_iff (s : Settings.Search) (hits : List Store.Hit) (useFallback : Bool) :
    Search.isEnough s hits useFallback = true ↔
      s.minIndexResults ≤ hits.length ∨ useFallback = false := by
  unfold Search.isEnough
  rw [Bool.or_eq_true, decide_eq_true_iff, Bool.not_eq_true']

/-! ## The course of a search -/

section Course

variable {engine : Engine} {query : String} {k : Option Int} {useFallback : Option Bool}
  {w w₁ w₂ : Workspace} {n : Int} {hits : List Store.Hit}

theorem on_search_of_nonpos (hn : k.getD engine.settings.defaultCount = n) (h : n ≤ 0) :
    (engine.search query k useFallback).on w = (.ok [], w) := by
  unfold Engine.search
  simp only [hn, if_pos h, on_pure]

theorem on_search_of_index_error (hn : k.getD engine.settings.defaultCount = n) (h : 0 < n)
    {t : Trouble} (hindex : (engine.index query (Search.limitOf n)).on w = (.error t, w₁)) :
    (engine.search query k useFallback).on w = (.error t, w₁) := by
  unfold Engine.search
  simp only [hn, if_neg (Int.not_le.mpr h), on_bind, hindex]

theorem on_search_of_enough (hn : k.getD engine.settings.defaultCount = n) (h : 0 < n)
    (hindex : (engine.index query (Search.limitOf n)).on w = (.ok hits, w₁))
    (henough : Search.isEnough engine.settings hits
      (useFallback.getD engine.settings.useFallback) = true ∨ engine.lines = none) :
    (engine.search query k useFallback).on w =
      (.ok (firsts (Search.limitOf n) (hits.map Result.ofHit)), w₁) := by
  unfold Engine.search
  simp only [hn, if_neg (Int.not_le.mpr h), on_bind, hindex]
  split
  · rw [on_pure]
  · rename_i hnot
    rw [henough.resolve_left hnot]
    simp only [on_pure]

section Lines

variable {lines : String → Action (List LineSearch.Match)}
  (hn : k.getD engine.settings.defaultCount = n) (h : 0 < n)
  (hindex : (engine.index query (Search.limitOf n)).on w = (.ok hits, w₁))
  (hfew : Search.isEnough engine.settings hits
    (useFallback.getD engine.settings.useFallback) = false)
  (hlines : engine.lines = some lines)

include hn h hindex hfew hlines

theorem on_search_of_found {found : List LineSearch.Match}
    (hfound : (lines query).on w₁ = (.ok found, w₂)) :
    ∃ w₃, (engine.search query k useFallback).on w =
      (.ok (firsts (Search.limitOf n) (Search.together engine.layout hits
        (LineSearch.best (Search.limitOf n) found))), w₃) := by
  unfold Engine.search
  simp only [hn, if_neg (Int.not_le.mpr h), on_bind, hindex, hfew, Bool.false_eq_true, if_false,
    hlines, on_tryCatch, hfound, on_pure, on_log]
  exact ⟨_, rfl⟩

theorem on_search_of_unavailable {reason : String} {code : Option Int}
    (hfound : (lines query).on w₁ = (.error (.failure (.fallbackUnavailable reason code)), w₂)) :
    ∃ w₃, (engine.search query k useFallback).on w =
      (.ok (firsts (Search.limitOf n) (hits.map Result.ofHit)), w₃) := by
  unfold Engine.search
  simp only [hn, if_neg (Int.not_le.mpr h), on_bind, hindex, hfew, Bool.false_eq_true, if_false,
    hlines, on_tryCatch, hfound, on_pure, on_log]
  exact ⟨_, rfl⟩

theorem on_search_of_lines_error {t : Trouble}
    (ht : ∀ reason code, t ≠ .failure (.fallbackUnavailable reason code))
    (hfound : (lines query).on w₁ = (.error t, w₂)) :
    (engine.search query k useFallback).on w = (.error t, w₂) := by
  unfold Engine.search
  simp only [hn, if_neg (Int.not_le.mpr h), on_bind, hindex, hfew, Bool.false_eq_true, if_false,
    hlines, on_tryCatch, hfound]
  split
  · rename_i hcaught
    rw [on_throw] at hcaught
    cases (Prod.mk.inj hcaught).1
  · rename_i hcaught
    rw [on_throw] at hcaught
    obtain ⟨he, rfl⟩ := Prod.mk.inj hcaught
    injection he with he
    rw [he]

end Lines

end Course

/-! ## What the results are -/

theorem source_ofHit (h : Store.Hit) : (Result.ofHit h).source ≠ .fallback := by
  unfold Result.ofHit
  simp only
  split <;> nofun

/-- Results of the index before those of the line search, no two of which are at one place. -/
structure IsAnswer (limit : Int) (results : List Result) : Prop where
  length_le : results.length ≤ limit.toNat
  source_iff : ∀ r ∈ results, r.source = .fallback ↔ r.id = none ∧ r.arity = none ∧ r.kind = none
  split : ∃ ofIndex ofLines, results = ofIndex ++ ofLines ∧
    (∀ r ∈ ofIndex, r.source ≠ .fallback) ∧ (∀ r ∈ ofLines, r.source = .fallback) ∧
    ∀ a ∈ ofIndex, ∀ b ∈ ofLines, a.place ≠ b.place

section Results

variable {layout : Settings.Index} {hits : List Store.Hit} {found : List LineSearch.Match}
  {results : List Result} {limit : Int}

theorem source_iff_of_mem {r : Result}
    (h : r ∈ hits.map Result.ofHit ++ found.map (Result.ofMatch layout)) :
    r.source = .fallback ↔ r.id = none ∧ r.arity = none ∧ r.kind = none := by
  rcases List.mem_append.mp h with h | h
  · obtain ⟨hit, -, rfl⟩ := List.mem_map.mp h
    exact ⟨fun hs => absurd hs (source_ofHit hit), fun hid => nomatch hid.1⟩
  · obtain ⟨m, -, rfl⟩ := List.mem_map.mp h
    exact ⟨fun _ => ⟨rfl, rfl, rfl⟩, fun _ => rfl⟩

/-- Hits before matches, of which some may be left out, make an answer. -/
theorem isAnswer_of_sublist
    (h : results.Sublist (hits.map Result.ofHit ++ found.map (Result.ofMatch layout)))
    (hlength : results.length ≤ limit.toNat)
    (happart : found = [] ∨ results.Pairwise fun a b => a.place ≠ b.place) :
    IsAnswer limit results := by
  refine ⟨hlength, fun r hr => source_iff_of_mem (h.subset hr), ?_⟩
  obtain ⟨ofIndex, ofLines, rfl, hi, hl⟩ := List.sublist_append_iff.mp h
  refine ⟨ofIndex, ofLines, rfl, fun r hr => ?_, fun r hr => ?_, ?_⟩
  · obtain ⟨hit, -, rfl⟩ := List.mem_map.mp (hi.subset hr)
    exact source_ofHit hit
  · obtain ⟨m, -, rfl⟩ := List.mem_map.mp (hl.subset hr)
    rfl
  · rcases happart with rfl | happart
    · rw [List.map_nil, List.sublist_nil] at hl
      subst hl
      exact fun _ _ _ => nofun
    · exact (List.pairwise_append.mp happart).2.2

theorem isAnswer_nil : IsAnswer limit [] := by
  refine ⟨Nat.zero_le _, ?_, [], [], rfl, ?_, ?_, ?_⟩ <;> simp

theorem isAnswer_hits : IsAnswer limit ((hits.map Result.ofHit).take limit.toNat) := by
  have h : ((hits.map Result.ofHit).take limit.toNat).Sublist
      (hits.map Result.ofHit ++ ([] : List LineSearch.Match).map (Result.ofMatch {})) := by
    rw [List.map_nil, List.append_nil]
    exact List.take_sublist _ _
  exact isAnswer_of_sublist h (List.length_take_le _ _) (.inl rfl)

theorem isAnswer_firstOfEach : IsAnswer limit ((firstOfEach Result.place
    (hits.map Result.ofHit ++ found.map (Result.ofMatch layout))).take limit.toNat) :=
  isAnswer_of_sublist ((List.take_sublist _ _).trans (firstOfEach_sublist _ _))
    (List.length_take_le _ _) (.inr ((firstOfEach_pairwise _ _).sublist (List.take_sublist _ _)))

end Results

/-! ## The index of a workspace -/

/-- The index gives no more hits than are asked for. -/
theorem length_of_on_search {query : Writing} {k : Int} {s s' : Store} {hits : List Store.Hit}
    (h : (Store.search query k).on s = (.ok hits, s')) : hits.length ≤ k.toNat := by
  unfold Store.search at h
  split at h
  · cases h
    exact Nat.zero_le _
  obtain ⟨-, s₁, -, h⟩ := Store.on_bind_ok h
  obtain ⟨tables, s₂, -, h⟩ := Store.on_bind_ok h
  obtain ⟨text, s₃, -, h⟩ := Store.on_bind_ok h
  have hanswer : ∀ {found : List (Entity × Float)} {f : Entity × Float → Store.Action Store.Hit}
      {s₄ : Store}, ((found.take k.toNat).mapM f).on s₄ = (.ok hits, s') →
        hits.length ≤ k.toNat := by
    intro found f s₄ hon
    rw [Store.length_of_on_mapM hon]
    exact List.length_take_le _ _
  by_cases hrange : (!Store.isInRange k) = true
  · simp only [if_pos hrange, Store.on_bind, Store.on_mishap] at h
    cases h
  simp only [if_neg hrange] at h
  split at h
  · exact hanswer h
  · obtain ⟨-, s₄, -, h⟩ := Store.on_bind_ok h
    split at h
    · cases h
      exact Nat.zero_le _
    split at h
    · exact hanswer h
    · obtain ⟨_, s₅, -, h⟩ := Store.on_bind_ok h
      cases h

/-! ## The answer -/

/-- Every search that ends well answers with results of the index before those of the line search. -/
theorem isAnswer_of_search {engine : Engine} {query : String} {k : Option Int}
    {useFallback : Option Bool} {w w' : Workspace} {results : List Result}
    (h : (engine.search query k useFallback).on w = (.ok results, w')) :
    IsAnswer (Search.limitOf (k.getD engine.settings.defaultCount)) results := by
  obtain ⟨n, hn⟩ : ∃ n, k.getD engine.settings.defaultCount = n := ⟨_, rfl⟩
  rw [hn]
  by_cases hpos : n ≤ 0
  · rw [on_search_of_nonpos hn hpos] at h
    cases h
    exact isAnswer_nil
  have hpos := Int.not_le.mp hpos
  have hlimit : 0 ≤ Search.limitOf n := Int.le_min.mpr ⟨Int.le_of_lt hpos, by decide⟩
  rcases hindex : (engine.index query (Search.limitOf n)).on w with ⟨t | hits, w₁⟩
  · rw [on_search_of_index_error hn hpos hindex] at h
    cases h
  by_cases henough : Search.isEnough engine.settings hits
      (useFallback.getD engine.settings.useFallback) = true
  · rw [on_search_of_enough hn hpos hindex (.inl henough), firsts_of_nonneg hlimit] at h
    cases h
    exact isAnswer_hits
  have hfew := Bool.eq_false_iff.mpr henough
  cases hlines : engine.lines with
  | none =>
    rw [on_search_of_enough hn hpos hindex (.inr hlines), firsts_of_nonneg hlimit] at h
    cases h
    exact isAnswer_hits
  | some lines =>
    rcases hfound : (lines query).on w₁ with ⟨t | found, w₂⟩
    · by_cases ht : ∃ reason code, t = .failure (.fallbackUnavailable reason code)
      · obtain ⟨reason, code, rfl⟩ := ht
        obtain ⟨w₃, hon⟩ := on_search_of_unavailable hn hpos hindex hfew hlines hfound
        rw [hon, firsts_of_nonneg hlimit] at h
        cases h
        exact isAnswer_hits
      · have ht : ∀ reason code, t ≠ .failure (.fallbackUnavailable reason code) :=
          fun reason code he => ht ⟨reason, code, he⟩
        rw [on_search_of_lines_error hn hpos hindex hfew hlines ht hfound] at h
        cases h
    · obtain ⟨w₃, hon⟩ := on_search_of_found hn hpos hindex hfew hlines hfound
      rw [hon, Search.together, LineSearch.distinctBy_eq_firstOfEach, firsts_of_nonneg hlimit] at h
      cases h
      exact isAnswer_firstOfEach

/-- What a search answers, whatever the index and the line search do.  If none are asked for, neither is
asked.  Otherwise the hits are the answer if they are many enough, if the line search is not wanted,
missing or unavailable; if not, the best matches follow them, and of the results at one place the first is
kept.  The index of a workspace gives at most `limit` hits, so that none of its hits is cut off. -/
theorem answer_of_search (engine : Engine) (query : String) (k : Option Int)
    (useFallback : Option Bool) (w : Workspace) :
    let count := k.getD engine.settings.defaultCount
    let limit := min count 100
    let isWanted := useFallback.getD engine.settings.useFallback
    let answer := (engine.search query k useFallback).on w
    (count ≤ 0 → answer = (.ok [], w)) ∧
    (0 < count →
      (∀ t w₁, (engine.index query limit).on w = (.error t, w₁) → answer = (.error t, w₁)) ∧
      (∀ hits w₁, (engine.index query limit).on w = (.ok hits, w₁) →
        (engine.settings.minIndexResults ≤ hits.length ∨ isWanted = false ∨ engine.lines = none →
          answer = (.ok ((hits.map Result.ofHit).take limit.toNat), w₁)) ∧
        (hits.length < engine.settings.minIndexResults → isWanted = true →
          ∀ lines, engine.lines = some lines →
            (∀ found w₂, (lines query).on w₁ = (.ok found, w₂) →
              ∃ ranked, IsRanking found ranked ∧
                answer.1 = .ok ((firstOfEach Result.place (hits.map Result.ofHit ++
                  (ranked.take limit.toNat).map (Result.ofMatch engine.layout))).take
                    limit.toNat)) ∧
            (∀ reason code w₂,
              (lines query).on w₁ = (.error (.failure (.fallbackUnavailable reason code)), w₂) →
                answer.1 = .ok ((hits.map Result.ofHit).take limit.toNat)) ∧
            (∀ t w₂, (∀ reason code, t ≠ .failure (.fallbackUnavailable reason code)) →
              (lines query).on w₁ = (.error t, w₂) → answer = (.error t, w₂))))) ∧
    (∀ results w', answer = (.ok results, w') → IsAnswer limit results) ∧
    (∀ hits w₁, (w.engine.index query limit).on w = (.ok hits, w₁) →
      hits.length ≤ limit.toNat) := by
  intro count limit isWanted answer
  refine ⟨on_search_of_nonpos rfl, fun hpos => ⟨?_, ?_⟩, ?_, ?_⟩
  · exact fun t w₁ hindex => on_search_of_index_error rfl hpos hindex
  · intro hits w₁ hindex
    have hlimit : 0 ≤ limit := Int.le_min.mpr ⟨Int.le_of_lt hpos, by decide⟩
    refine ⟨fun henough => ?_, fun hfew hwanted lines hlines => ⟨?_, ?_, ?_⟩⟩
    · rw [← firsts_of_nonneg hlimit]
      rw [← or_assoc, ← isEnough_iff] at henough
      exact on_search_of_enough rfl hpos hindex henough
    all_goals
      have hfew : Search.isEnough engine.settings hits isWanted = false := by
        rw [← Bool.not_eq_true, isEnough_iff, not_or, Bool.not_eq_false]
        exact ⟨Nat.not_le.mpr hfew, hwanted⟩
    · intro found w₂ hfound
      obtain ⟨w₃, hon⟩ := on_search_of_found rfl hpos hindex hfew hlines hfound
      refine ⟨LineSearch.byScore found, LineSearch.isRanking_byScore found, ?_⟩
      rw [← LineSearch.distinctBy_eq_firstOfEach, ← firsts_of_nonneg hlimit,
        ← firsts_of_nonneg hlimit]
      exact congrArg Prod.fst hon
    · intro reason code w₂ hfound
      obtain ⟨w₃, hon⟩ := on_search_of_unavailable rfl hpos hindex hfew hlines hfound
      rw [← firsts_of_nonneg hlimit]
      exact congrArg Prod.fst hon
    · exact fun t w₂ ht hfound => on_search_of_lines_error rfl hpos hindex hfew hlines ht hfound
  · exact fun results w' h => isAnswer_of_search h
  · intro hits w₁ h
    rw [show w.engine.index query limit = onStore (Store.search (.whole query) limit) from rfl,
      on_onStore] at h
    obtain ⟨hon, -⟩ := Prod.mk.inj h
    exact length_of_on_search (Prod.ext hon rfl)

def bare : Workspace :=
  { tree := .empty, root := ⟨"/", []⟩, home := { own := ⟨"/", []⟩ } }

/-- A search whose index has one hit, with two matches of which the first is where the hit is. -/
def thin : Engine where
  settings := {}
  layout := {}
  index _ _ :=
    return [{ entity := { id := "x", container := "A", name := "f", arity := 1, path := "lib/a.ex"
                          startLine := 3, endLine := 4, lexicalText := "" }, score := 1 }]
  lines := some fun _ =>
    return [{ path := "lib/a.ex", line := 3, text := "def f(x)", score := 1 },
      { path := "lib/b.ex", line := 1, text := "f(1)", score := 2 }]

theorem answer_of_thin :
    ∃ results,
      ((thin.search "f" (some 5) none).on bare).1 = .ok results ∧
      results.map (fun r => (r.place, r.source)) =
        [(("lib/a.ex", 3), .index), (("lib/b.ex", 1), .fallback)] ∧
      IsAnswer 5 results := by
  obtain ⟨-, h, hanswer, -⟩ :=
    answer_of_search thin "f" (some 5) none bare
  obtain ⟨hfound, -, -⟩ := ((h (by decide)).2 _ _ rfl).2 (by decide) rfl _ rfl
  obtain ⟨ranked, hranked, hon⟩ := hfound _ _ rfl
  refine ⟨_, hon, ?_, hanswer _ _ (Prod.ext hon rfl)⟩
  have hswap : ranked = [{ path := "lib/b.ex", line := 1, text := "f(1)", score := 2 },
      { path := "lib/a.ex", line := 3, text := "def f(x)", score := 1 }] := by
    refine hranked.eq_of ⟨by decide, fun n => ?_⟩
    simp only [List.filter_cons, beq_iff_eq]
    split <;> split <;> first | rfl | omega
  rw [hswap]
  decide

end CodeIndex.Workspace
