import CodeIndex.Proofs.Store.Catalog

/-!
# What the store finds

A query finds the entities whose full-text rows it matches, in the order of their relevance.  The numbers
that make this order are not looked into: which rows are found does not depend on them, and neither does
what is found of each row.
-/

namespace CodeIndex

/-! ## Rows -/

namespace FullText

theorem map_fst_scored (q : Query) (rows : List Row) :
    (scored q rows).map Prod.fst = rows.filter q.accepts := by
  unfold scored
  simp only [List.map_map, List.filter_map, Function.comp_def, List.map_id']
  rfl

/-- The rows that are ranked are those that the query matches. -/
theorem ranked_perm (q : Query) (rows : List Row) :
    ((ranked q rows).map Prod.fst).Perm (rows.filter q.accepts) := by
  rw [← map_fst_scored]
  exact (List.mergeSort_perm (scored q rows) _).map Prod.fst

end FullText

namespace Store

/-- The entities that are found are those of the rows that the query matches. -/
theorem Tables.search_perm (t : Tables) (q : FullText.Query) :
    ((t.search q).map Prod.fst).Perm
      ((t.texts.filter q.accepts).filterMap fun r => t.find? r.id) := by
  have hfound : (t.search q).map Prod.fst =
      ((FullText.ranked q t.texts).map Prod.fst).filterMap fun r => t.find? r.id := by
    unfold Tables.search
    rw [List.filterMap_map, List.map_filterMap]
    congr 1
    funext ⟨r, score⟩
    cases h : t.find? r.id <;> simp [h]
  rw [hfound]
  exact (FullText.ranked_perm q t.texts).filterMap _

/-- In tables that are in lockstep each row of the full-text table leads to the entity whose texts it has,
so that each entity is found at most once. -/
theorem Lockstep.search_perm {t : Tables} (h : Lockstep t) (q : FullText.Query) :
    ((t.search q).map Prod.fst).Perm (t.entities.filter fun e => q.accepts (Tables.textRow e)) := by
  have hrows : ((t.entities.map Tables.textRow).filter q.accepts).filterMap
      (fun r => t.find? r.id) = t.entities.filter fun e => q.accepts (Tables.textRow e) := by
    rw [List.filter_map, List.filterMap_map]
    conv_rhs => rw [← List.filterMap_some (l := t.entities.filter _)]
    apply List.filterMap_congr
    exact fun e he => h.find?_eq_some.mpr ⟨List.mem_of_mem_filter he, rfl⟩
  rw [← hrows]
  exact (t.search_perm q).trans ((h.texts.filter _).filterMap _)

/-! ## Hits -/

theorem on_mapM_hits {found : List (Entity × Float)} (h : ∀ p ∈ found, p.1.IsNormal) (s : Store) :
    (found.mapM fun (row, score) => do return ({ entity := ← revive row, score } : Hit) :
      Action (List Hit)).on s = (.ok (found.map fun p => { entity := p.1, score := p.2 }), s) := by
  induction found with
  | nil => rfl
  | cons p rest ih =>
    rw [List.forall_mem_cons] at h
    simp only [List.mapM_cons, on_bind, on_revive h.1, on_pure, ih h.2, List.map_cons]

/-- A query that can be read finds, of the entities that it matches, the first `k`. -/
theorem on_search_ok {s : Store} {t : Tables} (ht : s.disk.tables? = some t)
    (hnormal : ∀ e ∈ t.entities, e.IsNormal) {query : String} (hquery : Text.allBlank query = false)
    {k : Int} (hk : 0 < k) (hrange : isInRange k = true) {q : FullText.Query}
    (hq : FullText.Query.ofString? query = some q) :
    (search (.whole query) k).on s =
      (.ok (((t.search q).take k.toNat).map fun p => { entity := p.1, score := p.2 }), s) := by
  have hfound : ∀ p ∈ (t.search q).take k.toNat, p.1.IsNormal := by
    intro p hp
    have hmem := (Tables.search_perm t q).mem_iff.mp
      (List.mem_map_of_mem (f := Prod.fst) (List.mem_of_mem_take hp))
    obtain ⟨r, -, hr⟩ := List.mem_filterMap.mp hmem
    exact hnormal p.1 (List.mem_of_find?_eq_some hr)
  unfold search
  rw [if_neg (by simp [isBlank, hquery, hk])]
  simp only [on_bind, on_requireFile_ok ht, on_requireTables_ok ht, on_encoded, Writing.encoded,
    Except.mapError, hrange, Bool.not_true, Bool.false_eq_true, if_false, hq]
  exact on_mapM_hits hfound s

end Store

end CodeIndex
