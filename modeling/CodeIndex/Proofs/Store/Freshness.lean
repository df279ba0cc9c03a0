import CodeIndex.Proofs.Store.Catalog

/-!
# Which files a merge makes fresh

A file is fresh after a merge if all that the store has for it is of the merged batch.  The merge purges
the paths that it is given and those of the *merged* entities.  Two records with one identity merge into
one entity, which has the path of one of them: the file of the other is then not purged, unless it is
named or has another record, and what the store had for it stays.
-/

namespace CodeIndex.Store

namespace Tables

theorem mem_entities_purgeAll {t : Tables} {paths : List String} {e : Entity} :
    e ∈ (t.purgeAll paths).entities ↔ e ∈ t.entities ∧ e.path ∉ paths := by
  unfold purgeAll
  induction paths generalizing t with
  | nil => simp
  | cons path rest ih =>
    rw [List.foldl_cons, ih, List.mem_cons, not_or, ← and_assoc]
    apply and_congr_left'
    simp only [purge, List.mem_filter, bne_iff_ne]

/-- A row that stands after a merge stood before and was neither purged nor replaced, or was merged. -/
theorem mem_entities_merge {t : Tables} {paths : List String} {entities : List Entity}
    (hids : (entities.map Entity.id).Nodup) {e : Entity} :
    e ∈ (t.merge paths entities).entities ↔
      (e ∈ t.entities ∧ e.path ∉ paths ∧ e.id ∉ entities.map Entity.id) ∨
        e ∈ entities.map row := by
  rw [merge, entities_insert _ hids, List.mem_append, List.mem_filter, mem_entities_purgeAll,
    and_assoc]
  simp only [Bool.not_eq_true', ← Bool.not_eq_true, List.contains_iff_mem]

theorem exists_of_mem_stored {t : Tables} {path : String} {x : Entity} (h : x ∈ t.stored path) :
    ∃ e ∈ t.entities, e.path = path ∧ x = { e with references := t.referencesOf e.id } := by
  obtain ⟨e, he, rfl⟩ := List.mem_map.mp h
  obtain ⟨he, hpath⟩ := List.mem_filter.mp he
  exact ⟨e, he, beq_iff_eq.mp hpath, rfl⟩

/-- An entity that was merged stands with all it has: its references were its own, each once. -/
theorem full_row_of_mem {t : Tables} {paths : List String} {entities : List Entity}
    (hids : (entities.map Entity.id).Nodup) {m : Entity} (hm : m ∈ entities) (hn : m.IsNormal) :
    { row m with references := (t.merge paths entities).referencesOf m.id } = m := by
  rw [merge, referencesOf_insert_of_mem _ hids hm]
  exact kept_of_isNormal hn

/-- A path is fresh after a merge if it was purged, or if all that it had was replaced; otherwise it
is not. -/
theorem fresh_merge (t : Tables) (paths : List String) {entities : List Entity}
    (hids : (entities.map Entity.id).Nodup) (hn : ∀ m ∈ entities, m.IsNormal) (path : String) :
    (∀ e ∈ (t.merge paths entities).stored path, e ∈ entities) ↔
      path ∈ paths ∨ ∀ e ∈ t.stored path, e.id ∈ entities.map Entity.id := by
  constructor
  · intro h
    by_contra hstale
    rw [not_or] at hstale
    obtain ⟨hpath, hstale⟩ := hstale
    push Not at hstale
    obtain ⟨x, hx, hid⟩ := hstale
    obtain ⟨e, he, rfl, rfl⟩ := exists_of_mem_stored hx
    -- the row is neither purged nor replaced
    have hkept := (mem_entities_merge hids).mpr (.inl ⟨he, hpath, hid⟩)
    exact hid (List.mem_map.mpr ⟨_, h _ (mem_stored hkept), rfl⟩)
  · intro h x hx
    obtain ⟨e, he, rfl, rfl⟩ := exists_of_mem_stored hx
    rcases (mem_entities_merge hids).mp he with ⟨he, hpath, hid⟩ | he
    · exact absurd ((h.resolve_left hpath) _ (mem_stored he)) hid
    · obtain ⟨m, hm, rfl⟩ := List.mem_map.mp he
      have hfull : { row m with references := (t.merge paths entities).referencesOf m.id } = m :=
        full_row_of_mem hids hm (hn m hm)
      exact hfull.symm ▸ hm

end Tables

theorem mem_affected {entities : List Entity} {paths : List String} {path : String} :
    path ∈ affected entities paths ↔ path ∈ paths ∨ ∃ m ∈ entities, m.path = path := by
  rw [affected, Text.mem_sortedBy, Text.mem_distinct, List.mem_append, List.mem_map, or_comm]

/-! ## What was merged, as the records have it -/

theorem mem_wholes {texts : List Writing} {text : String} :
    text ∈ Writing.wholes texts ↔ .whole text ∈ texts := by
  rw [Writing.wholes, List.mem_filterMap]
  constructor
  · rintro ⟨w, hw, hwhole⟩
    cases w with
    | whole s =>
      obtain rfl := Option.some.inj hwhole
      exact hw
    | broken points => cases hwhole
  · exact fun h => ⟨_, h, rfl⟩

section

variable {records : List Record} (h : (draftsIn records).all storable = true)
include h

theorem mem_entitiesIn_iff {e : Entity} : e ∈ entitiesIn records ↔ e.draft ∈ draftsIn records := by
  rw [draftsIn_eq h, List.mem_map]
  exact ⟨fun he => ⟨e, he, rfl⟩, fun ⟨x, hx, hd⟩ => Entity.draft_inj.mp hd ▸ hx⟩

theorem exists_mem_entitiesIn {P : Draft → Prop} :
    (∃ e ∈ entitiesIn records, P e.draft) ↔ ∃ d ∈ draftsIn records, P d := by
  rw [draftsIn_eq h]
  simp only [List.mem_map, exists_exists_and_eq_and]

/-- The identities that were merged are those of the records. -/
theorem mem_map_id_entitiesIn {id : String} :
    id ∈ (entitiesIn records).map Entity.id ↔ ∃ d ∈ (Batch.ofRecords records).drafts, d.id = .whole id := by
  have hids : .whole id ∈ (draftsIn records).map Entity.id ↔
      ∃ d ∈ (Batch.ofRecords records).drafts, d.id = .whole id := by
    rw [draftsIn, map_id_mergeClauses, Text.mem_distinct, List.mem_map]
  rw [← hids, List.mem_map, List.mem_map, ← exists_mem_entitiesIn h]
  refine exists_congr fun e => and_congr_right fun _ => ?_
  exact ⟨congrArg Writing.whole, Writing.whole.inj⟩

end

theorem tables?_of_merge {s s' : Store} {records : List Record} {paths : List Writing} {n : Nat}
    (h : (merge records paths).on s = (.ok n, s')) :
    (Batch.ofRecords records).stopped = none ∧ (draftsIn records).all storable = true ∧
      ∃ t, s.disk.tables? = some t ∧ s'.disk.tables? =
        some (t.merge (affected (entitiesIn records) (Writing.wholes paths)) (entitiesIn records)) := by
  obtain ⟨n', t', s'', hon, hw, he⟩ | ⟨e, s'', hon, -⟩ := change_cases (.merge records paths) s
  · rw [change, h] at hon
    obtain ⟨-, rfl⟩ := Prod.mk.inj hon
    generalize hb : s.disk.tables? = before at he
    cases he with
    | merge hread hheld => exact ⟨hread, hheld, _, rfl, hw.tables?⟩
  · rw [change, h] at hon
    cases (Prod.mk.inj hon).1

/-- After a merge that succeeded, all that the store has for the files that were named, and for those of
the records, is of the batch, provided that each file of a record was named, or is that of a merged
entity, or held no identity that is not one of the batch.  Otherwise something old is left. -/
theorem fresh_of_merge {s s' : Store} {records : List Record} (hrecords : ∀ r ∈ records, r.IsNormal)
    {paths : List Writing} {n : Nat} (h : (merge records paths).on s = (.ok n, s'))
    {drafts : List Draft} (hdrafts : drafts = (Batch.ofRecords records).drafts) :
    ∃ t t', s.disk.tables? = some t ∧ s'.disk.tables? = some t' ∧
      ((∀ path, (.whole path ∈ paths ∨ ∃ d ∈ drafts, d.path = .whole path) →
          ∀ e ∈ t'.stored path, e.draft ∈ mergeClauses drafts) ↔
        ∀ d ∈ drafts, d.path ∈ paths ∨ (∃ m ∈ mergeClauses drafts, m.path = d.path) ∨
          ∀ path, d.path = .whole path →
            ∀ e ∈ t.stored path, ∃ x ∈ drafts, x.id = .whole e.id) := by
  subst hdrafts
  obtain ⟨hread, hheld, t, ht, ht'⟩ := tables?_of_merge h
  have hmember : ∀ e : Entity, e.draft ∈ mergeClauses (Batch.ofRecords records).drafts ↔
      e ∈ entitiesIn records := fun e => (mem_entitiesIn_iff hheld).symm
  have hplaces : ∀ path, (∃ m ∈ entitiesIn records, m.path = path) ↔
      ∃ m ∈ mergeClauses (Batch.ofRecords records).drafts, m.path = .whole path := by
    intro path
    rw [← draftsIn, ← exists_mem_entitiesIn hheld]
    refine exists_congr fun e => and_congr_right fun _ => ?_
    exact ⟨congrArg Writing.whole, Writing.whole.inj⟩
  have hfresh := Tables.fresh_merge t (affected (entitiesIn records) (Writing.wholes paths))
    (nodup_map_id_entitiesIn _) (isNormal_of_mem_entitiesIn hread hrecords)
  simp only [mem_affected, mem_wholes, or_assoc, mem_map_id_entitiesIn hheld, hplaces] at hfresh
  simp only [← hmember] at hfresh
  refine ⟨t, _, ht, ht', ?_⟩
  constructor
  · intro hall d hd
    -- the path of a checked record can be encoded
    obtain ⟨path, hpath, -⟩ := (Batch.isNormal_of_mem hread hrecords d hd).path
    have hwhole : d.path = .whole path := by
      cases hd : d.path with
      | whole s => rw [hd] at hpath; exact congrArg _ (Option.some.inj hpath)
      | broken points => rw [hd] at hpath; cases hpath
    rw [hwhole]
    refine ((hfresh path).mp (hall path (.inr ⟨d, hd, hwhole⟩))).imp_right fun h => h.imp_right ?_
    rintro hold path' he
    obtain rfl := Writing.whole.inj he
    exact hold
  · rintro hall path (hpath | ⟨d, hd, hwhole⟩)
    · exact (hfresh path).mpr (.inl hpath)
    · have hd := hall d hd
      rw [hwhole] at hd
      exact (hfresh path).mpr (hd.imp_right fun h => h.imp_right fun hold => hold path rfl)

def placed (id path : String) (line : Nat) : Entity :=
  { id, container := "A", name := "f", arity := 0, path, startLine := line, endLine := line
    lexicalText := "", references := ["B.g/0"] }

def builtFrom (entities : List Entity) : Store :=
  { path := "index.db", disk := .database (.ofTables (Tables.insert {} entities)) }

theorem on_merge_builtFrom (stored batch : List Entity) (paths : List String)
    (hfit : (mergeClauses batch).all fits = true) :
    ∃ n s', (merge (batch.map .entity) (paths.map .whole)).on (builtFrom stored) = (.ok n, s') ∧
      s'.disk.tables? = some ((Tables.insert {} stored).merge
        (affected (mergeClauses batch) paths) (mergeClauses batch)) := by
  have htries : 0 ≤ ({ path := "index.db" } : Store).settings.maxRetries := by decide
  have ht : (builtFrom stored).disk.tables? = some (Tables.insert {} stored) := rfl
  have hheld : (draftsIn (batch.map .entity)).all storable = true := by
    rw [draftsIn_entities, all_storable_draft, hfit]
  obtain ⟨s', hon, hw⟩ :=
    on_merge_ok (s := builtFrom stored) htries rfl ht paths (Batch.stopped_entities batch) hheld
  rw [entitiesIn_entities] at hw
  exact ⟨_, s', hon, hw.tables?⟩

/-- The records of one entity are in three files: the first is that of the merged entity, the second has
another record, and the third held nothing that the batch does not bring.  A fourth file is named. -/
theorem fresh_of_regrouped :
    let stored :=
      [placed "x" "b.ex" 1, placed "z" "a.ex" 2, placed "v" "c.ex" 3, placed "y" "d.ex" 5]
    let batch :=
      [placed "x" "a.ex" 1, placed "x" "b.ex" 4, placed "y" "b.ex" 7, placed "x" "d.ex" 9]
    ∃ n s' t', (merge (batch.map .entity) [.whole "c.ex"]).on (builtFrom stored) = (.ok n, s') ∧
      s'.disk.tables? = some t' ∧
      ∀ path ∈ ["a.ex", "b.ex", "c.ex", "d.ex"], ∀ e ∈ t'.stored path,
        e.draft ∈ mergeClauses (batch.map Entity.draft) := by
  intro stored batch
  obtain ⟨n, s', hon, -⟩ := on_merge_builtFrom stored batch ["c.ex"] (by decide)
  have hnormal : ∀ r ∈ batch.map Record.entity, r.IsNormal := by decide
  obtain ⟨t, t', ht, ht', hfresh⟩ :=
    fresh_of_merge hnormal hon (Batch.drafts_entities batch).symm
  obtain rfl : Tables.insert {} stored = t := Option.some.inj ht
  have hcovered : ∀ d ∈ batch.map Entity.draft, d.path ∈ [.whole "c.ex"] ∨
      (∃ m ∈ mergeClauses (batch.map Entity.draft), m.path = d.path) ∨
        ∀ path, d.path = .whole path → ∀ e ∈ (Tables.insert {} stored).stored path,
          ∃ x ∈ batch.map Entity.draft, x.id = .whole e.id := by
    have hentities : ∀ e ∈ batch, e.path ∈ ["c.ex"] ∨ (∃ m ∈ mergeClauses batch, m.path = e.path) ∨
        ∀ x ∈ (Tables.insert {} stored).stored e.path, ∃ y ∈ batch, y.id = x.id := by
      decide
    rw [List.forall_mem_map, ← draft_mergeClauses]
    intro e he
    refine (hentities e he).imp (fun h => ?_) (Or.imp ?_ ?_)
    · exact List.mem_map_of_mem (f := Writing.whole) h
    · rintro ⟨m, hm, hpath⟩
      exact ⟨m.draft, List.mem_map_of_mem hm, congrArg Writing.whole hpath⟩
    · rintro hall path hpath x hx
      obtain rfl := Writing.whole.inj hpath
      obtain ⟨y, hy, hid⟩ := hall x hx
      exact ⟨y.draft, List.mem_map_of_mem hy, congrArg Writing.whole hid⟩
  have hplaces : ∀ path ∈ ["a.ex", "b.ex", "c.ex", "d.ex"],
      .whole path ∈ [Writing.whole "c.ex"] ∨ ∃ d ∈ batch.map Entity.draft, d.path = .whole path := by
    decide
  exact ⟨n, s', t', hon, ht', fun path hpath => hfresh.mpr hcovered path (hplaces path hpath)⟩

/-- The records of one entity are in two files, and that which is not the merged entity's keeps what the
store had for it. -/
theorem stale_of_shared :
    let s := builtFrom [placed "z" "b.ex" 2]
    let batch := [placed "x" "a.ex" 1, placed "x" "b.ex" 4]
    ∃ n s' t', (merge (batch.map .entity) []).on s = (.ok n, s') ∧ s'.disk.tables? = some t' ∧
      ∃ d ∈ (Batch.ofRecords (batch.map .entity)).drafts, d.path = .whole "b.ex" ∧
        ∃ e ∈ t'.stored "b.ex",
          e.draft ∉ mergeClauses (Batch.ofRecords (batch.map .entity)).drafts := by
  intro s batch
  obtain ⟨n, s', hon, ht⟩ := on_merge_builtFrom [placed "z" "b.ex" 2] batch [] (by decide)
  refine ⟨n, s', _, hon, ht, ?_⟩
  rw [Batch.drafts_entities]
  exact ⟨(placed "x" "b.ex" 4).draft, by decide, rfl, placed "z" "b.ex" 2, by decide, by decide⟩

end CodeIndex.Store
