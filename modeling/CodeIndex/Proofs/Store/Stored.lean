import CodeIndex.Proofs.Store.Lockstep

/-!
# What the store holds for one file

`Tables.stored` is the part of the tables that belongs to one path, with the references of each entity.
A purge empties it for its path and leaves that of every other path as it is; an insertion appends the
new entities of the path to those whose identities it does not take away.  Tables in lockstep that agree
on every path are the same up to the order of their rows.
-/

namespace CodeIndex.Store

namespace Tables

/-- The entities that the tables hold for a path, with their references. -/
def stored (t : Tables) (path : String) : List Entity :=
  (t.entities.filter (·.path == path)).map fun e => { e with references := t.referencesOf e.id }

/-- An entity as the tables give it back: each reference once. -/
def kept (e : Entity) : Entity :=
  { e with references := Text.distinct e.references }

@[simp] theorem stored_empty (path : String) : ({} : Tables).stored path = [] := rfl

/-! ## References -/

theorem referencesOf_purge (t : Tables) (path id : String) :
    (t.purge path).referencesOf id = if id ∈ t.idsAt path then [] else t.referencesOf id := by
  unfold referencesOf purge
  rw [List.filter_filter]
  by_cases h : id ∈ t.idsAt path
  · rw [if_pos h, List.map_eq_nil_iff, List.filter_eq_nil_iff]
    intro e _ he
    rw [Bool.and_eq_true, beq_iff_eq] at he
    rw [he.1] at he
    simp [h] at he
  · rw [if_neg h]
    congr 1
    apply List.filter_congr
    intro e _
    by_cases hs : e.source = id
    · simp [hs, h]
    · simp [hs]

theorem filter_source_flatMap (entities : List Entity) (id : String) :
    (entities.flatMap edgesOf).filter (·.source == id) =
      (entities.filter (·.id == id)).flatMap edgesOf := by
  induction entities with
  | nil => rfl
  | cons e rest ih =>
    rw [List.flatMap_cons, List.filter_append, ih]
    by_cases he : e.id = id
    · rw [List.filter_cons_of_pos (by simpa using he), List.flatMap_cons]
      congr 1
      rw [List.filter_eq_self]
      intro d hd
      obtain ⟨target, -, rfl⟩ := List.mem_map.mp hd
      exact beq_iff_eq.mpr he
    · rw [List.filter_cons_of_neg (by simpa using he), List.filter_eq_nil_iff.mpr, List.nil_append]
      intro d hd
      obtain ⟨target, -, rfl⟩ := List.mem_map.mp hd
      simpa using he

/-- The references of an inserted entity are its own, each once. -/
theorem referencesOf_insert_of_mem (t : Tables) {entities : List Entity}
    (h : (entities.map Entity.id).Nodup) {e : Entity} (he : e ∈ entities) :
    (t.insert entities).referencesOf e.id = Text.distinct e.references := by
  have hold : (t.edges.filter fun d => !(entities.map Entity.id).contains d.source).filter
      (·.source == e.id) = [] := by
    rw [List.filter_filter, List.filter_eq_nil_iff]
    intro d _ hd
    rw [Bool.and_eq_true, beq_iff_eq] at hd
    rw [hd.1] at hd
    have := List.mem_map_of_mem (f := Entity.id) he
    simp [this] at hd
  have hinj : Function.Injective fun target => (⟨e.id, target⟩ : Edge) :=
    fun a b hab => (Edge.mk.inj hab).2
  rw [referencesOf, edges_insert, List.filter_append, hold, List.nil_append, Text.filter_distinct,
    filter_source_flatMap, filter_id_eq h he, List.flatMap_singleton, edgesOf,
    ← Text.map_distinct hinj, List.map_map]
  exact List.map_id _

/-- An insertion leaves the references of every other identity. -/
theorem referencesOf_insert_of_not_mem (t : Tables) {entities : List Entity} {id : String}
    (h : id ∉ entities.map Entity.id) : (t.insert entities).referencesOf id = t.referencesOf id := by
  have hnew : (entities.flatMap edgesOf).filter (·.source == id) = [] := by
    rw [List.filter_eq_nil_iff]
    intro d hd hs
    exact h (beq_iff_eq.mp hs ▸ source_of_mem_edgesOf hd)
  rw [referencesOf, edges_insert, List.filter_append, Text.filter_distinct, hnew, List.filter_filter,
    referencesOf]
  congr 1
  rw [show Text.distinct ([] : List Edge) = [] from rfl, List.append_nil]
  apply List.filter_congr
  intro d _
  by_cases hs : d.source = id
  · simpa [hs] using h
  · simp [hs]

/-! ## Changes, seen from one path -/

/-- A purge takes what is stored for its path, and nothing else. -/
theorem stored_purge {t : Tables} (h : Lockstep t) (purged path : String) :
    (t.purge purged).stored path = if path = purged then [] else t.stored path := by
  have hfilter : (t.purge purged).entities.filter (·.path == path) =
      if path = purged then [] else t.entities.filter (·.path == path) := by
    change (t.entities.filter fun e => e.path != purged).filter _ = _
    rw [List.filter_filter]
    by_cases hp : path = purged
    · rw [if_pos hp, List.filter_eq_nil_iff]
      intro e _ he
      simp [hp] at he
    · rw [if_neg hp]
      apply List.filter_congr
      intro e _
      by_cases he : e.path = path
      · simp [he, hp]
      · simp [he]
  rw [stored, hfilter]
  by_cases hp : path = purged
  · rw [if_pos hp, if_pos hp]
    rfl
  · rw [if_neg hp, if_neg hp]
    apply List.map_congr_left
    intro e he
    obtain ⟨he, hep⟩ := List.mem_filter.mp he
    have hid : e.id ∉ t.idsAt purged := by
      rw [h.mem_idsAt he]
      rw [beq_iff_eq] at hep
      exact fun e' => hp (hep ▸ e')
    rw [referencesOf_purge, if_neg hid]

theorem stored_purgeAll {t : Tables} (h : Lockstep t) (paths : List String) (path : String) :
    (t.purgeAll paths).stored path = if path ∈ paths then [] else t.stored path := by
  unfold purgeAll
  induction paths generalizing t with
  | nil => simp
  | cons purged rest ih =>
    rw [List.foldl_cons, ih (h.purge purged), stored_purge h]
    by_cases hr : path ∈ rest
    · rw [if_pos hr, if_pos (List.mem_cons_of_mem _ hr)]
    · rw [if_neg hr]
      by_cases hp : path = purged
      · rw [if_pos hp, if_pos (hp ▸ List.mem_cons_self)]
      · rw [if_neg hp, if_neg (by simp [hp, hr])]

/-- An insertion takes away the identities that it brings, and appends what it brings for the path. -/
theorem stored_insert (t : Tables) {entities : List Entity} (h : (entities.map Entity.id).Nodup)
    (path : String) :
    (t.insert entities).stored path =
      (t.stored path).filter (fun e => !(entities.map Entity.id).contains e.id) ++
        (entities.filter (·.path == path)).map kept := by
  rw [stored, entities_insert t h, List.filter_append, List.map_append]
  congr 1
  · rw [stored, List.filter_map, List.filter_filter]
    have hcomm : t.entities.filter (fun e => (e.path == path) &&
        !(entities.map Entity.id).contains e.id) =
        (t.entities.filter (·.path == path)).filter
          fun e => !(entities.map Entity.id).contains e.id := by
      rw [List.filter_filter]
      simp only [Bool.and_comm]
    rw [hcomm]
    apply List.map_congr_left
    intro e he
    have hid : e.id ∉ entities.map Entity.id := by
      have := (List.mem_filter.mp he).2
      simpa using this
    rw [referencesOf_insert_of_not_mem t hid]
  · rw [List.filter_map, List.map_map]
    apply List.map_congr_left
    intro e he
    have hmem : e ∈ entities := (List.mem_filter.mp he).1
    simp only [Function.comp_apply, row, kept]
    rw [referencesOf_insert_of_mem t h hmem]

/-! ## Tables that agree on every path -/

theorem perm_of_filter_path {as bs : List Entity}
    (h : ∀ path, as.filter (·.path == path) = bs.filter (·.path == path)) : as.Perm bs := by
  rw [List.perm_iff_count]
  intro e
  rw [← List.count_filter (p := (·.path == e.path)) (by simp), h, List.count_filter (by simp)]

theorem map_row_stored {t : Tables} (h : Lockstep t) (path : String) :
    (t.stored path).map row = t.entities.filter (·.path == path) := by
  rw [stored, List.map_map]
  conv_rhs => rw [← List.map_id (t.entities.filter (·.path == path))]
  apply List.map_congr_left
  intro e he
  have hbare := h.bare e (List.mem_filter.mp he).1
  simp only [Function.comp_apply, row, id_eq]
  rw [← hbare]

/-- Where an entity is stored, its references are found with it. -/
theorem mem_stored {t : Tables} {e : Entity} (he : e ∈ t.entities) :
    { e with references := t.referencesOf e.id } ∈ t.stored e.path :=
  List.mem_map.mpr ⟨e, List.mem_filter.mpr ⟨he, by simp⟩, rfl⟩

theorem referencesOf_of_not_mem {t : Tables} (h : Lockstep t) {id : String}
    (hid : id ∉ t.entities.map Entity.id) : t.referencesOf id = [] := by
  rw [referencesOf, List.map_eq_nil_iff, List.filter_eq_nil_iff]
  intro d hd hs
  exact hid (beq_iff_eq.mp hs ▸ h.owned d hd)

/-- Tables in lockstep that hold the same for every path have the same entities and full-text rows, in
some order, and the same references for every identity. -/
theorem perm_of_stored {t u : Tables} (ht : Lockstep t) (hu : Lockstep u)
    (h : ∀ path, t.stored path = u.stored path) :
    t.entities.Perm u.entities ∧ t.texts.Perm u.texts ∧
      ∀ id, t.referencesOf id = u.referencesOf id := by
  have hperm : t.entities.Perm u.entities := by
    apply perm_of_filter_path
    intro path
    rw [← map_row_stored ht, ← map_row_stored hu, h]
  refine ⟨hperm, ?_, ?_⟩
  · exact (ht.texts.trans (hperm.map textRow)).trans hu.texts.symm
  · intro id
    by_cases hid : id ∈ t.entities.map Entity.id
    · obtain ⟨e, he, rfl⟩ := List.mem_map.mp hid
      have hmem := mem_stored he
      rw [h, stored, List.mem_map] at hmem
      obtain ⟨x, -, hx⟩ := hmem
      have hids : x.id = e.id := by injection hx
      have hrefs : u.referencesOf x.id = t.referencesOf e.id := by injection hx
      rw [← hrefs, hids]
    · rw [referencesOf_of_not_mem ht hid, referencesOf_of_not_mem hu]
      rwa [← (hperm.map Entity.id).mem_iff]

end Tables

end CodeIndex.Store
