import CodeIndex.Proofs.Store.Change
import CodeIndex.Proofs.Entity.Clauses

/-!
# The three tables in lockstep

The full-text table mirrors the entity table, and every edge starts at an entity.  Nothing in the tables
themselves enforces the mirror: it rests on the order in which a change removes and adds rows.  Each
change is therefore first written as what it does to each table; from these equations follow that a purge
and an insertion keep the lockstep, and by induction that every run of changes does.
-/

namespace CodeIndex.Store

namespace Tables

/-! ## What a change does to each table -/

theorem foldl_putRow (rows entities : List Entity) (h : (entities.map Entity.id).Nodup) :
    entities.foldl putRow rows =
      rows.filter (fun e => !(entities.map Entity.id).contains e.id) ++ entities.map row := by
  induction entities generalizing rows with
  | nil => simp
  | cons e rest ih =>
    rw [List.map_cons, List.nodup_cons] at h
    have hrow : [row e].filter (fun x => !(rest.map Entity.id).contains x.id) = [row e] :=
      List.filter_eq_self.mpr (by simpa [row] using h.1)
    rw [List.foldl_cons, ih _ h.2, putRow, List.filter_append, List.filter_filter, hrow,
      List.append_assoc, List.singleton_append, List.map_cons]
    congr 1
    apply List.filter_congr
    intro x _
    rw [List.contains_cons, Bool.not_or, Bool.and_comm]
    rfl

theorem entities_insert (t : Tables) {entities : List Entity} (h : (entities.map Entity.id).Nodup) :
    (t.insert entities).entities =
      t.entities.filter (fun e => !(entities.map Entity.id).contains e.id) ++ entities.map row :=
  foldl_putRow t.entities entities h

theorem source_of_mem_edgesOf {entities : List Entity} {e : Edge}
    (h : e ∈ entities.flatMap edgesOf) : e.source ∈ entities.map Entity.id := by
  rw [List.mem_flatMap] at h
  obtain ⟨x, hx, he⟩ := h
  rw [edgesOf, List.mem_map] at he
  obtain ⟨target, -, rfl⟩ := he
  exact List.mem_map_of_mem hx

/-- The edges of inserted entities come last, each once. -/
theorem edges_insert (t : Tables) (entities : List Entity) :
    (t.insert entities).edges =
      t.edges.filter (fun e => !(entities.map Entity.id).contains e.source) ++
        Text.distinct (entities.flatMap edgesOf) := by
  -- the edges of these identities were removed before, so that none of the new ones is there
  have hnew : (entities.flatMap edgesOf).filter (fun e => !(t.edges.filter fun e =>
      !(entities.map Entity.id).contains e.source).contains e) = entities.flatMap edgesOf := by
    rw [List.filter_eq_self]
    intro e he
    have hs := source_of_mem_edgesOf he
    simp only [Bool.not_eq_true', List.contains_eq_mem, decide_eq_false_iff_not, List.mem_filter,
      not_and, not_not]
    exact fun _ => hs
  have hput := Text.distinctFrom_eq (t.edges.filter fun e =>
    !(entities.map Entity.id).contains e.source) (entities.flatMap edgesOf)
  rw [hnew, ← Text.distinct_eq_eraseDups] at hput
  exact hput

theorem texts_insert (t : Tables) (entities : List Entity) :
    (t.insert entities).texts =
      t.texts.filter (fun r => !(entities.map Entity.id).contains r.id) ++ entities.map textRow := rfl

end Tables

theorem filter_id_eq {entities : List Entity} (h : (entities.map Entity.id).Nodup) {e : Entity}
    (he : e ∈ entities) : entities.filter (fun x => x.id == e.id) = [e] := by
  induction entities with
  | nil => cases he
  | cons x rest ih =>
    rw [List.map_cons, List.nodup_cons] at h
    by_cases hx : x.id = e.id
    · have hrest : rest.filter (fun y => y.id == e.id) = [] := by
        rw [List.filter_eq_nil_iff]
        intro y hy hid
        exact h.1 (List.mem_map.mpr ⟨y, hy, (beq_iff_eq.mp hid).trans hx.symm⟩)
      rw [List.filter_cons_of_pos (by simpa using hx), hrest]
      rcases List.mem_cons.mp he with rfl | he
      · rfl
      · exact absurd (List.mem_map.mpr ⟨e, he, hx.symm⟩) h.1
    · rw [List.filter_cons_of_neg (by simpa using hx)]
      rcases List.mem_cons.mp he with rfl | he
      · exact absurd rfl hx
      · exact ih h.2 he

/-- The tables mirror one another: identities are distinct, the full-text rows are those of the entities,
and every edge starts at an entity and occurs once. -/
structure Lockstep (t : Tables) : Prop where
  nodup_ids : (t.entities.map Entity.id).Nodup
  bare : ∀ e ∈ t.entities, e.references = []
  texts : t.texts.Perm (t.entities.map Tables.textRow)
  owned : ∀ e ∈ t.edges, e.source ∈ t.entities.map Entity.id
  nodup_edges : t.edges.Nodup

theorem Lockstep.empty : Lockstep {} where
  nodup_ids := List.nodup_nil
  bare := nofun
  texts := List.Perm.nil
  owned := nofun
  nodup_edges := List.nodup_nil

/-- Entities of one identity are one entity. -/
theorem Lockstep.eq_of_id {t : Tables} (h : Lockstep t) {a b : Entity} (ha : a ∈ t.entities)
    (hb : b ∈ t.entities) (hid : a.id = b.id) : a = b :=
  List.inj_on_of_nodup_map h.nodup_ids ha hb hid

theorem Lockstep.mem_idsAt {t : Tables} (h : Lockstep t) {e : Entity} (he : e ∈ t.entities)
    (path : String) : e.id ∈ t.idsAt path ↔ e.path = path := by
  rw [Tables.idsAt, List.mem_map]
  constructor
  · rintro ⟨x, hx, hid⟩
    rw [List.mem_filter] at hx
    rw [← h.eq_of_id hx.1 he hid]
    simpa using hx.2
  · intro hp
    exact ⟨e, List.mem_filter.mpr ⟨he, by simpa using hp⟩, rfl⟩

/-- A purge keeps the entities whose identities it does not remove. -/
theorem Lockstep.entities_purge {t : Tables} (h : Lockstep t) (path : String) :
    (t.purge path).entities = t.entities.filter fun e => !(t.idsAt path).contains e.id := by
  apply List.filter_congr
  intro e he
  rw [Bool.eq_iff_iff, bne_iff_ne, Bool.not_eq_true', ← Bool.not_eq_true, List.contains_iff_mem,
    h.mem_idsAt he]

/-- Removing the rows of some identities from all three tables keeps the lockstep. -/
theorem Lockstep.without {t : Tables} (h : Lockstep t) (ids : List String) :
    Lockstep
      { entities := t.entities.filter fun e => !ids.contains e.id
        edges := t.edges.filter fun e => !ids.contains e.source
        texts := t.texts.filter fun r => !ids.contains r.id } where
  nodup_ids := h.nodup_ids.sublist (List.filter_sublist.map _)
  bare e he := h.bare e (List.mem_filter.mp he).1
  texts := by
    have hmap : (t.entities.filter fun e => !ids.contains e.id).map Tables.textRow =
        (t.entities.map Tables.textRow).filter fun r => !ids.contains r.id := by
      rw [List.filter_map]
      rfl
    rw [hmap]
    exact h.texts.filter _
  owned e he := by
    rw [List.mem_filter] at he
    obtain ⟨x, hx, hid⟩ := List.mem_map.mp (h.owned e he.1)
    exact List.mem_map.mpr ⟨x, List.mem_filter.mpr ⟨hx, by rw [hid]; exact he.2⟩, hid⟩
  nodup_edges := h.nodup_edges.filter _

theorem Lockstep.purge {t : Tables} (h : Lockstep t) (path : String) : Lockstep (t.purge path) := by
  have he : t.purge path =
      { entities := t.entities.filter fun e => !(t.idsAt path).contains e.id
        edges := t.edges.filter fun e => !(t.idsAt path).contains e.source
        texts := t.texts.filter fun r => !(t.idsAt path).contains r.id } := by
    rw [← h.entities_purge]
    rfl
  rw [he]
  exact h.without _

theorem Lockstep.purgeAll {t : Tables} (h : Lockstep t) (paths : List String) :
    Lockstep (t.purgeAll paths) := by
  unfold Tables.purgeAll
  induction paths generalizing t with
  | nil => exact h
  | cons path rest ih => exact ih (h.purge path)

/-- Inserting entities of distinct identities keeps the lockstep, whatever identities are there. -/
theorem Lockstep.insert {t : Tables} (h : Lockstep t) {entities : List Entity}
    (hids : (entities.map Entity.id).Nodup) : Lockstep (t.insert entities) := by
  -- what stays is the tables without the new identities, and the new rows come after it
  have hw := h.without (entities.map Entity.id)
  have hrows : (entities.map Tables.row).map Entity.id = entities.map Entity.id := by
    rw [List.map_map]
    rfl
  constructor
  · rw [Tables.entities_insert t hids, List.map_append, hrows, List.nodup_append']
    refine ⟨hw.nodup_ids, hids, ?_⟩
    intro id hold hnew
    obtain ⟨e, he, rfl⟩ := List.mem_map.mp hold
    have := (List.mem_filter.mp he).2
    simp only [Bool.not_eq_true', List.contains_eq_mem, decide_eq_false_iff_not] at this
    exact this hnew
  · intro e he
    rw [Tables.entities_insert t hids, List.mem_append] at he
    rcases he with he | he
    · exact hw.bare e he
    · obtain ⟨x, -, rfl⟩ := List.mem_map.mp he
      rfl
  · rw [Tables.entities_insert t hids, Tables.texts_insert, List.map_append]
    refine hw.texts.append (List.Perm.of_eq ?_)
    rw [List.map_map]
    rfl
  · intro e he
    rw [Tables.edges_insert, List.mem_append, Text.mem_distinct] at he
    rw [Tables.entities_insert t hids, List.map_append, List.mem_append, hrows]
    rcases he with he | he
    · exact .inl (hw.owned e he)
    · exact .inr (Tables.source_of_mem_edgesOf he)
  · rw [Tables.edges_insert, List.nodup_append']
    refine ⟨hw.nodup_edges, Text.nodup_distinct _, ?_⟩
    -- an old edge starts at no new entity
    intro e hold hnew
    rw [Text.mem_distinct] at hnew
    have := (List.mem_filter.mp hold).2
    simp only [Bool.not_eq_true', List.contains_eq_mem, decide_eq_false_iff_not] at this
    exact this (Tables.source_of_mem_edgesOf hnew)

/-! ## Runs -/

/-- A change asked of a store, while another process holds the write lock or does not. -/
structure Call where
  asked : Change
  isLocked : Bool := false

def Call.after (s : Store) (c : Call) : Store :=
  ((change c.asked).on { s with isLocked := c.isLocked }).2

def run (s : Store) (calls : List Call) : Store :=
  calls.foldl Call.after s

theorem Lockstep.applied {t : Tables} (h : Lockstep t) (c : Change) : Lockstep (applied t c) := by
  cases c with
  | rebuild => exact Lockstep.empty.insert (nodup_map_id_entitiesIn _)
  | merge => exact (h.purgeAll _).insert (nodup_map_id_entitiesIn _)
  | purge => exact h.purgeAll _

theorem Effect.lockstep {c : Change} {before : Option Tables} {t : Tables} {n : Nat}
    (h : Effect c before t n) (hb : ∀ b, before = some b → Lockstep b) : Lockstep t := by
  rw [h.eq_applied]
  cases before with
  | none => exact Lockstep.empty.applied c
  | some b => exact (hb b rfl).applied c

/-- One call keeps the lockstep, whether it succeeds or fails. -/
theorem lockstep_after {s : Store} (h : ∀ t, s.disk.tables? = some t → Lockstep t) (c : Call)
    {t : Tables} (ht : (c.after s).disk.tables? = some t) : Lockstep t := by
  unfold Call.after at ht
  obtain ⟨n, t', s', hon, hw, he⟩ | ⟨e, s', hon, hk⟩ :=
    change_cases c.asked { s with isLocked := c.isLocked }
  · rw [hon, hw.tables?] at ht
    cases ht
    exact he.lockstep h
  · rw [hon, hk.tables?] at ht
    exact h t ht

theorem lockstep_run {s : Store} (h : ∀ t, s.disk.tables? = some t → Lockstep t)
    (calls : List Call) {t : Tables} (ht : (run s calls).disk.tables? = some t) : Lockstep t := by
  unfold run at ht
  induction calls generalizing s with
  | nil => exact h t ht
  | cons c rest ih =>
    rw [List.foldl_cons] at ht
    exact ih (fun _ ht' => lockstep_after h c ht') ht

theorem Lockstep.filter_texts {t : Tables} (h : Lockstep t) {e : Entity} (he : e ∈ t.entities) :
    t.texts.filter (·.id == e.id) = [Tables.textRow e] := by
  have hp := h.texts.filter (·.id == e.id)
  rw [List.filter_map] at hp
  have hone : t.entities.filter ((fun r => r.id == e.id) ∘ Tables.textRow) = [e] :=
    filter_id_eq h.nodup_ids he
  rw [hone] at hp
  exact List.perm_singleton.mp hp

/-- However a store came about from one that was never built, its tables mirror one another: identities
are distinct, each entity has exactly one full-text row, with its container and its text, no full-text row
and no edge is left without its entity, and no edge occurs twice. -/
theorem mirror_of_run {s : Store} (hs : s.disk.tables? = none) (calls : List Call) {t : Tables}
    (ht : (run s calls).disk.tables? = some t) :
    (t.entities.map Entity.id).Nodup ∧
      (∀ e ∈ t.entities, ∃ r, t.texts.filter (·.id == e.id) = [r] ∧
        r.container = e.container ∧ r.lexicalText = e.lexicalText) ∧
      (∀ r ∈ t.texts, r.id ∈ t.entities.map Entity.id) ∧
      (∀ d ∈ t.edges, d.source ∈ t.entities.map Entity.id) ∧
      (t.edges.map fun d => (d.source, d.target, Edge.kind)).Nodup := by
  have h : Lockstep t := lockstep_run (fun b hb => by rw [hs] at hb; cases hb) calls ht
  refine ⟨h.nodup_ids, fun e he => ⟨_, h.filter_texts he, rfl, rfl⟩, ?_, h.owned, ?_⟩
  · intro r hr
    rw [h.texts.mem_iff, List.mem_map] at hr
    obtain ⟨e, he, rfl⟩ := hr
    exact List.mem_map_of_mem he
  · apply h.nodup_edges.map
    intro a b hab
    cases a
    cases b
    simp only [Prod.mk.injEq] at hab
    rw [hab.1, hab.2.1]

/-- An identity that moves between files, batches that are rolled back, and a purge. -/
def handedOver : List Call :=
  let e : Entity := { id := "x", container := "A", name := "f", arity := 1, path := "a.ex"
                      startLine := 1, endLine := 2, lexicalText := "", references := ["B.g/0", "B.g/0"] }
  [{ asked := .rebuild [.entity e, .entity { e with startLine := 4, endLine := 5 }] },
    { asked := .merge [.entity { e with path := "b.ex" }] [.whole "c.ex"] },
    { asked := .merge [.entity { e with arity := integerBound }] [] },
    { asked := .merge [.draft { e.draft with name := .broken [0xD800] }] [.broken [0xDC80]] },
    { asked := .purge (.whole "a.ex"), isLocked := true }]

theorem mirror_of_handedOver :
    ∃ t, (run { path := "index.db" } handedOver).disk.tables? = some t ∧
      (t.entities.map Entity.id).Nodup ∧
      (∀ e ∈ t.entities, ∃ r, t.texts.filter (·.id == e.id) = [r] ∧
        r.container = e.container ∧ r.lexicalText = e.lexicalText) ∧
      (∀ r ∈ t.texts, r.id ∈ t.entities.map Entity.id) ∧
      (∀ d ∈ t.edges, d.source ∈ t.entities.map Entity.id) ∧
      (t.edges.map fun d => (d.source, d.target, Edge.kind)).Nodup := by
  have ht : (run { path := "index.db" } handedOver).disk.tables? = some
      { entities := [{ id := "x", container := "A", name := "f", arity := 1, path := "b.ex"
                       startLine := 1, endLine := 2, lexicalText := "" }]
        edges := [⟨"x", "B.g/0"⟩]
        texts := [⟨"x", "A", ""⟩] } := by
    decide +kernel
  exact ⟨_, ht, mirror_of_run rfl handedOver ht⟩

end CodeIndex.Store
