import CodeIndex.Proofs.Store.Reading

/-!
# Calling and being called

The callees of an entity are looked up by its own references, its callers by the references of all the
others.  Both go by the reference text: entities that share it are called together, and a reference that no
entity has leads nowhere.  Since the edges of the store are the references of its entities, one entity is
among the callees of another exactly if that one is among its callers.
-/

namespace CodeIndex.Store

/-! ## The rows of the stored entities -/

section

variable {t : Tables} {cat : Catalog}

theorem Represents.references_eq (h : Represents t cat) {e : Entity} (he : cat[e.id]? = some e) :
    e.references = t.referencesOf e.id := by
  rw [← h.get, h.lockstep.get?_eq_some] at he
  obtain ⟨r, -, -, hr⟩ := he
  exact (congrArg Entity.references hr).symm

/-- A row tells which entity it belongs to. -/
theorem Catalog.eq_of_row {a b : Entity} (ha : cat[a.id]? = some a)
    (hb : cat[b.id]? = some b) (hrow : Tables.row a = Tables.row b) : a = b := by
  have hid : (Tables.row a).id = (Tables.row b).id := congrArg Entity.id hrow
  change a.id = b.id at hid
  rw [hid, hb] at ha
  exact (Option.some.inj ha).symm

/-! ## Who is found -/

theorem Represents.mem_callees (h : Represents t cat) {e : Entity} (he : cat[e.id]? = some e)
    {x : Entity} :
    x ∈ t.callees e.id ↔
      ∃ n, cat[n.id]? = some n ∧ n.id ≠ e.id ∧ n.reference ∈ e.references ∧ Tables.row n = x := by
  unfold Tables.callees
  rw [(List.mergeSort_perm _ _).mem_iff, List.mem_filter, h.mem_entities, h.references_eq he]
  simp only [Bool.and_eq_true, List.contains_iff_mem, bne_iff_ne]
  constructor
  · rintro ⟨⟨n, hn, rfl⟩, hreference, hid⟩
    exact ⟨n, hn, hid, hreference, rfl⟩
  · rintro ⟨n, hn, hid, hreference, rfl⟩
    exact ⟨⟨n, hn, rfl⟩, hreference, hid⟩

theorem Tables.mem_referencesOf {t : Tables} {id target : String} :
    target ∈ t.referencesOf id ↔ ⟨id, target⟩ ∈ t.edges := by
  rw [referencesOf, List.mem_map]
  constructor
  · rintro ⟨⟨source, _⟩, hd, rfl⟩
    obtain ⟨hmem, hsource⟩ := List.mem_filter.mp hd
    rwa [← beq_iff_eq.mp hsource]
  · intro hmem
    exact ⟨⟨id, target⟩, List.mem_filter.mpr ⟨hmem, beq_self_eq_true id⟩, rfl⟩

theorem Tables.mem_sources {t : Tables} {id reference : String} :
    id ∈ (t.edges.filter (·.target == reference)).map Edge.source ↔ reference ∈ t.referencesOf id := by
  rw [mem_referencesOf, List.mem_map]
  constructor
  · rintro ⟨⟨_, target⟩, hd, rfl⟩
    obtain ⟨hmem, htarget⟩ := List.mem_filter.mp hd
    rwa [← beq_iff_eq.mp htarget]
  · intro hmem
    exact ⟨⟨id, reference⟩, List.mem_filter.mpr ⟨hmem, beq_self_eq_true reference⟩, rfl⟩

/-- The callers of a stored entity: the sources of the edges to its reference, itself apart. -/
theorem Represents.callers_eq (h : Represents t cat) {n : Entity} (hn : cat[n.id]? = some n) :
    t.callers n.id =
      ((Text.distinct ((t.edges.filter (·.target == n.reference)).map Edge.source)).filter
        (· != n.id)).filterMap t.find? := by
  have hrow : t.find? n.id = some (Tables.row n) :=
    h.lockstep.find?_eq_some.mpr ⟨h.row_mem hn, rfl⟩
  unfold Tables.callers
  rw [hrow]
  rfl

theorem Represents.mem_callers (h : Represents t cat) {n : Entity} (hn : cat[n.id]? = some n)
    {x : Entity} :
    x ∈ t.callers n.id ↔
      ∃ e, cat[e.id]? = some e ∧ e.id ≠ n.id ∧ n.reference ∈ e.references ∧ Tables.row e = x := by
  -- a source is known by its identity only, and the reference is among those of the row that it leads to
  rw [h.callers_eq hn, List.mem_filterMap]
  simp only [List.mem_filter, Text.mem_distinct, Tables.mem_sources, bne_iff_ne,
    h.lockstep.find?_eq_some, h.mem_entities]
  constructor
  · rintro ⟨id, ⟨hreference, hne⟩, ⟨e, he, rfl⟩, rfl⟩
    rw [show (Tables.row e).id = e.id from rfl, ← h.references_eq he] at hreference
    exact ⟨e, he, hne, hreference, rfl⟩
  · rintro ⟨e, he, hne, hreference, rfl⟩
    rw [h.references_eq he] at hreference
    exact ⟨e.id, ⟨hreference, hne⟩, ⟨e, he, rfl⟩, rfl⟩

/-! ## Each once, and how many -/

theorem Lockstep.nodup_callees (h : Lockstep t) (id : String) :
    ((t.callees id).map Entity.id).Nodup := by
  have hperm : (t.callees id).Perm
      (t.entities.filter fun e => (t.referencesOf id).contains e.reference && e.id != id) :=
    List.mergeSort_perm _ _
  rw [(hperm.map Entity.id).nodup_iff]
  exact h.nodup_ids.sublist (List.filter_sublist.map _)

theorem Lockstep.nodup_callers (h : Lockstep t) (id : String) :
    ((t.callers id).map Entity.id).Nodup := by
  unfold Tables.callers
  split
  · exact List.nodup_nil
  next row hrow =>
    -- each source leads to the entity of that identity, so that the identities are sources
    have hsource : ∀ sources : List String,
        ((sources.filterMap t.find?).map Entity.id).Sublist sources := by
      intro sources
      induction sources with
      | nil => exact .slnil
      | cons source rest ih =>
        cases hfind : t.find? source with
        | none =>
          rw [List.filterMap_cons_none hfind]
          exact ih.cons source
        | some e =>
          rw [List.filterMap_cons_some hfind, List.map_cons, (h.find?_eq_some.mp hfind).2]
          exact ih.cons_cons source
    exact ((Text.nodup_distinct _).filter _).sublist (hsource _)

/-- Entities of distinct identities are at most as many as the rows that they are among. -/
theorem length_le_of_nodup_ids {found rows : List Entity} (hids : (found.map Entity.id).Nodup)
    (hmem : ∀ e ∈ found, e ∈ rows) : found.length ≤ rows.length :=
  ((List.Nodup.of_map Entity.id hids).subperm hmem).length_le

theorem Represents.length_callees_le (h : Represents t cat) (id : String) :
    (t.callees id).length ≤ cat.size := by
  rw [h.size_eq]
  exact length_le_of_nodup_ids (h.lockstep.nodup_callees id) fun _ => Tables.mem_entities_of_mem_callees

theorem Represents.length_callers_le (h : Represents t cat) (id : String) :
    (t.callers id).length ≤ cat.size := by
  rw [h.size_eq]
  exact length_le_of_nodup_ids (h.lockstep.nodup_callers id) fun _ => Tables.mem_entities_of_mem_callers

end

/-! ## Up to a limit -/

theorem upTo_of_length_le {α : Type} {limit : Int} {items : List α} (h : items.length ≤ limit) :
    upTo limit items = items := by
  rw [upTo, if_neg (by omega), List.take_of_length_le (by omega)]

/-- A list is part of another: as many of its items as a limit allows. -/
structure IsPart {α : Type} (limit : Int) (items whole : List α) : Prop where
  length : (items.length : Int) = min limit whole.length
  sublist : items.Sublist whole

theorem isPart_upTo {α : Type} {limit : Int} (h : 0 ≤ limit) (items : List α) :
    IsPart limit (upTo limit items) items := by
  rw [upTo, if_neg (by omega)]
  constructor
  · rw [List.length_take]
    omega
  · exact List.take_sublist _ _

theorem isInRange_of_nonneg {limit : Int} (h : 0 ≤ limit) (hrange : limit < integerBound) :
    isInRange limit = true := by
  rw [isInRange, Bool.and_eq_true, decide_eq_true_eq, decide_eq_true_eq]
  omega

/-- Entities of a catalog other than one of them, each once, with what their rows have. -/
structure AreOthers (cat : Catalog) (e : Entity) (found : List Entity) : Prop where
  stored : ∀ x ∈ found, ∃ n, cat[n.id]? = some n ∧ Tables.row n = x
  nodup : (found.map Entity.id).Nodup
  others : e.id ∉ found.map Entity.id

section

variable {t : Tables} {cat : Catalog}

theorem Represents.areOthers_callees (h : Represents t cat) {e : Entity} (he : cat[e.id]? = some e) :
    AreOthers cat e (t.callees e.id) where
  stored x hx := by
    obtain ⟨n, hn, -, -, hrow⟩ := (h.mem_callees he).mp hx
    exact ⟨n, hn, hrow⟩
  nodup := h.lockstep.nodup_callees e.id
  others hid := by
    obtain ⟨x, hx, hxid⟩ := List.mem_map.mp hid
    obtain ⟨n, -, hne, -, rfl⟩ := (h.mem_callees he).mp hx
    exact hne hxid

theorem Represents.areOthers_callers (h : Represents t cat) {e : Entity} (he : cat[e.id]? = some e) :
    AreOthers cat e (t.callers e.id) where
  stored x hx := by
    obtain ⟨n, hn, -, -, hrow⟩ := (h.mem_callers he).mp hx
    exact ⟨n, hn, hrow⟩
  nodup := h.lockstep.nodup_callers e.id
  others hid := by
    obtain ⟨x, hx, hxid⟩ := List.mem_map.mp hid
    obtain ⟨n, -, hne, -, rfl⟩ := (h.mem_callers he).mp hx
    exact hne hxid

/-- An entity is called by another just if that one has its reference. -/
theorem Represents.row_mem_callees (h : Represents t cat) {e n : Entity} (he : cat[e.id]? = some e)
    (hn : cat[n.id]? = some n) (hne : e.id ≠ n.id) :
    Tables.row n ∈ t.callees e.id ↔ n.reference ∈ e.references := by
  rw [h.mem_callees he]
  constructor
  · rintro ⟨m, hm, -, hreference, hrow⟩
    rwa [Catalog.eq_of_row hm hn hrow] at hreference
  · intro hreference
    exact ⟨n, hn, hne.symm, hreference, rfl⟩

theorem Represents.row_mem_callers (h : Represents t cat) {e n : Entity} (he : cat[e.id]? = some e)
    (hn : cat[n.id]? = some n) (hne : e.id ≠ n.id) :
    Tables.row e ∈ t.callers n.id ↔ n.reference ∈ e.references := by
  rw [h.mem_callers hn]
  constructor
  · rintro ⟨d, hd, -, hreference, hrow⟩
    rwa [Catalog.eq_of_row hd he hrow] at hreference
  · intro hreference
    exact ⟨e, he, hne, hreference, rfl⟩

end

/-- However a store came about from one that was never built, calling and being called are one relation
seen from both sides, which holds of two entities if one has the reference of the other.  No entity is its
own neighbour or another's twice, and a smaller limit shows as many of the neighbours as it allows. -/
theorem neighbors_dual {s : Store} (hs : s.disk.tables? = none) {calls : List Call}
    (hcalls : ∀ call ∈ calls, IsNormal call.asked) {t : Tables} (ht : (run s calls).disk.tables? = some t)
    {cat : Catalog} (hc : cat = Catalog.ofRun ∅ s calls) {limit : Int} (hsize : cat.size ≤ limit)
    (hrange : limit < integerBound) :
    ∃ around : Entity → Neighbors,
      (∀ e, cat[e.id]? = some e →
        (neighbors (.whole e.id) limit).on (run s calls) = (.ok (around e), run s calls) ∧
          AreOthers cat e (around e).callees ∧ AreOthers cat e (around e).callers ∧
          ∀ fewer : Int, 0 ≤ fewer → fewer < limit →
            ∃ shown, (neighbors (.whole e.id) fewer).on (run s calls) = (.ok shown, run s calls) ∧
              IsPart fewer shown.callees (around e).callees ∧
              IsPart fewer shown.callers (around e).callers) ∧
      ∀ e n, cat[e.id]? = some e → cat[n.id]? = some n → e.id ≠ n.id →
        (Tables.row n ∈ (around e).callees ↔ Tables.row e ∈ (around n).callers) ∧
          (Tables.row e ∈ (around n).callers ↔ n.reference ∈ e.references) := by
  subst hc
  have hnone : ∀ t, s.disk.tables? = some t → Represents t ∅ := by
    intro t ht
    rw [hs] at ht
    cases ht
  have h := represents_run hnone hcalls t ht
  refine ⟨fun e => { callees := t.callees e.id, callers := t.callers e.id }, ?_, ?_⟩
  · intro e he
    refine ⟨?_, h.areOthers_callees he, h.areOthers_callers he, ?_⟩
    · have hcallees := h.length_callees_le e.id
      have hcallers := h.length_callers_le e.id
      rw [on_neighbors ht h.isSound, t.surroundings_of_inRange e.id (isInRange_of_nonneg (by omega) hrange),
        upTo_of_length_le (by omega), upTo_of_length_le (by omega)]
      rfl
    · intro fewer hnonneg hless
      have hin := isInRange_of_nonneg hnonneg (by omega)
      refine ⟨{ callees := upTo fewer (t.callees e.id), callers := upTo fewer (t.callers e.id) }, ?_,
        isPart_upTo hnonneg _, isPart_upTo hnonneg _⟩
      rw [on_neighbors ht h.isSound, t.surroundings_of_inRange e.id hin]
      rfl
  · intro e n he hn hne
    have hcalls := h.row_mem_callees he hn hne
    have hcalled := h.row_mem_callers he hn hne
    exact ⟨hcalls.trans hcalled.symm, hcalled⟩

/-- An entity that calls another, itself, and what is not there. -/
def caller : Entity :=
  { id := "x", container := "A", name := "f", arity := 1, path := "a.ex", startLine := 1, endLine := 2, lexicalText := ""
    references := ["B.g/0", "A.f/1", "C.h/2"] }

def callee : Entity :=
  { id := "y", container := "B", name := "g", arity := 0, path := "b.ex", startLine := 1, endLine := 1, lexicalText := ""
    references := ["A.f/1"] }

/-- Two entities that call one another, and a third that shares a reference text with one of them. -/
def calling : List Call :=
  [{ asked := .rebuild [.entity caller, .entity callee] },
    { asked := .merge [.entity { callee with id := "z", path := "c.ex", references := [] }] [.whole "d.ex"] }]

theorem neighbors_dual_calling :
    let s' := run { path := "index.db" } calling
    ∃ calls called, (neighbors (.whole "x") 3).on s' = (.ok calls, s') ∧
      (neighbors (.whole "y") 3).on s' = (.ok called, s') ∧
      Tables.row callee ∈ calls.callees ∧ Tables.row caller ∈ called.callers ∧
      Tables.row caller ∉ calls.callees ∧
      ∃ shown, (neighbors (.whole "x") 1).on s' = (.ok shown, s') ∧ IsPart 1 shown.callees calls.callees := by
  obtain ⟨t, ht⟩ : ∃ t, (run { path := "index.db" } calling).disk.tables? = some t :=
    Option.isSome_iff_exists.mp (by decide +kernel)
  have hcalls : ∀ call ∈ calling, IsNormal call.asked := by decide
  have hcaller : (Catalog.ofRun ∅ { path := "index.db" } calling)[caller.id]? = some caller := by
    decide +kernel
  have hcallee : (Catalog.ofRun ∅ { path := "index.db" } calling)[callee.id]? = some callee := by
    decide +kernel
  have hsize : ((Catalog.ofRun ∅ { path := "index.db" } calling).size : Int) ≤ 3 := by
    decide +kernel
  obtain ⟨around, hon, hdual⟩ :=
    neighbors_dual (s := { path := "index.db" }) rfl hcalls ht rfl hsize (by decide)
  obtain ⟨hcallers, hreference⟩ := hdual caller callee hcaller hcallee (by decide)
  have hcalled := hreference.mpr (by decide)
  obtain ⟨honCaller, hothers, -, hfewer⟩ := hon caller hcaller
  obtain ⟨shown, hshown, hpart, -⟩ := hfewer 1 (by decide) (by decide)
  refine ⟨around caller, around callee, honCaller, (hon callee hcallee).1, hcallers.mpr hcalled,
    hcalled, ?_, shown, hshown, hpart⟩
  intro hown
  have hid : (Tables.row caller).id ∈ (around caller).callees.map Entity.id :=
    List.mem_map_of_mem hown
  exact hothers.others hid

/-- A limit that the tables cannot hold is refused though it is at least the number of entities, and one
of them calls the other. -/
theorem neighbors_refused_calling :
    let s' := run { path := "index.db" } calling
    let cat := Catalog.ofRun ∅ { path := "index.db" } calling
    cat.size ≤ integerBound ∧ cat["x"]? = some caller ∧ cat["y"]? = some callee ∧
      callee.reference ∈ caller.references ∧
      (neighbors (.whole "x") integerBound).on s' = (.error (.mishap .integerTooLarge), s') ∧
      (neighbors (.whole "y") integerBound).on s' = (.error (.mishap .integerTooLarge), s') := by
  intro s' cat
  obtain ⟨t, ht⟩ : ∃ t, s'.disk.tables? = some t := Option.isSome_iff_exists.mp (by decide +kernel)
  have hsound : t.IsSound := (represents_of_unbuilt rfl (by decide) ht).isSound
  have hrefused : ∀ id : String,
      (neighbors (.whole id) integerBound).on s' = (.error (.mishap .integerTooLarge), s') := by
    intro id
    rw [on_neighbors ht hsound, t.surroundings_of_not_inRange id (by decide)]
    rfl
  exact ⟨by decide +kernel, by decide +kernel, by decide +kernel, by decide, hrefused "x", hrefused "y"⟩

end CodeIndex.Store
