import CodeIndex.Proofs.Entity.Normal
import CodeIndex.Proofs.Record.Batch
import CodeIndex.Proofs.Store.Stored
import CodeIndex.Proofs.Store.Success
import Mathlib.Algebra.BigOperators.Group.Finset.Basic
import Mathlib.Algebra.GroupWithZero.Nat
import Std.Data.ExtTreeMap

/-!
# The store as a map

Seen from outside, a store is a map from identities to entities.  A full rebuild replaces the map, a merge
removes what it has for some paths and sets the merged entities, and a purge removes a path.  One entity
of the map is spread over the three tables; `Represents` says that they hold it together.  Each change
keeps this, by the lockstep of the tables and by what it does to the references of one identity, and so
does every run of changes.  What the store gives back are then the entities of the map, unchanged by the
check that they pass on the way.
-/

namespace CodeIndex.Store

/-! ## Catalogs -/

/-- A map from identities to entities. -/
abbrev Catalog := Std.ExtTreeMap String Entity

namespace Catalog

def putAll (cat : Catalog) (entities : List Entity) : Catalog :=
  entities.foldl (fun cat e => cat.insert e.id e) cat

/-- The catalog without what it has for some paths. -/
def without (cat : Catalog) (paths : List String) : Catalog :=
  cat.filter fun _ e => !paths.contains e.path

def after (cat : Catalog) : Change → Catalog
  | .rebuild records => putAll ∅ (entitiesIn records)
  | .merge records paths =>
    (cat.without ((entitiesIn records).map Entity.path ++ Writing.wholes paths)).putAll
      (entitiesIn records)
  | .purge path => cat.without path.whole?.toList

/-- The number that a change answers: of the entities it brings, or of those it removes. -/
def answer (cat : Catalog) : Change → Nat
  | .rebuild records => (entitiesIn records).length
  | .merge records _ => (entitiesIn records).length
  | .purge path => (cat.filter fun _ e => path.whole? == some e.path).size

def entities (cat : Catalog) : List Entity :=
  cat.toList.map Prod.snd

def referenceCount (cat : Catalog) : Nat :=
  (cat.entities.map fun e => e.references.length).sum

theorem getElem?_without (cat : Catalog) (paths : List String) (id : String) :
    (cat.without paths)[id]? = cat[id]?.filter fun e => !paths.contains e.path :=
  Std.ExtTreeMap.getElem?_filter'

/-- The order in which paths are listed, and how often, does not matter. -/
theorem without_affected (cat : Catalog) (entities : List Entity) (paths : List String) :
    cat.without (affected entities paths) = cat.without (entities.map Entity.path ++ paths) := by
  have h : ∀ path, (affected entities paths).contains path =
      (entities.map Entity.path ++ paths).contains path := by
    intro path
    rw [Bool.eq_iff_iff, List.contains_iff_mem, List.contains_iff_mem, affected, Text.mem_sortedBy,
      Text.mem_distinct]
  simp only [without, h]

theorem getElem?_putAll (cat : Catalog) {entities : List Entity}
    (h : (entities.map Entity.id).Nodup) (id : String) :
    (cat.putAll entities)[id]? = (entities.find? (·.id == id)).or cat[id]? := by
  unfold putAll
  induction entities generalizing cat with
  | nil => rfl
  | cons e rest ih =>
    rw [List.map_cons, List.nodup_cons] at h
    rw [List.foldl_cons, ih _ h.2, Std.ExtTreeMap.getElem?_insert]
    by_cases hid : e.id = id
    · have hnone : rest.find? (·.id == id) = none := by
        rw [List.find?_eq_none]
        intro x hx hxid
        exact h.1 (List.mem_map.mpr ⟨x, hx, (beq_iff_eq.mp hxid).trans hid.symm⟩)
      rw [hnone, List.find?_cons_of_pos (by simpa using hid), if_pos (by rw [hid]; exact
        Std.ReflCmp.compare_self)]
      rfl
    · have hne : compare e.id id ≠ .eq := fun he => hid (Std.LawfulEqCmp.eq_of_compare he)
      rw [if_neg hne, List.find?_cons_of_neg (by simpa using hid)]

end Catalog

/-! ## What the tables have for one identity -/

theorem Lockstep.find?_eq_some {t : Tables} (h : Lockstep t) {id : String} {e : Entity} :
    t.find? id = some e ↔ e ∈ t.entities ∧ e.id = id := by
  unfold Tables.find?
  constructor
  · intro hf
    exact ⟨List.mem_of_find?_eq_some hf, by simpa using List.find?_some hf⟩
  · rintro ⟨he, rfl⟩
    have hone := filter_id_eq h.nodup_ids he
    rw [← List.head?_filter, hone]
    rfl

theorem Lockstep.get?_eq_some {t : Tables} (h : Lockstep t) {id : String} {x : Entity} :
    t.get? id = some x ↔
      ∃ e ∈ t.entities, e.id = id ∧ { e with references := t.referencesOf id } = x := by
  simp only [Tables.get?, Option.map_eq_some_iff, h.find?_eq_some, and_assoc]

theorem Lockstep.get?_purge {t : Tables} (h : Lockstep t) (path id : String) :
    (t.purge path).get? id = (t.get? id).filter fun e => e.path != path := by
  have hrefs : ∀ e ∈ t.entities, e.path ≠ path →
      (t.purge path).referencesOf e.id = t.referencesOf e.id := by
    intro e he hp
    rw [Tables.referencesOf_purge, if_neg (by rwa [h.mem_idsAt he])]
  ext x
  rw [(h.purge path).get?_eq_some, Option.filter_eq_some_iff, h.get?_eq_some]
  constructor
  · rintro ⟨e, he, rfl, rfl⟩
    obtain ⟨he, hp⟩ := List.mem_filter.mp he
    exact ⟨⟨e, he, rfl, by rw [hrefs e he (by simpa using hp)]⟩, hp⟩
  · rintro ⟨⟨e, he, rfl, rfl⟩, hp⟩
    refine ⟨e, List.mem_filter.mpr ⟨he, hp⟩, rfl, ?_⟩
    rw [hrefs e he (by simpa using hp)]

theorem Lockstep.get?_purgeAll {t : Tables} (h : Lockstep t) (paths : List String) (id : String) :
    (t.purgeAll paths).get? id = (t.get? id).filter fun e => !paths.contains e.path := by
  unfold Tables.purgeAll
  induction paths generalizing t with
  | nil =>
    rw [List.foldl_nil]
    cases t.get? id <;> rfl
  | cons path rest ih =>
    rw [List.foldl_cons, ih (h.purge path), h.get?_purge, Option.filter_filter]
    congr 1
    funext e
    rw [List.contains_cons, Bool.not_or, bne, Bool.and_comm]

/-- An insertion sets each entity at its identity, each of its references once. -/
theorem Lockstep.get?_insert {t : Tables} (h : Lockstep t) {entities : List Entity}
    (hids : (entities.map Entity.id).Nodup) (id : String) :
    (t.insert entities).get? id =
      ((entities.find? (·.id == id)).map Tables.kept).or (t.get? id) := by
  cases hf : entities.find? (·.id == id) with
  | some e =>
    -- the row is the new one, and its references are those just added
    have he := List.mem_of_find?_eq_some hf
    have hid : e.id = id := by simpa using List.find?_some hf
    subst hid
    rw [Option.map_some, Option.some_or, (h.insert hids).get?_eq_some]
    refine ⟨Tables.row e, ?_, rfl, ?_⟩
    · rw [Tables.entities_insert t hids]
      exact List.mem_append_right _ (List.mem_map_of_mem he)
    · rw [Tables.referencesOf_insert_of_mem t hids he]
      rfl
  | none =>
    have hnot : id ∉ entities.map Entity.id := by
      intro hmem
      obtain ⟨e, he, hid⟩ := List.mem_map.mp hmem
      exact List.find?_eq_none.mp hf e he (by simpa using hid)
    rw [Option.map_none, Option.none_or]
    ext x
    rw [(h.insert hids).get?_eq_some, h.get?_eq_some,
      Tables.referencesOf_insert_of_not_mem t hnot, Tables.entities_insert t hids]
    constructor
    · rintro ⟨e, he, rfl, rfl⟩
      rcases List.mem_append.mp he with he | he
      · exact ⟨e, (List.mem_filter.mp he).1, rfl, rfl⟩
      · obtain ⟨y, hy, rfl⟩ := List.mem_map.mp he
        exact (hnot (List.mem_map.mpr ⟨y, hy, rfl⟩)).elim
    · rintro ⟨e, he, rfl, rfl⟩
      refine ⟨e, List.mem_append_left _ (List.mem_filter.mpr ⟨he, ?_⟩), rfl, rfl⟩
      simpa using hnot

/-! ## Tables that represent a catalog -/

/-- The tables hold the entities of a catalog, all in normal form. -/
structure Represents (t : Tables) (cat : Catalog) : Prop where
  lockstep : Lockstep t
  get : ∀ id, t.get? id = cat[id]?
  normal : ∀ (id : String) (e : Entity), cat[id]? = some e → e.IsNormal

theorem Represents.empty : Represents {} ∅ where
  lockstep := .empty
  get _ := rfl
  normal := nofun

theorem Represents.without {t : Tables} {cat : Catalog} (h : Represents t cat) (paths : List String) :
    Represents (t.purgeAll paths) (cat.without paths) where
  lockstep := h.lockstep.purgeAll paths
  get id := by rw [h.lockstep.get?_purgeAll, h.get, Catalog.getElem?_without]
  normal id e he := by
    rw [Catalog.getElem?_without, Option.filter_eq_some_iff] at he
    exact h.normal id e he.1

theorem Tables.kept_of_isNormal {e : Entity} (h : e.IsNormal) : Tables.kept e = e := by
  unfold Tables.kept
  rw [Text.distinct_of_nodup h.references]

theorem Represents.putAll {t : Tables} {cat : Catalog} (h : Represents t cat) {entities : List Entity}
    (hids : (entities.map Entity.id).Nodup) (hnormal : ∀ e ∈ entities, e.IsNormal) :
    Represents (t.insert entities) (cat.putAll entities) where
  lockstep := h.lockstep.insert hids
  get id := by
    rw [h.lockstep.get?_insert hids, Catalog.getElem?_putAll cat hids, h.get]
    cases hf : entities.find? (·.id == id) with
    | none => rfl
    | some e => rw [Option.map_some, Tables.kept_of_isNormal (hnormal e (List.mem_of_find?_eq_some hf))]
  normal id e he := by
    rw [Catalog.getElem?_putAll cat hids, Option.or_eq_some_iff] at he
    rcases he with he | ⟨-, he⟩
    · exact hnormal e (List.mem_of_find?_eq_some he)
    · exact h.normal id e he

/-! ## Counting -/

/-- The entities that the tables hold, with their references. -/
def Tables.full (t : Tables) : List Entity :=
  t.entities.map fun e => { e with references := t.referencesOf e.id }

theorem Tables.map_id_full (t : Tables) : t.full.map Entity.id = t.entities.map Entity.id := by
  rw [Tables.full, List.map_map]
  rfl

theorem Represents.mem_full {t : Tables} {cat : Catalog} (h : Represents t cat) {x : Entity} :
    x ∈ t.full ↔ cat[x.id]? = some x := by
  rw [← h.get, h.lockstep.get?_eq_some, Tables.full, List.mem_map]
  constructor
  · rintro ⟨e, he, rfl⟩
    exact ⟨e, he, rfl, rfl⟩
  · rintro ⟨e, he, hid, hx⟩
    exact ⟨e, he, by rw [← hid] at hx; exact hx⟩

/-- What a catalog has at an identity is an entity of that identity. -/
theorem Represents.id_eq {t : Tables} {cat : Catalog} (h : Represents t cat) {id : String} {e : Entity}
    (he : cat[id]? = some e) : e.id = id := by
  rw [← h.get, h.lockstep.get?_eq_some] at he
  obtain ⟨_, -, rfl, rfl⟩ := he
  rfl

theorem Represents.perm {t : Tables} {cat : Catalog} (h : Represents t cat) :
    cat.entities.Perm t.full := by
  have hids : cat.entities.map Entity.id = cat.keys := by
    rw [Catalog.entities, List.map_map, ← Std.ExtTreeMap.map_fst_toList_eq_keys]
    apply List.map_congr_left
    rintro ⟨id, e⟩ he
    exact h.id_eq (Std.ExtTreeMap.mem_toList_iff_getElem?_eq_some.mp he)
  have hc : cat.entities.Nodup := .of_map Entity.id (hids ▸ Std.ExtTreeMap.nodup_keys)
  have ht : t.full.Nodup := .of_map Entity.id (t.map_id_full ▸ h.lockstep.nodup_ids)
  rw [List.perm_ext_iff_of_nodup hc ht]
  intro x
  rw [h.mem_full, Catalog.entities, List.mem_map]
  constructor
  · rintro ⟨⟨id, e⟩, he, rfl⟩
    rw [Std.ExtTreeMap.mem_toList_iff_getElem?_eq_some] at he
    simpa only [h.id_eq he] using he
  · intro hx
    exact ⟨(x.id, x), Std.ExtTreeMap.mem_toList_iff_getElem?_eq_some.mpr hx, rfl⟩

theorem Represents.size_eq {t : Tables} {cat : Catalog} (h : Represents t cat) :
    cat.size = t.entities.length := by
  have := h.perm.length_eq
  rwa [Catalog.entities, Tables.full, List.length_map, List.length_map,
    Std.ExtTreeMap.length_toList] at this

/-- Every edge is a reference of exactly one entity. -/
theorem Lockstep.sum_references {t : Tables} (h : Lockstep t) :
    (t.entities.map fun e => (t.referencesOf e.id).length).sum = t.edges.length := by
  have hcount : ∀ id, (t.referencesOf id).length = (t.edges.map Edge.source).count id := by
    intro id
    rw [Tables.referencesOf, List.length_map, List.count, List.countP_map, List.countP_eq_length_filter]
    rfl
  have hmem : ∀ id ∈ (t.edges.map Edge.source : Multiset String),
      id ∈ (t.entities.map Entity.id).toFinset := by
    intro id hid
    rw [List.mem_toFinset]
    obtain ⟨d, hd, rfl⟩ := List.mem_map.mp hid
    exact h.owned d hd
  calc (t.entities.map fun e => (t.referencesOf e.id).length).sum
      = ((t.entities.map Entity.id).map fun id => (t.edges.map Edge.source).count id).sum := by
        rw [List.map_map]
        simp only [hcount]
        rfl
    _ = ∑ id ∈ (t.entities.map Entity.id).toFinset, (t.edges.map Edge.source).count id :=
        (List.sum_toFinset _ h.nodup_ids).symm
    _ = (t.edges.map Edge.source).length := by
        simpa only [Multiset.coe_count, Multiset.coe_card] using Multiset.sum_count_eq_card hmem
    _ = t.edges.length := List.length_map _

theorem Represents.referenceCount_eq {t : Tables} {cat : Catalog} (h : Represents t cat) :
    cat.referenceCount = t.edges.length := by
  rw [Catalog.referenceCount, (h.perm.map _).sum_eq, Tables.full, List.map_map,
    ← h.lockstep.sum_references]
  rfl

theorem Represents.removed_eq {t : Tables} {cat : Catalog} (h : Represents t cat) (path : String) :
    cat.answer (.purge (.whole path)) = t.entities.length - (t.purge path).entities.length := by
  have hfull : (t.full.filter (·.path == path)).length =
      (t.entities.filter (·.path == path)).length := by
    rw [Tables.full, List.filter_map, List.length_map]
    rfl
  have hkept : (t.purge path).entities.length = (t.entities.filter fun e => !(e.path == path)).length :=
    rfl
  have hparts := t.entities.length_eq_length_filter_add (·.path == path)
  have hpath : ∀ e : Entity, ((Writing.whole path).whole? == some e.path) = (e.path == path) := by
    intro e
    rw [Writing.whole?_whole, Option.some_beq_some, Bool.beq_comm]
  simp only [Catalog.answer, hpath]
  rw [← Std.ExtTreeMap.length_toList, Std.ExtTreeMap.toList_filter, hkept]
  have hlist : (cat.toList.filter fun p => p.2.path == path).length =
      (cat.entities.filter (·.path == path)).length := by
    rw [Catalog.entities, List.filter_map, List.length_map]
    rfl
  rw [hlist, (h.perm.filter _).length_eq, hfull]
  omega

/-! ## Changes and runs -/

/-- A change all of whose records are in normal form. -/
def IsNormal : Change → Prop
  | .rebuild records => ∀ r ∈ records, r.IsNormal
  | .merge records _ => ∀ r ∈ records, r.IsNormal
  | .purge _ => True

instance : (c : Change) → Decidable (IsNormal c)
  | .rebuild records => inferInstanceAs (Decidable (∀ r ∈ records, r.IsNormal))
  | .merge records _ => inferInstanceAs (Decidable (∀ r ∈ records, r.IsNormal))
  | .purge _ => .isTrue trivial

theorem isNormal_of_mem_draftsIn {records : List Record}
    (hread : (Batch.ofRecords records).stopped = none) (h : ∀ r ∈ records, r.IsNormal) :
    ∀ d ∈ draftsIn records, Draft.IsNormal d :=
  Draft.IsNormal.mergeClauses (Batch.isNormal_of_mem hread h)

theorem isNormal_of_mem_entitiesIn {records : List Record}
    (hread : (Batch.ofRecords records).stopped = none) (h : ∀ r ∈ records, r.IsNormal) :
    ∀ e ∈ entitiesIn records, e.IsNormal := by
  intro e he
  obtain ⟨d, hd, hwhole⟩ := List.mem_filterMap.mp he
  obtain rfl := Entity.whole?_eq_some_iff.mp hwhole
  exact Entity.isNormal_draft.mp (isNormal_of_mem_draftsIn hread h _ hd)

theorem Effect.represents {c : Change} {before : Option Tables} {t : Tables} {n : Nat} {cat : Catalog}
    (h : Effect c before t n) (hb : ∀ b, before = some b → Represents b cat) (hc : IsNormal c) :
    Represents t (cat.after c) := by
  cases h with
  | rebuild hread =>
    exact Represents.empty.putAll (nodup_map_id_entitiesIn _) (isNormal_of_mem_entitiesIn hread hc)
  | @merge records paths b hread =>
    have hmerge := ((hb b rfl).without (affected (entitiesIn records) (Writing.wholes paths))).putAll
      (nodup_map_id_entitiesIn _) (isNormal_of_mem_entitiesIn hread hc)
    rwa [Catalog.without_affected] at hmerge
  | @purge path b => exact (hb b rfl).without [path]

theorem Effect.eq_answer {c : Change} {before : Option Tables} {t : Tables} {n : Nat} {cat : Catalog}
    (h : Effect c before t n) (hb : ∀ b, before = some b → Represents b cat) : n = cat.answer c := by
  cases h with
  | rebuild => rfl
  | merge => rfl
  | @purge path b => exact ((hb b rfl).removed_eq path).symm

/-- The catalog after a call: a call that fails leaves it as it is. -/
def Catalog.follow (cat : Catalog) (s : Store) (call : Call) : Catalog :=
  match ((change call.asked).on { s with isLocked := call.isLocked }).1 with
  | .ok _ => cat.after call.asked
  | .error _ => cat

/-- The catalog after calls, one after another. -/
def Catalog.ofRun (cat : Catalog) (s : Store) : List Call → Catalog
  | [] => cat
  | call :: rest => (cat.follow s call).ofRun (call.after s) rest

/-- The tables represent the catalog after each call, if they did before it. -/
theorem represents_after {s : Store} {cat : Catalog}
    (h : ∀ t, s.disk.tables? = some t → Represents t cat) {call : Call} (hcall : IsNormal call.asked) :
    ∀ t, (call.after s).disk.tables? = some t → Represents t (cat.follow s call) := by
  intro t ht
  unfold Call.after at ht
  unfold Catalog.follow
  obtain ⟨n, t', s', hon, hw, he⟩ | ⟨e, s', hon, hk⟩ :=
    change_cases call.asked { s with isLocked := call.isLocked }
  · rw [hon, hw.tables?] at ht
    cases ht
    rw [hon]
    exact he.represents h hcall
  · rw [hon, hk.tables?] at ht
    rw [hon]
    exact h t ht

theorem represents_run {s : Store} {cat : Catalog} (h : ∀ t, s.disk.tables? = some t → Represents t cat)
    {calls : List Call} (hcalls : ∀ call ∈ calls, IsNormal call.asked) :
    ∀ t, (run s calls).disk.tables? = some t → Represents t (cat.ofRun s calls) := by
  unfold run
  induction calls generalizing s cat with
  | nil => exact h
  | cons call rest ih =>
    rw [List.foldl_cons, Catalog.ofRun]
    exact ih (represents_after h (hcalls call List.mem_cons_self)) fun x hx =>
      hcalls x (List.mem_cons_of_mem call hx)

/-- A call changes neither where the store is, nor its settings, nor what its engine takes. -/
theorem settings_after (s : Store) (call : Call) :
    (call.after s).settings = s.settings ∧ (call.after s).path = s.path ∧
      (call.after s).variableLimit = s.variableLimit := by
  unfold Call.after
  obtain ⟨n, t, s', hon, ⟨logged, rfl⟩, -⟩ | ⟨e, s', hon, disk, logged, rfl, -⟩ :=
    change_cases call.asked { s with isLocked := call.isLocked } <;> rw [hon] <;> exact ⟨rfl, rfl, rfl⟩

theorem settings_run (s : Store) (calls : List Call) :
    (run s calls).settings = s.settings ∧ (run s calls).path = s.path ∧
      (run s calls).variableLimit = s.variableLimit := by
  unfold run
  induction calls generalizing s with
  | nil => exact ⟨rfl, rfl, rfl⟩
  | cons call rest ih =>
    rw [List.foldl_cons]
    obtain ⟨hsettings, hpath, hlimit⟩ := settings_after s call
    rw [← hsettings, ← hpath, ← hlimit]
    exact ih _

/-- A store that was built has asked for the lock at least once, and so would again. -/
theorem tries_of_run {s : Store} (hs : s.disk.tables? = none) {calls : List Call} {t : Tables}
    (ht : (run s calls).disk.tables? = some t) : 0 ≤ (run s calls).settings.maxRetries := by
  rw [(settings_run s calls).1]
  induction calls generalizing s with
  | nil =>
    change s.disk.tables? = some t at ht
    rw [hs] at ht
    cases ht
  | cons call rest ih =>
    unfold run at ht
    rw [List.foldl_cons] at ht
    rw [← (settings_after s call).1]
    -- a call that fails leaves the store without tables
    by_cases hafter : (call.after s).disk.tables? = none
    · exact ih hafter ht
    · rw [(settings_after s call).1]
      unfold Call.after at hafter
      obtain ⟨n, t', s', hon, -, -⟩ | ⟨e, s', hon, hk⟩ :=
        change_cases call.asked { s with isLocked := call.isLocked }
      · exact (isFree_of_change hon).1
      · rw [hon] at hafter
        exact absurd (hk.tables?.trans hs) hafter

theorem represents_of_unbuilt {s : Store} (hs : s.disk.tables? = none) {calls : List Call}
    (hcalls : ∀ call ∈ calls, IsNormal call.asked) {t : Tables}
    (ht : (run s calls).disk.tables? = some t) : Represents t (Catalog.ofRun ∅ s calls) := by
  -- what the catalog starts from does not matter for a store without tables
  have hnone : ∀ t, s.disk.tables? = some t → Represents t ∅ := by
    intro t ht
    rw [hs] at ht
    cases ht
  exact represents_run hnone hcalls t ht

/-! ## What is read back -/

theorem on_revive {e : Entity} (h : e.IsNormal) (s : Store) : (revive e).on s = (.ok e, s) := by
  unfold revive
  rw [Entity.ofValue_toValue h]
  rfl

theorem on_mapM_revive {entities : List Entity} (h : ∀ e ∈ entities, e.IsNormal) (s : Store) :
    (entities.mapM revive).on s = (.ok entities, s) := by
  induction entities with
  | nil => rfl
  | cons e rest ih =>
    rw [List.forall_mem_cons] at h
    simp only [List.mapM_cons, on_bind, on_revive h.1, ih h.2, on_pure]

theorem on_encoded (w : Writing) (s : Store) : (encoded w).on s = (w.encoded.mapError .mishap, s) := by
  cases w <;> rfl

theorem on_mapM_encoded (texts : List Writing) (s : Store) :
    (texts.mapM encoded).on s = ((texts.mapM Writing.encoded).mapError .mishap, s) := by
  induction texts with
  | nil => rfl
  | cons w rest ih =>
    rw [List.mapM_cons, List.mapM_cons, on_bind, on_encoded]
    cases w.encoded with
    | error m => rfl
    | ok text =>
      simp only [Except.mapError, on_bind, ih]
      cases rest.mapM Writing.encoded <;> rfl

theorem mapM_encoded_whole (own : List String) : (own.map Writing.whole).mapM Writing.encoded = .ok own := by
  induction own with
  | nil => rfl
  | cons text rest ih =>
    rw [List.map_cons, List.mapM_cons, ih]
    rfl

/-- Of texts that are to be encoded, the first that cannot be is told. -/
theorem mapM_encoded_broken {texts : List Writing} (h : ∃ w ∈ texts, w.whole? = none) :
    ∃ points, texts.mapM Writing.encoded = .error (.notEncodable points) := by
  induction texts with
  | nil =>
    obtain ⟨_, hmem, -⟩ := h
    cases hmem
  | cons w rest ih =>
    cases w with
    | broken points => exact ⟨points, rfl⟩
    | whole text =>
      have hrest : ∃ w ∈ rest, w.whole? = none := by
        obtain ⟨w, hmem, hnone⟩ := h
        rcases List.mem_cons.mp hmem with rfl | hmem
        · cases hnone
        · exact ⟨w, hmem, hnone⟩
      obtain ⟨points, hpoints⟩ := ih hrest
      exact ⟨points, by rw [List.mapM_cons, hpoints]; rfl⟩

/-- What asking for entities comes to, where one query takes so many values at most. -/
def Tables.gathered (t : Tables) (limit : Nat) (ids : List Writing) : Except Mishap (List Entity) := do
  if limit < ids.length then .error .tooManyVariables
  let ids ← ids.mapM Writing.encoded
  return t.getAll ids

namespace Tables

variable {t : Tables} {limit : Nat}

theorem gathered_of_whole {ids : List String} (h : ids.length ≤ limit) :
    t.gathered limit (ids.map .whole) = .ok (t.getAll ids) := by
  unfold gathered
  rw [if_neg (by rw [List.length_map]; exact Nat.not_lt.mpr h), mapM_encoded_whole]
  rfl

/-- More identities than one query takes are refused, however many of them are the same. -/
theorem gathered_of_many {ids : List Writing} (h : limit < ids.length) :
    t.gathered limit ids = .error .tooManyVariables := by
  unfold gathered
  rw [if_pos h]
  rfl

theorem gathered_of_broken {ids : List Writing} (hlimit : ids.length ≤ limit)
    (h : ∃ id ∈ ids, id.whole? = none) :
    ∃ points, t.gathered limit ids = .error (.notEncodable points) := by
  obtain ⟨points, hpoints⟩ := mapM_encoded_broken h
  refine ⟨points, ?_⟩
  unfold gathered
  rw [if_neg (Nat.not_lt.mpr hlimit), hpoints]
  rfl

end Tables

theorem on_gather {s : Store} {t : Tables} (ht : s.disk.tables? = some t)
    (hnormal : ∀ ids, ∀ e ∈ t.getAll ids, e.IsNormal) (ids : List Writing) :
    (getEntities ids).on s = ((t.gathered s.variableLimit ids).mapError .mishap, s) := by
  unfold getEntities Tables.gathered
  cases ids with
  | nil => rfl
  | cons id rest =>
    rw [if_neg (by exact nofun)]
    by_cases hmany : s.variableLimit < (id :: rest).length
    · simp only [on_bind, on_requireFile_ok ht, on_requireTables_ok ht, on_get, if_pos hmany, on_mishap]
      rfl
    · simp only [on_bind, on_requireFile_ok ht, on_requireTables_ok ht, on_get, if_neg hmany,
        on_mapM_encoded]
      cases hids : (id :: rest).mapM Writing.encoded with
      | error m => rfl
      | ok own =>
        simp only [Except.mapError, on_mapM_revive (hnormal own)]
        rfl

theorem Represents.getAll_eq {t : Tables} {cat : Catalog} (h : Represents t cat) (ids : List String) :
    t.getAll ids = (Text.distinct ids).filterMap (cat[·]?) := by
  rw [Tables.getAll, funext h.get]

theorem Represents.isNormal_of_mem_getAll {t : Tables} {cat : Catalog} (h : Represents t cat)
    (ids : List String) : ∀ e ∈ t.getAll ids, e.IsNormal := by
  intro e he
  rw [h.getAll_eq, List.mem_filterMap] at he
  obtain ⟨id, -, he⟩ := he
  exact h.normal id e he

theorem status_eq {s : Store} {t : Tables} (ht : s.disk.tables? = some t) {cat : Catalog}
    (h : Represents t cat) :
    status.run s = ({ path := s.path, connected := true, schemaPresent := true
                      entityCount := cat.size, edgeCount := cat.referenceCount }, s) := by
  obtain ⟨d, hd, hdt⟩ := tables?_database ht
  rw [Database.eq_ofTables hdt] at hd
  rw [h.size_eq, h.referenceCount_eq, eq_holding hd]
  rfl

/-- A store that came about from one that was never built is a map from identities to entities, the one
that the same changes make of the empty map, and it gives back what the map has.  For the distinct
identities asked for it returns the entities that the map has there, in that order, with all of their
fields and references; but it refuses more identities than one query takes, and such as cannot be encoded.
It counts the entities and references of the map; and each further change that can succeed does, and
answers what the map says. -/
theorem catalog_of_run {s : Store} (hs : s.disk.tables? = none) {calls : List Call}
    (hcalls : ∀ call ∈ calls, IsNormal call.asked) {cat : Catalog}
    (hc : cat = Catalog.ofRun ∅ s calls) {s' : Store} (hs' : s' = run s calls) :
    (∀ t, s'.disk.tables? = some t →
      (∀ ids : List String, ids.length ≤ s.variableLimit →
        (getEntities (ids.map .whole)).on s' = (.ok ((Text.distinct ids).filterMap (cat[·]?)), s')) ∧
        (∀ ids, s.variableLimit < ids.length →
          (getEntities ids).on s' = (.error (.mishap .tooManyVariables), s')) ∧
        (∀ ids, ids.length ≤ s.variableLimit → (∃ id ∈ ids, id.whole? = none) →
          ∃ points, (getEntities ids).on s' = (.error (.mishap (.notEncodable points)), s')) ∧
        status.run s' = ({ path := s'.path, connected := true, schemaPresent := true
                           entityCount := cat.size, edgeCount := cat.referenceCount }, s') ∧
        ∀ c, IsFeasible c →
          ∃ n s'', (change c).on { s' with isLocked := false } = (.ok n, s'')) ∧
      ∀ c isLocked n s'', (change c).on { s' with isLocked } = (.ok n, s'') → n = cat.answer c := by
  subst hc hs'
  have hnone : ∀ t, s.disk.tables? = some t → Represents t ∅ := by
    intro t ht
    rw [hs] at ht
    cases ht
  have h := represents_run hnone hcalls
  constructor
  · intro t ht
    have htries := tries_of_run hs ht
    rw [← (settings_run s calls).2.2]
    have hread := on_gather ht (h t ht).isNormal_of_mem_getAll
    refine ⟨fun ids hlimit => ?_, fun ids hlimit => ?_, fun ids hlimit hbroken => ?_,
      status_eq ht (h t ht), fun c hc => ?_⟩
    · rw [hread, Tables.gathered_of_whole hlimit, (h t ht).getAll_eq]
      rfl
    · rw [hread, Tables.gathered_of_many hlimit]
      rfl
    · obtain ⟨points, hpoints⟩ := Tables.gathered_of_broken hlimit hbroken
      exact ⟨points, by rw [hread, hpoints]; rfl⟩
    · exact on_change_ok (s := { run s calls with isLocked := false }) htries rfl ht hc
  · intro c isLocked n s'' hon
    obtain ⟨n', t', s₁, hon', hw, he⟩ | ⟨e, s₁, hon', -⟩ :=
      change_cases c { run s calls with isLocked }
    · rw [hon] at hon'
      injection (Prod.mk.inj hon').1 with hn
      exact hn.trans (he.eq_answer h)
    · rw [hon] at hon'
      cases (Prod.mk.inj hon').1

def shelved : Entity :=
  { id := "x", container := "A", name := "f", arity := 1, path := "a.ex", startLine := 1, endLine := 2
    lexicalText := "", references := ["B.g/0", "A.h/2"] }

/-- Two clauses of an entity, which then moves to another file; batches that are undone, and a purge that
finds the store locked. -/
def reshelved : List Call :=
  [{ asked := .rebuild [.entity shelved, .entity { shelved with startLine := 4, endLine := 5 }] },
    { asked := .merge [.entity { shelved with path := "b.ex" }] [.whole "cat.ex"] },
    { asked := .merge [.entity { shelved with arity := integerBound }] [] },
    { asked := .merge [] [.broken [0xDCFF]] },
    { asked := .purge (.whole "b.ex"), isLocked := true }]

theorem catalog_of_reshelved :
    let s' := run { path := "index.db" } reshelved
    (getEntities [.whole "y", .whole "x", .whole "x"]).on s' =
        (.ok [{ shelved with path := "b.ex" }], s') ∧
      (status.run s').1.entityCount = 1 ∧ (status.run s').1.edgeCount = 2 ∧
      ∃ s'', (change (.purge (.whole "b.ex"))).on { s' with isLocked := false } = (.ok 1, s'') := by
  intro s'
  have ht : (run { path := "index.db" } reshelved).disk.tables? = some
      (Tables.insert {} [{ shelved with path := "b.ex" }]) := by
    decide +kernel
  have hcalls : ∀ call ∈ reshelved, IsNormal call.asked := by decide
  obtain ⟨hbuilt, hanswer⟩ := catalog_of_run (s := { path := "index.db" }) rfl hcalls rfl rfl
  obtain ⟨hget, -, -, hstatus, hsucceeds⟩ := hbuilt _ ht
  refine ⟨?_, ?_, ?_, ?_⟩
  · have hmap : (Text.distinct ["y", "x", "x"]).filterMap
        ((Catalog.ofRun ∅ { path := "index.db" } reshelved)[·]?) =
          [{ shelved with path := "b.ex" }] := by
      decide +kernel
    exact (hget ["y", "x", "x"] (by decide)).trans (by rw [hmap])
  · rw [hstatus]
    decide +kernel
  · rw [hstatus]
    decide +kernel
  · obtain ⟨n, s'', hon⟩ := hsucceeds (.purge (.whole "b.ex")) nofun
    have hn : (Catalog.ofRun ∅ { path := "index.db" } reshelved).answer (.purge (.whole "b.ex")) = 1 := by
      decide +kernel
    have := hanswer _ _ _ _ hon
    rw [hn] at this
    exact ⟨s'', this ▸ hon⟩

/-- A stored identity, asked for once more than one query takes, and an identity that nothing stored has,
for it cannot be encoded. -/
theorem refused_of_repeated :
    let s' := run { path := "index.db" } reshelved
    (getEntities [.whole "x"]).on s' = (.ok [{ shelved with path := "b.ex" }], s') ∧
      (getEntities (List.replicate 32767 (.whole "x"))).on s' =
        (.error (.mishap .tooManyVariables), s') ∧
      (getEntities [.broken [0xD800]]).on s' = (.error (.mishap (.notEncodable [0xD800])), s') := by
  intro s'
  have ht : s'.disk.tables? = some (Tables.insert {} [{ shelved with path := "b.ex" }]) := by
    decide +kernel
  have hlimit : s'.variableLimit = 32766 := (settings_run _ reshelved).2.2
  have hrow : Represents (Tables.insert {} [{ shelved with path := "b.ex" }])
      (Catalog.putAll ∅ [{ shelved with path := "b.ex" }]) :=
    Represents.empty.putAll (by decide) (by decide)
  have hread := on_gather ht hrow.isNormal_of_mem_getAll
  rw [hlimit] at hread
  refine ⟨?_, ?_, hread _⟩
  · have hfound : (Tables.insert {} [{ shelved with path := "b.ex" }]).getAll ["x"] =
        [{ shelved with path := "b.ex" }] := by
      decide
    have hlength : ["x"].length ≤ 32766 := by decide
    have hone : (Tables.insert {} [{ shelved with path := "b.ex" }]).gathered 32766 [.whole "x"] =
        .ok [{ shelved with path := "b.ex" }] :=
      (Tables.gathered_of_whole hlength).trans (congrArg Except.ok hfound)
    exact (hread _).trans (by rw [hone]; rfl)
  · exact (hread _).trans (by rw [Tables.gathered_of_many (by rw [List.length_replicate]; decide)]; rfl)

end CodeIndex.Store
