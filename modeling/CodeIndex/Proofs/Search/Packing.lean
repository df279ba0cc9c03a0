import CodeIndex.Proofs.Search.Ranking
import CodeIndex.Proofs.Store.FreeText
import CodeIndex.Proofs.Store.Neighbors
import CodeIndex.Search.Pack

/-!
# What a context pack shows

A pack has a section for each entity that was asked for and is stored.  A section says what the entity is,
and then names its neighbours, each in a list and again with its definition.  The places of all that is
shown come in the order in which it is shown, each once: a place that several entities share is that of
the first.
-/

namespace CodeIndex.Search

open LineSearch (distinctBy firstOfEach distinctBy_eq_firstOfEach map_firstOfEach)
open Store (Neighbors)

def Location.place (l : Location) : String × Nat :=
  (l.path, l.startLine)

namespace Pack

/-! ## Sections -/

/-- The lines of a section on its entity alone. -/
def aboutLines (e : Entity) : List String :=
  ["### " ++ e.reference, "Path: " ++ e.path ++ ":" ++ Nat.repr e.startLine]
    ++ optionalLine "Spec: " e.spec ++ optionalLine "Doc: " e.doc
    ++ ["Definition: " ++ definition e]

/-- What a section says of its entity alone. -/
def about (e : Entity) : String :=
  "\n".intercalate (aboutLines e)

/-- A list of entities on a line of its own, or nothing if there are none. -/
def listed (label : String) (es : List Entity) : String :=
  if es.isEmpty then "" else "\n" ++ (label ++ ", ".intercalate (es.map brief))

def shown (e : Entity) : String :=
  "\n" ++ ("\n" ++ ("Neighbor: " ++ e.reference ++ " at " ++ e.path ++ ":" ++ Nat.repr e.startLine ++
    ("\n" ++ definition e)))

/-- What a section says of neighbours: the two lists, and the definition of each. -/
def naming (n : Neighbors) : String :=
  listed "Calls: " n.callees ++ listed "Called by: " n.callers ++
    String.join ((n.callees ++ n.callers).map shown)

/-- Lines with more of them behind: each of these begins anew. -/
theorem intercalate_append {lines : List String} (h : lines ≠ []) (more : List String) :
    "\n".intercalate (lines ++ more) = "\n".intercalate lines ++ String.join (more.map ("\n" ++ ·)) := by
  induction more generalizing lines with
  | nil => rw [List.append_nil, List.map_nil, String.join_nil, String.append_empty]
  | cons line rest ih =>
    rw [List.append_cons, ih (by simp), String.intercalate_append_of_ne_nil h (by simp),
      String.intercalate_singleton, List.map_cons, String.join_cons]
    simp only [String.append_assoc]

theorem join_listLine (label : String) (es : List Entity) :
    String.join ((listLine label es).map ("\n" ++ ·)) = listed label es := by
  unfold listLine listed
  cases es.isEmpty with
  | true => rfl
  | false =>
    show String.join ["\n" ++ (label ++ ", ".intercalate (es.map brief))] = _
    rw [String.join_cons, String.join_nil, String.append_empty, if_neg Bool.false_ne_true]

theorem join_neighborLines (es : List Entity) :
    String.join ((es.flatMap neighborLines).map ("\n" ++ ·)) = String.join (es.map shown) := by
  induction es with
  | nil => rfl
  | cons e rest ih =>
    have hone : String.join ((neighborLines e).map ("\n" ++ ·)) = shown e := by
      simp only [neighborLines, shown, List.map_cons, List.map_nil, String.join_cons, String.join_nil,
        String.append_empty, String.append_assoc]
    rw [List.flatMap_cons, List.map_append, String.join_append, ih, List.map_cons, String.join_cons,
      hone]

/-- A section is about its entity, and names exactly the neighbours that it is given. -/
theorem sectionText_eq (e : Entity) (n : Neighbors) :
    sectionText e n = about e ++ naming n ++ "\n\n" := by
  have habout : aboutLines e ≠ [] := by simp [aboutLines]
  show "\n".intercalate (aboutLines e ++ listLine "Calls: " n.callees ++
    listLine "Called by: " n.callers ++ (n.callees ++ n.callers).flatMap neighborLines) ++ "\n\n" = _
  rw [List.append_assoc, List.append_assoc, intercalate_append habout, List.map_append,
    List.map_append, String.join_append, String.join_append, join_listLine, join_listLine,
    join_neighborLines, about, naming, @String.append_assoc (listed "Calls: " n.callees)]

/-! ## Places -/

def placeOf (e : Entity) : String × Nat :=
  (e.path, e.startLine)

/-- What is added to places are those of entities at none of them, the first at each. -/
theorem foldl_addSource (items : List Entity) (sources : List Location) (seen : List (String × Nat))
    (hseen : ∀ k, seen.contains k = (sources.map Location.place).contains k) :
    items.foldl addSource sources =
      sources ++ (distinctBy.go placeOf seen items).map locationOf := by
  -- `seen` has the places of the sources, though not in their order
  induction items generalizing sources seen with
  | nil => exact (List.append_nil sources).symm
  | cons e rest ih =>
    have hany : (sources.any fun l => l.path == e.path && l.startLine == e.startLine) =
        seen.contains (placeOf e) := by
      rw [hseen, List.contains_eq_any_beq, List.any_map]
      congr 1
      funext l
      show _ = (placeOf e == Location.place l)
      rw [Bool.eq_iff_iff, beq_iff_eq, Bool.and_eq_true, beq_iff_eq, beq_iff_eq, placeOf,
        Location.place, Prod.mk.injEq]
      exact ⟨fun h => ⟨h.1.symm, h.2.symm⟩, fun h => ⟨h.1.symm, h.2.symm⟩⟩
    rw [List.foldl_cons, addSource, hany, distinctBy.go]
    split
    · exact ih sources seen hseen
    · rw [ih (sources ++ [locationOf e]) (placeOf e :: seen), List.map_cons, List.append_assoc]
      · rfl
      · intro k
        rw [List.map_append, List.contains_append, List.contains_cons, hseen, Bool.or_comm,
          List.map_singleton, List.contains_cons, List.contains_nil, Bool.or_false]
        rfl

/-- The entities that a pack shows: each that is packed, and its neighbours behind it. -/
def rendered (around : Entity → Neighbors) (packed : List Entity) : List Entity :=
  packed.flatMap fun e => e :: ((around e).callees ++ (around e).callers)

/-- A pack of some entities in order: a section for each, about it and naming its neighbours; and the
places of all that is shown, each once and as it is first shown. -/
structure IsPackOf (around : Entity → Neighbors) (packed : List Entity) (pack : Pack) : Prop where
  text : pack.text = String.join (packed.map fun e => about e ++ naming (around e) ++ "\n\n")
  sources : pack.sources = (firstOfEach placeOf (rendered around packed)).map locationOf
  places : pack.sources.map Location.place = Text.distinct ((rendered around packed).map placeOf)

theorem isPackOf_ofEntities (around : Entity → Neighbors) (packed : List Entity) :
    IsPackOf around packed (ofEntities (packed.map fun e => (e, around e))) := by
  have hsources : (ofEntities (packed.map fun e => (e, around e))).sources =
      (firstOfEach placeOf (rendered around packed)).map locationOf := by
    unfold ofEntities
    rw [List.foldl_map]
    show packed.foldl (fun sources e =>
      (e :: ((around e).callees ++ (around e).callers)).foldl addSource sources) [] = _
    rw [← List.foldl_flatMap, foldl_addSource _ [] [] fun _ => rfl, List.nil_append,
      ← distinctBy_eq_firstOfEach]
    rfl
  refine ⟨?_, hsources, ?_⟩
  · unfold ofEntities
    rw [List.map_map]
    simp only [Function.comp_def, sectionText_eq]
  · rw [hsources, List.map_map, ← map_firstOfEach]
    rfl

/-! ## Requests -/

section

variable {s : Store} {t : Store.Tables} {cat : Store.Catalog} {limit : Int}

/-- The neighbours that tables have for an entity, up to a limit. -/
def aroundIn (t : Store.Tables) (limit : Int) (e : Entity) : Neighbors :=
  { callees := Store.upTo limit (t.callees e.id), callers := Store.upTo limit (t.callers e.id) }

theorem on_mapM_neighborsOf (ht : s.disk.tables? = some t) (h : t.IsSound) (hlimit : 0 < limit)
    (hrange : limit < Store.integerBound) (packed : List Entity) :
    (packed.mapM (neighborsOf limit)).on s =
      (.ok (packed.map fun e => (e, aroundIn t limit e)), s) := by
  have hin : Store.isInRange limit = true := Store.isInRange_of_nonneg (by omega) hrange
  have hone : ∀ e, (neighborsOf limit e).on s = (.ok (e, aroundIn t limit e), s) := by
    intro e
    unfold neighborsOf
    rw [if_neg (by omega)]
    simp only [Store.on_bind, Store.on_neighbors ht h, t.surroundings_of_inRange e.id hin,
      Except.mapError, Store.on_pure, aroundIn]
  induction packed with
  | nil => rfl
  | cons e rest ih => simp only [List.mapM_cons, Store.on_bind, hone, ih, Store.on_pure, List.map_cons]

/-- What is packed are the entities that a request comes to. -/
theorem on_ofRequest {r : Request} {packed : List Entity} {s' : Store}
    (hr : r.entities.on s = (.ok packed, s')) (ht : s'.disk.tables? = some t) (h : t.IsSound)
    (hlimit : 0 < limit) (hrange : limit < Store.integerBound) :
    (ofRequest r limit).on s =
      (.ok (ofEntities (packed.map fun e => (e, aroundIn t limit e))), s') := by
  unfold ofRequest
  simp only [Store.on_bind, hr, on_mapM_neighborsOf ht h hlimit hrange, Store.on_pure]

theorem on_getEntities (ht : s.disk.tables? = some t) (h : Store.Represents t cat) {ids : List String}
    (hmany : ids.length ≤ s.variableLimit) :
    (Store.getEntities (ids.map .whole)).on s =
      (.ok ((Text.distinct ids).filterMap (cat[·]?)), s) := by
  rw [Store.on_gather ht h.isNormal_of_mem_getAll, Store.Tables.gathered_of_whole hmany, h.getAll_eq]
  rfl

theorem on_entities_ids (ht : s.disk.tables? = some t) (h : Store.Represents t cat) {ids : List String}
    (hmany : ids.length ≤ s.variableLimit) :
    (Request.entities { ids := ids.map .whole }).on s =
      (.ok ((Text.distinct ids).filterMap (cat[·]?)), s) := by
  unfold Request.entities
  cases ids with
  | nil => rfl
  | cons id rest => exact on_getEntities ht h hmany

theorem length_le_of_searched {query : String} {k : Int} {hits : List Store.Hit} (hk : 1 ≤ k)
    (h : t.searched (.whole query) k = .ok hits) (hrange : k < Store.integerBound) :
    (hits.length : Int) ≤ k := by
  rw [t.searched_whole query hrange] at h
  obtain rfl := Except.ok.inj h
  have hfound := t.length_found_le query k
  split
  · rw [List.length_nil]
    omega
  · omega

theorem entities_of_query {query : String} (h : query ≠ "") (k : Int) :
    Request.entities { query := some (.whole query), k } =
      Store.search (.whole query) (limitOf k) >>= fun hits =>
        Store.getEntities (hits.map fun hit => .whole hit.entity.id) := by
  unfold Request.entities
  simp only [List.isEmpty_nil, Bool.not_true, Bool.false_eq_true, if_false]
  split
  · cases ‹some _ = none›
  · rename_i heq
    exact absurd (Writing.whole.inj (Option.some.inj heq)) h
  · rename_i heq
    rw [← Option.some.inj heq]

/-- A query stands for the identities of what it finds. -/
theorem on_entities_query (ht : s.disk.tables? = some t) (h : Store.Represents t cat) (query : String)
    {k : Int} (hk : 1 ≤ k) (hmost : k ≤ 100) (hmany : 100 ≤ s.variableLimit) :
    ∃ hits events, (Store.search (.whole query) k).on s = (.ok hits, s.logging events) ∧
      hits.length ≤ s.variableLimit ∧
      (Request.entities { query := some (.whole query), k }).on s =
        (.ok ((Text.distinct (hits.map (·.entity.id))).filterMap (cat[·]?)), s.logging events) := by
  by_cases hempty : query = ""
  · subst hempty
    exact ⟨[], [], rfl, Nat.zero_le _, rfl⟩
  · obtain ⟨events, hon⟩ := Store.on_search ht h.isSound (.whole query) k
    have hrange : k < Store.integerBound := Int.lt_of_le_of_lt hmost (by decide)
    obtain ⟨hits, hhits⟩ : ∃ hits, t.searched (.whole query) k = .ok hits :=
      ⟨_, t.searched_whole query hrange⟩
    rw [hhits] at hon
    have hlength := length_le_of_searched hk hhits hrange
    have hfew : (hits.map (·.entity.id)).length ≤ (s.logging events).variableLimit := by
      rw [List.length_map]
      show hits.length ≤ s.variableLimit
      omega
    refine ⟨hits, events, hon, by rwa [List.length_map] at hfew, ?_⟩
    have hget := on_getEntities (s := s.logging events) ht h hfew
    rw [List.map_map] at hget
    have hgot : (Store.getEntities (hits.map fun hit => .whole hit.entity.id)).on (s.logging events) =
        _ := hget
    have hcount : limitOf k = k := Int.min_eq_left hmost
    rw [entities_of_query hempty, hcount]
    simp only [Store.on_bind, hon, Except.mapError, hgot]

end

open Store (run Call Catalog IsNormal integerBound)

/-- However a store came about from one that was never built, a pack of identities, of no more than one
query takes, has a section for each that is stored, in the order in which they are first asked for, and the
sections name exactly the neighbours of their entities; its sources are the places of all that is shown,
each once, in the order in which it is first shown.  A query is packed as the identities of its hits.  None
of this changes the store, though a query may be logged. -/
theorem pack_complete {s : Store} (hs : s.disk.tables? = none) {calls : List Call}
    (hcalls : ∀ call ∈ calls, IsNormal call.asked) {t : Store.Tables}
    (ht : (run s calls).disk.tables? = some t) {cat : Catalog} (hc : cat = Catalog.ofRun ∅ s calls)
    (hmany : 100 ≤ s.variableLimit) {limit : Int} (hlimit : 0 < limit) (hrange : limit < integerBound) :
    ∃ around : Entity → Neighbors,
      (∀ e, cat[e.id]? = some e →
        (Store.neighbors (.whole e.id) limit).on (run s calls) = (.ok (around e), run s calls)) ∧
      (∀ ids : List String, ids.length ≤ s.variableLimit → ∃ pack,
        (ofRequest { ids := ids.map .whole } limit).on (run s calls) = (.ok pack, run s calls) ∧
          IsPackOf around ((Text.distinct ids).filterMap (cat[·]?)) pack) ∧
      ∀ (query : String) (k : Int), 1 ≤ k → k ≤ 100 → ∃ hits pack events,
        (Store.search (.whole query) k).on (run s calls) = (.ok hits, (run s calls).logging events) ∧
          (ofRequest { query := some (.whole query), k } limit).on (run s calls) =
            (.ok pack, (run s calls).logging events) ∧
          (ofRequest { ids := (hits.map (·.entity.id)).map .whole } limit).on (run s calls) =
            (.ok pack, run s calls) := by
  subst hc
  have hnone : ∀ t, s.disk.tables? = some t → Store.Represents t ∅ := by
    intro t ht
    rw [hs] at ht
    cases ht
  have h := Store.represents_run hnone hcalls t ht
  rw [← (Store.settings_run s calls).2.2] at hmany ⊢
  refine ⟨aroundIn t limit, ?_, ?_, ?_⟩
  · intro e _
    have hin := Store.isInRange_of_nonneg (by omega) hrange
    rw [Store.on_neighbors ht h.isSound, t.surroundings_of_inRange e.id hin]
    rfl
  · intro ids hfew
    exact ⟨_, on_ofRequest (on_entities_ids ht h hfew) ht h.isSound hlimit hrange,
      isPackOf_ofEntities _ _⟩
  · intro query k hk hmost
    obtain ⟨hits, events, hsearch, hfew, hentities⟩ := on_entities_query ht h query hk hmost hmany
    rw [← List.length_map (·.entity.id)] at hfew
    exact ⟨hits, _, events, hsearch, on_ofRequest hentities ht h.isSound hlimit hrange,
      on_ofRequest (on_entities_ids ht h hfew) ht h.isSound hlimit hrange⟩

theorem pack_complete_calling :
    let s' := run { path := "index.db" } Store.calling
    ∃ around, (Store.neighbors (.whole "x") 5).on s' = (.ok (around Store.caller), s') ∧
      (∃ pack, (ofRequest { ids := ["y", "q", "x", "y"].map .whole } 5).on s' = (.ok pack, s') ∧
        IsPackOf around [Store.callee, Store.caller] pack) ∧
      ∃ hits pack events, (Store.search (.whole "B") 10).on s' = (.ok hits, s'.logging events) ∧
        (ofRequest { query := some (.whole "B"), k := 10 } 5).on s' = (.ok pack, s'.logging events) ∧
        (ofRequest { ids := (hits.map (·.entity.id)).map .whole } 5).on s' = (.ok pack, s') := by
  obtain ⟨t, ht⟩ : ∃ t, (run { path := "index.db" } Store.calling).disk.tables? = some t :=
    Option.isSome_iff_exists.mp (by decide +kernel)
  have hcalls : ∀ call ∈ Store.calling, IsNormal call.asked := by decide
  have hcaller : (Catalog.ofRun ∅ { path := "index.db" } Store.calling)[Store.caller.id]? =
      some Store.caller := by
    decide +kernel
  have hpacked : (Text.distinct ["y", "q", "x", "y"]).filterMap
      ((Catalog.ofRun ∅ { path := "index.db" } Store.calling)[·]?) = [Store.callee, Store.caller] := by
    decide +kernel
  have hlimit : (0 : Int) < 5 := by decide
  obtain ⟨around, hneighbors, hids, hquery⟩ :=
    pack_complete (s := { path := "index.db" }) rfl hcalls ht rfl (by decide) hlimit (by decide)
  obtain ⟨pack, hpack, hof⟩ := hids ["y", "q", "x", "y"] (by decide)
  rw [hpacked] at hof
  exact ⟨around, hneighbors Store.caller hcaller, ⟨pack, hpack, hof⟩,
    hquery "B" 10 (by decide) (by decide)⟩

/-- With a limit that the tables cannot hold there is no pack of a stored entity. -/
theorem pack_refused_calling :
    let s' := run { path := "index.db" } Store.calling
    let cat := Catalog.ofRun ∅ { path := "index.db" } Store.calling
    0 < (integerBound : Int) ∧ cat["x"]? = some Store.caller ∧
      (ofRequest { ids := [.whole "x"] } integerBound).on s' = (.error (.mishap .integerTooLarge), s') := by
  intro s' cat
  obtain ⟨t, ht⟩ : ∃ t, s'.disk.tables? = some t := Option.isSome_iff_exists.mp (by decide +kernel)
  have hcalls : ∀ call ∈ Store.calling, IsNormal call.asked := by decide
  have hnone : ∀ t, ({ path := "index.db" } : Store).disk.tables? = some t →
      Store.Represents t ∅ := nofun
  have h : Store.Represents t cat := Store.represents_run hnone hcalls t ht
  have hpacked : (Text.distinct ["x"]).filterMap (cat[·]?) = [Store.caller] := by decide +kernel
  have hone : ["x"].length ≤ s'.variableLimit := by decide +kernel
  have hentities := on_entities_ids ht h hone
  have hneighbors : (neighborsOf integerBound Store.caller).on s' =
      (.error (.mishap .integerTooLarge), s') := by
    have hrange : Store.isInRange integerBound = false := by decide
    unfold neighborsOf
    rw [if_neg (by decide)]
    simp only [Store.on_bind, Store.on_neighbors ht h.isSound,
      t.surroundings_of_not_inRange Store.caller.id hrange, Except.mapError]
  refine ⟨by decide, by decide +kernel, ?_⟩
  rw [hpacked] at hentities
  have hrequest : (Request.entities { ids := [.whole "x"] }).on s' = (.ok [Store.caller], s') :=
    hentities
  unfold ofRequest
  simp only [Store.on_bind, hrequest, List.mapM_cons, hneighbors]

end Pack

end CodeIndex.Search
