import CodeIndex.Proofs.FullText.Quoted
import CodeIndex.Proofs.Store.Finding

/-!
# Reading a store that was built

What a reading answers is a function of the tables alone.  It writes the log at most, so that it can be
repeated, and the next reading finds the same tables.  What it gives back are rows that pass the check of
an entity again, since only entities that had passed it were written.
-/

namespace CodeIndex.Store

/-- What is asked of a store that is only read. -/
inductive Reading where
  | search (query : Writing) (k : Int)
  | entities (ids : List Writing)
  | neighbors (id : Writing) (limit : Int)
  | status
  deriving DecidableEq

/-- What a reading answers. -/
inductive Answer where
  | hits (found : List Hit)
  | entities (found : List Entity)
  | neighbors (found : Neighbors)
  | status (found : Status)

def Reading.act : Reading → Action Answer
  | .search query k => return .hits (← Store.search query k)
  | .entities ids => return .entities (← getEntities ids)
  | .neighbors id limit => return .neighbors (← Store.neighbors id limit)
  | .status => return .status (← Store.status)

/-! ## The rows of the stored entities -/

/-- A row of the tables is all of an entity but its references. -/
theorem Lockstep.row_eq {t : Tables} (h : Lockstep t) {e : Entity} (he : e ∈ t.entities)
    (references : List String) : Tables.row { e with references } = e := by
  change { e with references := [] } = e
  rw [← h.bare e he]

theorem Represents.mem_entities {t : Tables} {cat : Catalog} (h : Represents t cat) {x : Entity} :
    x ∈ t.entities ↔ ∃ e, cat[e.id]? = some e ∧ Tables.row e = x := by
  constructor
  · intro hx
    refine ⟨{ x with references := t.referencesOf x.id }, ?_, h.lockstep.row_eq hx _⟩
    rw [← h.get, h.lockstep.get?_eq_some]
    exact ⟨x, hx, rfl, rfl⟩
  · rintro ⟨e, he, rfl⟩
    rw [← h.get, h.lockstep.get?_eq_some] at he
    obtain ⟨r, hr, -, hre⟩ := he
    rwa [← hre, h.lockstep.row_eq hr]

theorem Represents.row_mem {t : Tables} {cat : Catalog} (h : Represents t cat) {e : Entity}
    (he : cat[e.id]? = some e) : Tables.row e ∈ t.entities :=
  h.mem_entities.mpr ⟨e, he, rfl⟩

/-! ## Rows that can be given back -/

/-- Tables whose rows pass the check of an entity, and which have no edge twice. -/
structure Tables.IsSound (t : Tables) : Prop where
  rows : ∀ e ∈ t.entities, e.IsNormal
  edges : t.edges.Nodup

instance (t : Tables) : Decidable t.IsSound :=
  decidable_of_iff ((∀ e ∈ t.entities, e.IsNormal) ∧ t.edges.Nodup)
    ⟨fun h => ⟨h.1, h.2⟩, fun h => ⟨h.rows, h.edges⟩⟩

theorem Represents.isSound {t : Tables} {cat : Catalog} (h : Represents t cat) : t.IsSound where
  rows e he := by
    have hfull : { e with references := t.referencesOf e.id } ∈ t.full := List.mem_map_of_mem he
    have hget := h.mem_full.mp hfull
    have hn := h.normal _ _ hget
    exact ⟨hn.id, hn.path, hn.lines, h.lockstep.bare e he ▸ List.nodup_nil⟩
  edges := h.lockstep.nodup_edges

namespace Tables

theorem nodup_referencesOf {t : Tables} (h : t.edges.Nodup) (id : String) :
    (t.referencesOf id).Nodup := by
  apply (h.filter _).map_on
  intro a ha b hb htarget
  have hsource : a.source = b.source := by
    have ha := beq_iff_eq.mp (List.mem_filter.mp ha).2
    have hb := beq_iff_eq.mp (List.mem_filter.mp hb).2
    exact ha.trans hb.symm
  cases a
  cases b
  simp_all only

theorem IsSound.isNormal_of_mem_getAll {t : Tables} (h : t.IsSound) {ids : List String} {e : Entity}
    (he : e ∈ t.getAll ids) : e.IsNormal := by
  obtain ⟨id, -, he⟩ := List.mem_filterMap.mp he
  obtain ⟨row, hrow, rfl⟩ := Option.map_eq_some_iff.mp he
  have hn := h.rows row (List.mem_of_find?_eq_some hrow)
  exact ⟨hn.id, hn.path, hn.lines, nodup_referencesOf h.edges id⟩

theorem mem_entities_of_mem_search {t : Tables} {q : FullText.Query} {p : Entity × Float}
    (h : p ∈ t.search q) : p.1 ∈ t.entities := by
  obtain ⟨r, -, hr⟩ := List.mem_filterMap.mp h
  obtain ⟨e, he, rfl⟩ := Option.map_eq_some_iff.mp hr
  exact List.mem_of_find?_eq_some he

theorem mem_entities_of_mem_callees {t : Tables} {id : String} {e : Entity} (h : e ∈ t.callees id) :
    e ∈ t.entities := by
  unfold callees at h
  rw [(List.mergeSort_perm _ _).mem_iff] at h
  exact (List.mem_filter.mp h).1

theorem mem_entities_of_mem_callers {t : Tables} {id : String} {e : Entity} (h : e ∈ t.callers id) :
    e ∈ t.entities := by
  unfold callers at h
  split at h
  · cases h
  · obtain ⟨_, -, he⟩ := List.mem_filterMap.mp h
    exact List.mem_of_find?_eq_some he

end Tables

theorem mem_of_mem_upTo {α : Type} {limit : Int} {items : List α} {x : α} (h : x ∈ upTo limit items) :
    x ∈ items := by
  unfold upTo at h
  split at h
  · exact h
  · exact List.mem_of_mem_take h

/-! ## The answer -/

/-- How a query is taken: as it is written, or else as words that all have to occur. -/
def taken? (query : String) : Option FullText.Query :=
  match FullText.Query.ofString? query with
  | some q => some q
  | none => FullText.Query.ofString? (FullText.quoteQuery query)

namespace Tables

/-- What a query finds, at most so much. -/
def found (t : Tables) (query : String) (k : Int) : List Hit :=
  match taken? query with
  | some q => ((t.search q).take k.toNat).map fun p => { entity := p.1, score := p.2 }
  | none => []

def searched (t : Tables) (query : Writing) (k : Int) : Except Mishap (List Hit) :=
  if isBlank query || k ≤ 0 then .ok []
  else do
    let text ← query.encoded
    if isInRange k then return t.found text k else .error .integerTooLarge

/-- What asking for the neighbours of an entity comes to. -/
def surroundings (t : Tables) (id : Writing) (limit : Int) : Except Mishap Neighbors := do
  let id ← id.encoded
  if isInRange limit then
    return { callees := upTo limit (t.callees id), callers := upTo limit (t.callers id) }
  else .error .integerTooLarge

/-- What a reading answers of tables at a path. -/
def answer (path : String) (limit : Nat) (t : Tables) : Reading → Except Mishap Answer
  | .search query k => (t.searched query k).map .hits
  | .entities ids => (t.gathered limit ids).map .entities
  | .neighbors id limit => (t.surroundings id limit).map .neighbors
  | .status =>
    .ok (.status { path, connected := true, schemaPresent := true
                   entityCount := t.entities.length, edgeCount := t.edges.length })

end Tables

/-! ## What is found -/

theorem Tables.found_of_nonpos (t : Tables) (query : String) {k : Int} (hk : k ≤ 0) :
    t.found query k = [] := by
  unfold found
  split
  · rw [Int.toNat_of_nonpos hk]
    rfl
  · rfl

/-- A text that is not blank is looked up, however little is asked for. -/
theorem Tables.searched_of_not_blank (t : Tables) {query : String} (hquery : Text.allBlank query = false)
    {k : Int} (hrange : k < integerBound) : t.searched (.whole query) k = .ok (t.found query k) := by
  have hblank : isBlank (.whole query) = false := hquery
  unfold searched
  rw [hblank, Bool.false_or]
  by_cases hk : k ≤ 0
  · rw [if_pos (by simpa using hk), t.found_of_nonpos query hk]
  · have hin : isInRange k = true := by
      rw [isInRange, Bool.and_eq_true, decide_eq_true_eq, decide_eq_true_eq]
      omega
    rw [if_neg (by simpa using hk)]
    exact if_pos hin

theorem Tables.length_found_le (t : Tables) (text : String) (k : Int) :
    (t.found text k).length ≤ k.toNat := by
  unfold found
  split
  · rw [List.length_map]
    exact List.length_take_le _ _
  · exact Nat.zero_le _

/-- What is found of a query are entities of the tables, in some order, each once. -/
theorem Lockstep.found_subperm {t : Tables} (h : Lockstep t) (text : String) (k : Int) :
    ((t.found text k).map Hit.entity).Subperm t.entities := by
  unfold Tables.found
  cases taken? text with
  | none => exact List.nil_subperm
  | some q =>
    have htake : (((t.search q).take k.toNat).map Prod.fst).Subperm ((t.search q).map Prod.fst) :=
      ((List.take_sublist _ _).map _).subperm
    have hall : ((t.search q).map Prod.fst).Subperm t.entities :=
      (h.search_perm q).subperm.trans List.filter_sublist.subperm
    simp only [List.map_map]
    exact htake.trans hall

theorem Lockstep.nodup_found {t : Tables} (h : Lockstep t) (text : String) (k : Int) :
    ((t.found text k).map (·.entity.id)).Nodup := by
  obtain ⟨found, hperm, hsublist⟩ := h.found_subperm text k
  have hids := (hperm.map Entity.id).nodup_iff.mp (h.nodup_ids.sublist (hsublist.map _))
  rwa [List.map_map] at hids

/-- What is found, up to any number, is matched by the query. -/
theorem Lockstep.mem_found {t : Tables} (h : Lockstep t) {text : String} {q : FullText.Query}
    (hq : taken? text = some q) {k : Int} {x : Hit} (hx : x ∈ t.found text k) :
    x.entity ∈ t.entities ∧ q.accepts (Tables.textRow x.entity) = true := by
  unfold Tables.found at hx
  rw [hq] at hx
  obtain ⟨p, hp, rfl⟩ := List.mem_map.mp hx
  have hfound := (h.search_perm q).mem_iff.mp (List.mem_map_of_mem (List.mem_of_mem_take hp))
  exact List.mem_filter.mp hfound

/-- Where there is room for all entities, what is found are all those that the query matches. -/
theorem Represents.found_perm {t : Tables} {cat : Catalog} (h : Represents t cat) {text : String}
    {q : FullText.Query} (hq : taken? text = some q) {k : Int} (hk : cat.size ≤ k) :
    ((t.found text k).map Hit.entity).Perm
      ((cat.entities.filter fun e => q.accepts (Tables.textRow e)).map Tables.row) := by
  have hperm := h.lockstep.search_perm q
  -- what is found are entities of the store, each once, so that none is cut off
  have hlength : (t.search q).length ≤ k.toNat := by
    have hle := List.length_filter_le (fun e => q.accepts (Tables.textRow e)) t.entities
    have heq := hperm.length_eq
    have hsize := h.size_eq
    rw [List.length_map] at heq
    omega
  have hrows : (t.full.filter fun e => q.accepts (Tables.textRow e)).map Tables.row =
      t.entities.filter fun e => q.accepts (Tables.textRow e) := by
    rw [Tables.full, List.filter_map, List.map_map]
    conv_rhs => rw [← List.map_id (t.entities.filter _)]
    apply List.map_congr_left
    exact fun e he => h.lockstep.row_eq (List.mem_of_mem_filter he) _
  unfold Tables.found
  rw [hq]
  simp only [List.take_of_length_le hlength, List.map_map]
  rw [← hrows] at hperm
  exact hperm.trans ((h.perm.symm.filter _).map _)

section

variable {s : Store} {t : Tables}

/-- A search of sound tables comes to what they answer, and logs at most that the query was quoted. -/
theorem on_search (ht : s.disk.tables? = some t) (h : t.IsSound) (query : Writing) (k : Int) :
    ∃ events, (search query k).on s = ((t.searched query k).mapError .mishap, s.logging events) := by
  have hhits : ∀ (q : FullText.Query) (s : Store),
      (((t.search q).take k.toNat).mapM fun p => do
        return ({ entity := ← revive p.1, score := p.2 } : Hit) : Action (List Hit)).on s =
      (.ok (((t.search q).take k.toNat).map fun p => { entity := p.1, score := p.2 }), s) := by
    intro q s
    apply on_mapM_hits
    exact fun p hp => h.rows p.1 (Tables.mem_entities_of_mem_search (List.mem_of_mem_take hp))
  unfold search Tables.searched
  by_cases hasks : (isBlank query || decide (k ≤ 0)) = true
  · rw [if_pos hasks, if_pos hasks]
    exact ⟨[], rfl⟩
  rw [if_neg hasks, if_neg hasks]
  simp only [on_bind, on_requireFile_ok ht, on_requireTables_ok ht, on_encoded]
  cases query with
  | broken points => exact ⟨[], rfl⟩
  | whole query =>
    cases hrange : isInRange k with
    | false => exact ⟨[], rfl⟩
    | true =>
      have hfound : ((do
          let text ← (Writing.whole query).encoded
          if true = true then return t.found text k else .error .integerTooLarge :
            Except Mishap (List Hit)).mapError Trouble.mishap) = .ok (t.found query k) := rfl
      rw [hfound]
      unfold Tables.found taken?
      simp only [Writing.encoded, Except.mapError, Bool.not_true, Bool.false_eq_true, if_false]
      cases hown : FullText.Query.ofString? query with
      | some q => exact ⟨[], hhits q s⟩
      | none =>
        simp only [on_bind, on_log]
        refine ⟨[{ level := .debug, name := "fts_query_requoted"
                   members := [("query", .text query),
                     ("quoted", .text (FullText.quoteQuery query))] }], ?_⟩
        by_cases hquoted : FullText.quoteQuery query = ""
        · -- there is no word to quote, and the empty text is no query either
          rw [hquoted]
          rfl
        · obtain ⟨q, hq⟩ := FullText.exists_ofString?_quoteQuery hquoted
          rw [if_neg (by simpa using hquoted)]
          simp only [hq]
          exact hhits q _

/-- No more can be asked for than a number that the tables take. -/
theorem on_search_of_not_inRange (ht : s.disk.tables? = some t) {query : String}
    (hquery : Text.allBlank query = false) {k : Int} (hk : 0 < k) (hrange : isInRange k = false) :
    (search (.whole query) k).on s = (.error (.mishap .integerTooLarge), s) := by
  unfold search
  rw [if_neg (by simp [isBlank, hquery, hk])]
  simp only [on_bind, on_requireFile_ok ht, on_requireTables_ok ht, on_encoded, hrange]
  rfl

/-- A text that no encoding has cannot be looked for. -/
theorem on_search_broken (ht : s.disk.tables? = some t) (points : List Nat) {k : Int} (hk : 0 < k) :
    (search (.broken points) k).on s = (.error (.mishap (.notEncodable points)), s) := by
  unfold search
  rw [if_neg (by simp [isBlank, hk])]
  simp only [on_bind, on_requireFile_ok ht, on_requireTables_ok ht, on_encoded]
  rfl

theorem on_neighbors (ht : s.disk.tables? = some t) (h : t.IsSound) (id : Writing) (limit : Int) :
    (neighbors id limit).on s = ((t.surroundings id limit).mapError .mishap, s) := by
  unfold neighbors Tables.surroundings
  simp only [on_bind, on_requireFile_ok ht, on_requireTables_ok ht, on_encoded]
  cases id with
  | broken points => rfl
  | whole id =>
    have hcallees : ∀ e ∈ upTo limit (t.callees id), e.IsNormal := fun e he =>
      h.rows e (Tables.mem_entities_of_mem_callees (mem_of_mem_upTo he))
    have hcallers : ∀ e ∈ upTo limit (t.callers id), e.IsNormal := fun e he =>
      h.rows e (Tables.mem_entities_of_mem_callers (mem_of_mem_upTo he))
    cases hrange : isInRange limit with
    | false => rfl
    | true =>
      simp only [Writing.encoded, Except.mapError, Bool.not_true, Bool.false_eq_true, if_false, on_bind,
        on_mapM_revive hcallees, on_mapM_revive hcallers, on_pure]
      rfl

theorem Tables.surroundings_of_inRange (t : Tables) (id : String) {limit : Int}
    (hrange : isInRange limit = true) : t.surroundings (.whole id) limit =
      .ok { callees := upTo limit (t.callees id), callers := upTo limit (t.callers id) } :=
  if_pos hrange

/-- No list of neighbours is cut off at a number that the tables do not take. -/
theorem Tables.surroundings_of_not_inRange (t : Tables) (id : String) {limit : Int}
    (hrange : isInRange limit = false) :
    t.surroundings (.whole id) limit = .error .integerTooLarge :=
  if_neg (by rw [hrange]; exact Bool.false_ne_true)

/-- A reading of a store that was built answers what its tables say. -/
theorem on_reading (ht : s.disk.tables? = some t) (h : t.IsSound) (r : Reading) :
    ∃ events, r.act.on s =
      ((t.answer s.path s.variableLimit r).mapError .mishap, s.logging events) := by
  cases r with
  | search query k =>
    obtain ⟨events, hon⟩ := on_search ht h query k
    refine ⟨events, ?_⟩
    simp only [Reading.act, Tables.answer, on_bind, hon]
    cases t.searched query k <;> rfl
  | entities ids =>
    refine ⟨[], ?_⟩
    simp only [Reading.act, Tables.answer, on_bind,
      on_gather ht fun _ _ he => h.isNormal_of_mem_getAll he]
    cases t.gathered s.variableLimit ids <;> rfl
  | neighbors id limit =>
    refine ⟨[], ?_⟩
    simp only [Reading.act, Tables.answer, on_bind, on_neighbors ht h]
    cases t.surroundings id limit <;> rfl
  | status =>
    refine ⟨[], ?_⟩
    obtain ⟨d, hd, hdt⟩ := tables?_database ht
    rw [Database.eq_ofTables hdt] at hd
    rw [eq_holding hd]
    rfl

end

end CodeIndex.Store
