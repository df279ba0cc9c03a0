import CodeIndex.Proofs.Store.Action

/-!
# What the statements of a change come to

The statements of a change, done one after another by the database engine, come to what `Tables` says of
the three tables at once: clearing a path is a purge, and the statements of an insertion insert, unless
there is a number or a text that the tables cannot hold.  Whatever the engine, they change nothing but the
database.
-/

namespace CodeIndex.Store

variable {α β : Type}

def holding (s : Store) (d : Database) : Store :=
  { s with disk := .database d }

theorem eq_holding {s : Store} {d : Database} (h : s.disk = .database d) : s = s.holding d := by
  unfold holding
  rw [← h]

theorem Database.eq_ofTables {d : Database} {t : Tables} (h : d.tables? = some t) :
    d = .ofTables t := by
  unfold Database.tables? at h
  split at h
  · rename_i he hd ht
    injection h with h
    subst h
    cases d
    simp only at he hd ht
    rw [he, hd, ht]
    rfl
  · cases h

theorem on_execute (engine : Engine) (statement : Statement) (s : Store) (d : Database) :
    (execute engine statement).on (s.holding d) =
      ((engine statement d).2.mapError .mishap, s.holding (engine statement d).1) := by
  unfold execute
  simp only [on_bind, on_get, holding, on_set]
  cases (engine statement d).2 <;> rfl

theorem on_execute_of_ne {s : Store} (h : ∀ d, s.disk ≠ .database d) (engine : Engine)
    (statement : Statement) :
    (execute engine statement).on s = (.error (.mishap .cannotOpen), s) := by
  unfold execute
  simp only [on_bind, on_get]
  cases hd : s.disk with
  | database d => exact absurd hd (h d)
  | _ => rfl

/-- A statement that is answered leaves the rest to be done on what it leaves. -/
theorem on_executeAll_cons {engine : Engine} {statement : Statement} {d d' : Database} {n : Nat}
    (h : engine statement d = (d', .ok n)) (rest : List Statement) (s : Store) :
    (executeAll engine (statement :: rest)).on (s.holding d) =
      (executeAll engine rest).on (s.holding d') := by
  rw [executeAll, on_bind, on_execute, h]
  rfl

/-- A statement that is stopped ends all that follows. -/
theorem on_executeAll_cons_error {engine : Engine} {statement : Statement} {d d' : Database}
    {m : Mishap} (h : engine statement d = (d', .error m)) (rest : List Statement) (s : Store) :
    (executeAll engine (statement :: rest)).on (s.holding d) =
      (.error (.mishap m), s.holding d') := by
  rw [executeAll, on_bind, on_execute, h]
  rfl

theorem executeAll_append (engine : Engine) (first second : List Statement) :
    executeAll engine (first ++ second) =
      (do executeAll engine first; executeAll engine second : Action Unit) := by
  induction first with
  | nil => simp only [List.nil_append, executeAll, pure_bind]
  | cons statement rest ih => simp only [List.cons_append, executeAll, ih, bind_assoc]

/-! ## What the tables can hold -/

/-- How a statement ends that is given something that the tables cannot hold. -/
inductive IsUnheld : Mishap → Prop where
  | number : IsUnheld .integerTooLarge
  | text (points : List Nat) : IsUnheld (.notEncodable points)

/-- What is given has a property, or cannot be held. -/
def Finds (P : α → Prop) : Except Mishap α → Prop
  | .ok a => P a
  | .error m => IsUnheld m

theorem Finds.bind {P : α → Prop} {Q : β → Prop} {r : Except Mishap α} {f : α → Except Mishap β}
    (h : Finds P r) (hf : ∀ a, P a → Finds Q (f a)) : Finds Q (r >>= f) := by
  cases r with
  | ok a => exact hf a h
  | error m => exact h

theorem finds_encoded (w : Writing) : Finds (fun s => w = .whole s) w.encoded := by
  cases w with
  | whole s => rfl
  | broken points => exact .text points

theorem finds_encoded? (w? : Option Writing) :
    Finds (fun s? => w? = s?.map .whole) (w?.mapM Writing.encoded) := by
  cases w? with
  | none => rfl
  | some w =>
    refine (finds_encoded w).bind fun s hs => ?_
    exact congrArg some hs

theorem finds_storedNumber (n : Nat) :
    Finds (fun m => n = m ∧ n < integerBound) (storedNumber n) := by
  unfold storedNumber
  split
  · rename_i h
    exact ⟨rfl, h⟩
  · exact .number

/-- A draft of which the tables can hold all. -/
def storable (d : Draft) : Bool :=
  (Entity.whole? d).isSome && fits d

theorem storable_iff {d : Draft} : storable d = true ↔ ∃ e : Entity, d = e.draft ∧ fits e = true := by
  rw [storable, Bool.and_eq_true, Option.isSome_iff_exists]
  constructor
  · rintro ⟨⟨e, he⟩, hfit⟩
    obtain rfl := Entity.whole?_eq_some_iff.mp he
    exact ⟨e, rfl, hfit⟩
  · rintro ⟨e, rfl, hfit⟩
    exact ⟨⟨e, Entity.whole?_draft e⟩, hfit⟩

theorem storable_draft (e : Entity) : storable e.draft = fits e := by
  rw [storable, Entity.whole?_draft]
  rfl

theorem all_storable_draft (entities : List Entity) :
    (entities.map Entity.draft).all storable = entities.all fits := by
  rw [List.all_map]
  exact congrArg entities.all (funext storable_draft)

/-- Drafts that can be held are entities whose numbers fit. -/
theorem entities_of_storable {drafts : List Draft} (h : drafts.all storable = true) :
    drafts = (drafts.filterMap Entity.whole?).map Entity.draft ∧
      (drafts.filterMap Entity.whole?).all fits = true := by
  induction drafts with
  | nil => exact ⟨rfl, rfl⟩
  | cons d rest ih =>
    rw [List.all_cons, Bool.and_eq_true] at h
    obtain ⟨e, rfl, hfit⟩ := storable_iff.mp h.1
    obtain ⟨hdrafts, hfits⟩ := ih h.2
    rw [List.filterMap_cons_some (Entity.whole?_draft e), List.map_cons, List.all_cons, hfit, hfits,
      ← hdrafts]
    exact ⟨rfl, rfl⟩

/-- A draft that becomes a row is, but for its references, an entity whose numbers fit. -/
theorem finds_rowOf (d : Draft) :
    Finds (fun e : Entity => d = { e.draft with references := d.references } ∧ fits e = true)
      (rowOf d) := by
  unfold rowOf
  refine (finds_encoded _).bind fun id hid => (finds_encoded _).bind fun container hcontainer =>
    (finds_encoded _).bind fun name hname => (finds_storedNumber _).bind fun arity harity =>
    (finds_encoded _).bind fun path hpath => (finds_storedNumber _).bind fun startLine hstart =>
    (finds_storedNumber _).bind fun endLine hend => (finds_encoded? _).bind fun signature hsignature =>
    (finds_encoded? _).bind fun spec hspec => (finds_encoded? _).bind fun doc hdoc =>
    (finds_encoded _).bind fun lexical hlexical => (finds_encoded? _).bind fun raw hraw => ?_
  obtain ⟨harity, ha⟩ := harity
  obtain ⟨hstart, hs⟩ := hstart
  obtain ⟨hend, he⟩ := hend
  rw [harity] at ha
  rw [hstart] at hs
  rw [hend] at he
  refine ⟨?_, by simp [fits, ha, hs, he]⟩
  cases d
  simp only at hid hcontainer hname harity hpath hstart hend hsignature hspec hdoc hlexical hraw
  subst_vars
  rfl

theorem finds_textRowOf (d : Draft) : Finds (fun _ => True) (textRowOf d) :=
  (finds_encoded _).bind fun _ _ => (finds_encoded _).bind fun _ _ =>
    (finds_encoded _).bind fun _ _ => trivial

theorem finds_edgeOf (e : Edge Writing) : Finds (fun _ => e.target.whole? ≠ none) (edgeOf e) :=
  (finds_encoded _).bind fun _ _ => (finds_encoded _).bind fun _ htarget => by rw [htarget]; exact nofun

theorem rowOf_draft {e : Entity} (h : fits e = true) : rowOf e.draft = .ok (Tables.row e) := by
  rw [fits, Bool.and_eq_true, Bool.and_eq_true] at h
  obtain ⟨⟨ha, hs⟩, he⟩ := h
  have hnumber : ∀ {n : Nat}, decide (n < integerBound) = true → storedNumber n = .ok n := fun h =>
    if_pos (of_decide_eq_true h)
  have htext? : ∀ s? : Option String, (s?.map Writing.whole).mapM Writing.encoded = .ok s? := by
    rintro (_ | s) <;> rfl
  simp only [rowOf, Entity.draft, Entity.map, hnumber ha, hnumber hs, hnumber he, htext?]
  rfl

/-! ## Statements over many rows -/

theorem held_map {γ : Type} {hold : α → Except Mishap β} {f : γ → α} {g : γ → β} {items : List γ}
    (h : ∀ x ∈ items, hold (f x) = .ok (g x)) : held hold (items.map f) = (items.map g, .ok 0) := by
  induction items with
  | nil => rfl
  | cons x rest ih =>
    rw [List.forall_mem_cons] at h
    simp only [List.map_cons, held, h.1, ih h.2]

/-- A statement over many rows finds that all can be held, or is stopped. -/
theorem held_cases {hold : α → Except Mishap β} {P : α → β → Prop} (h : ∀ x, Finds (P x) (hold x))
    (items : List α) :
    ((held hold items).2 = .ok 0 ∧ ∀ x ∈ items, ∃ y, P x y) ∨
      ∃ m, IsUnheld m ∧ (held hold items).2 = .error m := by
  induction items with
  | nil => exact .inl ⟨rfl, nofun⟩
  | cons x rest ih =>
    have hx := h x
    rw [held]
    cases hhold : hold x with
    | error m =>
      rw [hhold] at hx
      exact .inr ⟨m, hx, rfl⟩
    | ok y =>
      rw [hhold] at hx
      rcases ih with ⟨hok, hrest⟩ | ⟨m, hm, herror⟩
      · exact .inl ⟨hok, List.forall_mem_cons.mpr ⟨⟨y, hx⟩, hrest⟩⟩
      · exact .inr ⟨m, hm, herror⟩

/-! ## The statements of each change -/

theorem on_recreation (s : Store) (d : Database) :
    (executeAll Statement.apply recreation).on (s.holding d) = (.ok (), s.holding (.ofTables {})) := by
  rw [recreation]
  iterate 6 rw [on_executeAll_cons rfl]
  rfl

theorem on_clear (path : String) (s : Store) (t : Tables) :
    (clear Statement.apply (.whole path)).on (s.holding (.ofTables t)) =
      (.ok (t.entities.length - (t.purge path).entities.length),
        s.holding (.ofTables (t.purge path))) := by
  simp only [clear, on_bind, on_execute]
  rfl

theorem on_clear_broken (points : List Nat) (s : Store) (d : Database) :
    (clear Statement.apply (.broken points)).on (s.holding d) =
      (.error (.mishap (.notEncodable points)), s.holding d) := by
  simp only [clear, on_bind, on_execute]
  rfl

theorem Tables.length_purge_le (t : Tables) (path : String) :
    (t.purge path).entities.length ≤ t.entities.length :=
  List.length_filter_le _ _

theorem Tables.length_purgeAll_le (t : Tables) (paths : List String) :
    (t.purgeAll paths).entities.length ≤ t.entities.length := by
  unfold Tables.purgeAll
  induction paths generalizing t with
  | nil => exact Nat.le_refl _
  | cons path rest ih => exact Nat.le_trans (ih (t.purge path)) (t.length_purge_le path)

theorem on_clearAll (paths : List String) (s : Store) (t : Tables) :
    (clearAll Statement.apply (paths.map .whole)).on (s.holding (.ofTables t)) =
      (.ok (t.entities.length - (t.purgeAll paths).entities.length),
        s.holding (.ofTables (t.purgeAll paths))) := by
  induction paths generalizing t with
  | nil => simp only [List.map_nil, clearAll, on_pure, Tables.purgeAll, List.foldl_nil, Nat.sub_self]
  | cons path rest ih =>
    have hfirst := t.length_purge_le path
    have hrest := (t.purge path).length_purgeAll_le rest
    have hsum : t.entities.length - (t.purge path).entities.length +
        ((t.purge path).entities.length - ((t.purge path).purgeAll rest).entities.length) =
        t.entities.length - (t.purgeAll (path :: rest)).entities.length := by
      change _ = t.entities.length - ((t.purge path).purgeAll rest).entities.length
      omega
    simp only [List.map_cons, clearAll, on_bind, on_clear, ih, on_pure, hsum]
    rfl

/-- The first path that cannot be encoded stops the clearing, whatever the tables hold. -/
theorem on_clearAll_error {paths : List Writing} (h : ∃ path ∈ paths, path.whole? = none) :
    ∃ points, ∀ (s : Store) (t : Tables), ∃ d,
      (clearAll Statement.apply paths).on (s.holding (.ofTables t)) =
        (.error (.mishap (.notEncodable points)), s.holding d) := by
  induction paths with
  | nil =>
    obtain ⟨_, hmem, -⟩ := h
    cases hmem
  | cons path rest ih =>
    cases path with
    | broken points =>
      exact ⟨points, fun s t => ⟨.ofTables t, by simp only [clearAll, on_bind, on_clear_broken]⟩⟩
    | whole p =>
      have hrest : ∃ path ∈ rest, path.whole? = none := by
        obtain ⟨path, hmem, hnone⟩ := h
        rcases List.mem_cons.mp hmem with rfl | hmem
        · cases hnone
        · exact ⟨path, hmem, hnone⟩
      obtain ⟨points, hpoints⟩ := ih hrest
      refine ⟨points, fun s t => ?_⟩
      obtain ⟨d, hd⟩ := hpoints s (t.purge p)
      exact ⟨d, by simp only [clearAll, on_bind, on_clear, hd]⟩

section

variable {answer : Except Mishap Nat}

theorem apply_deleteOf {ids : List Writing} (h : (held Writing.encoded ids).2 = answer) (table : Table)
    (d : Database) : Statement.apply (.deleteOf table ids) d =
      (d.delete (held Writing.encoded ids).1 table, answer) :=
  Prod.ext rfl h

theorem apply_putEntities {drafts : List Draft} (h : (held rowOf drafts).2 = answer) (d : Database) :
    Statement.apply (.putEntities drafts) d =
      ({ d with entities := d.entities.map fun rows => (held rowOf drafts).1.foldl Tables.putRow rows },
        answer) :=
  Prod.ext rfl h

theorem apply_addTexts {drafts : List Draft} (h : (held textRowOf drafts).2 = answer) (d : Database) :
    Statement.apply (.addTexts drafts) d =
      ({ d with texts := d.texts.map (· ++ (held textRowOf drafts).1) }, answer) :=
  Prod.ext rfl h

theorem apply_putEdges {edges : List (Edge Writing)} (h : (held edgeOf edges).2 = answer)
    (d : Database) : Statement.apply (.putEdges edges) d =
      ({ d with edges := d.edges.map fun rows => (held edgeOf edges).1.foldl Tables.putEdge rows },
        answer) :=
  Prod.ext rfl h

end

theorem Tables.insert_nil (t : Tables) : t.insert [] = t := by
  have hall : ∀ {α : Type} (rows : List α), rows.filter (fun _ => true) = rows :=
    fun _ => List.filter_eq_self.mpr fun _ _ => rfl
  simp only [Tables.insert, List.map_nil, List.contains_nil, Bool.not_false, hall, List.append_nil,
    List.flatMap_nil, List.foldl_nil]

theorem insertion_cons (d : Draft) (rest : List Draft) :
    ∃ edges, insertion (d :: rest) =
      .deleteOf .texts ((d :: rest).map Entity.id) :: .deleteOf .edges ((d :: rest).map Entity.id) ::
        .putEntities (d :: rest) :: .addTexts (d :: rest) :: edges ∧
      (edges = [.putEdges ((d :: rest).flatMap Tables.edgesOf)] ∨
        edges = [] ∧ (d :: rest).flatMap Tables.edgesOf = []) := by
  refine ⟨_, rfl, ?_⟩
  cases h : (d :: rest).flatMap Tables.edgesOf with
  | nil => exact .inr ⟨rfl, rfl⟩
  | cons edge edges => exact .inl rfl

theorem flatMap_edgesOf_draft (entities : List Entity) :
    (entities.map Entity.draft).flatMap Tables.edgesOf =
      (entities.flatMap Tables.edgesOf).map fun e => ⟨.whole e.source, .whole e.target⟩ := by
  rw [List.flatMap_map, List.map_flatMap]
  refine List.flatMap_congr fun e _ => ?_
  simp only [Tables.edgesOf, Entity.draft, Entity.map, List.map_map]
  rfl

/-- The statements that insert entities put all of them into the tables, if they fit. -/
theorem on_insertion {entities : List Entity} (h : entities.all fits = true) (s : Store)
    (t : Tables) :
    (executeAll Statement.apply (insertion (entities.map Entity.draft))).on (s.holding (.ofTables t)) =
      (.ok (), s.holding (.ofTables (t.insert entities))) := by
  cases entities with
  | nil => rw [Tables.insert_nil]; rfl
  | cons e rest =>
    have hids : held Writing.encoded (((e :: rest).map Entity.draft).map Entity.id) =
        ((e :: rest).map Entity.id, .ok 0) := by
      rw [List.map_map]
      exact held_map fun _ _ => rfl
    have hrows : held rowOf ((e :: rest).map Entity.draft) = ((e :: rest).map Tables.row, .ok 0) :=
      held_map fun e he => rowOf_draft (List.all_eq_true.mp h e he)
    have htexts : held textRowOf ((e :: rest).map Entity.draft) =
        ((e :: rest).map Tables.textRow, .ok 0) :=
      held_map fun _ _ => rfl
    have hputs : held edgeOf (((e :: rest).map Entity.draft).flatMap Tables.edgesOf) =
        ((e :: rest).flatMap Tables.edgesOf, .ok 0) := by
      rw [flatMap_edgesOf_draft]
      refine Eq.trans (held_map (g := id) ?_) (by rw [List.map_id])
      exact fun _ _ => rfl
    -- a row is put as its entity is
    have hput : ((e :: rest).map Tables.row).foldl Tables.putRow t.entities =
        (e :: rest).foldl Tables.putRow t.entities :=
      List.foldl_map
    obtain ⟨edges, hscript, hedges⟩ := insertion_cons e.draft (rest.map Entity.draft)
    simp only [← List.map_cons] at hscript hedges
    rw [hscript, on_executeAll_cons (apply_deleteOf (congrArg Prod.snd hids) _ _),
      on_executeAll_cons (apply_deleteOf (congrArg Prod.snd hids) _ _),
      on_executeAll_cons (apply_putEntities (congrArg Prod.snd hrows) _),
      on_executeAll_cons (apply_addTexts (congrArg Prod.snd htexts) _), hids, hrows, htexts]
    unfold Tables.insert
    rcases hedges with rfl | ⟨rfl, hnone⟩
    · rw [on_executeAll_cons (apply_putEdges (congrArg Prod.snd hputs) _), hputs, ← hput]
      rfl
    · -- without edges, the statement that adds them is left out
      rw [flatMap_edgesOf_draft, List.map_eq_nil_iff] at hnone
      rw [hnone, ← hput]
      rfl

/-- An insertion of something that the tables cannot hold is stopped, always for the same reason. -/
theorem on_insertion_error {drafts : List Draft} (h : drafts.all storable = false) :
    ∃ m, IsUnheld m ∧ ∀ (s : Store) (d : Database), ∃ d',
      (executeAll Statement.apply (insertion drafts)).on (s.holding d) =
        (.error (.mishap m), s.holding d') := by
  cases drafts with
  | nil => cases h
  | cons draft rest =>
    obtain ⟨edges, hscript, hedges⟩ := insertion_cons draft rest
    rw [hscript]
    -- each statement goes by what it is given alone, and the first that is stopped ends the insertion
    obtain ⟨hids, -⟩ | ⟨m, hm, hids⟩ := held_cases finds_encoded ((draft :: rest).map Entity.id)
    swap
    · exact ⟨m, hm, fun s d => ⟨_, on_executeAll_cons_error (apply_deleteOf hids _ d) _ s⟩⟩
    have hdeleted : ∀ (others : List Statement) (s : Store) (d : Database), ∃ d',
        (executeAll Statement.apply (.deleteOf .texts ((draft :: rest).map Entity.id) ::
          .deleteOf .edges ((draft :: rest).map Entity.id) :: others)).on (s.holding d) =
            (executeAll Statement.apply others).on (s.holding d') := fun _ s d =>
      ⟨_, (on_executeAll_cons (apply_deleteOf hids _ d) _ s).trans
        (on_executeAll_cons (apply_deleteOf hids _ _) _ s)⟩
    obtain ⟨hrows, hwhole⟩ | ⟨m, hm, hrows⟩ := held_cases finds_rowOf (draft :: rest)
    swap
    · refine ⟨m, hm, fun s d => ?_⟩
      obtain ⟨d₁, h₁⟩ := hdeleted _ s d
      exact ⟨_, h₁.trans (on_executeAll_cons_error (apply_putEntities hrows _) _ s)⟩
    obtain ⟨htexts, -⟩ | ⟨m, hm, htexts⟩ := held_cases finds_textRowOf (draft :: rest)
    swap
    · refine ⟨m, hm, fun s d => ?_⟩
      obtain ⟨d₁, h₁⟩ := hdeleted _ s d
      rw [on_executeAll_cons (apply_putEntities hrows _)] at h₁
      exact ⟨_, h₁.trans (on_executeAll_cons_error (apply_addTexts htexts _) _ s)⟩
    obtain ⟨-, htargets⟩ | ⟨m, hm, hputs⟩ :=
      held_cases finds_edgeOf ((draft :: rest).flatMap Tables.edgesOf)
    · -- then all texts were whole and all numbers fitted
      refine absurd ?_ (Bool.eq_false_iff.mp h)
      rw [List.all_eq_true]
      intro d hd
      obtain ⟨e, he, hfit⟩ := hwhole d hd
      refine storable_iff.mpr ⟨{ e with references := Writing.wholes d.references }, ?_, hfit⟩
      have hreferences : (Writing.wholes d.references).map .whole = d.references := by
        refine Writing.map_wholes fun w hw => ?_
        obtain ⟨_, h⟩ := htargets ⟨d.id, w⟩
          (List.mem_flatMap.mpr ⟨d, hd, List.mem_map.mpr ⟨w, hw, rfl⟩⟩)
        exact h
      rw [he]
      simp only [Entity.draft, Entity.map, hreferences]
    · have hsome : edges = [.putEdges ((draft :: rest).flatMap Tables.edgesOf)] := by
        rcases hedges with hsome | ⟨-, hnone⟩
        · exact hsome
        · rw [hnone] at hputs
          cases hputs
      refine ⟨m, hm, fun s d => ?_⟩
      obtain ⟨d₁, h₁⟩ := hdeleted (.putEntities (draft :: rest) :: .addTexts (draft :: rest) :: edges) s d
      rw [hsome, on_executeAll_cons (apply_putEntities hrows _),
        on_executeAll_cons (apply_addTexts htexts _)] at h₁
      rw [hsome]
      exact ⟨_, h₁.trans (on_executeAll_cons_error (apply_putEdges hputs _) _ s)⟩

/-! ## Bodies of transactions -/

theorem on_committed {body : Action α} {s s' : Store} {d : Database} {a : α}
    (h : body.on s = (.ok a, s'.holding d)) :
    (committed Statement.apply body).on s = (.ok a, s'.holding d) := by
  simp only [committed, on_bind, h, on_execute]
  rfl

theorem on_committed_error {engine : Engine} {body : Action α} {s s' : Store} {e : Trouble}
    (h : body.on s = (.error e, s')) : (committed engine body).on s = (.error e, s') := by
  simp only [committed, on_bind, h]

theorem on_refill {entities : List Entity} (h : entities.all fits = true) (s : Store)
    (d : Database) :
    (refill Statement.apply (entities.map Entity.draft)).on (s.holding d) =
      (.ok (), s.holding (.ofTables (Tables.insert {} entities))) := by
  simp only [refill, executeAll_append, on_bind, on_recreation, on_insertion h]

theorem on_refill_error {drafts : List Draft} (h : drafts.all storable = false) :
    ∃ m, IsUnheld m ∧ ∀ (s : Store) (d : Database), ∃ d',
      (refill Statement.apply drafts).on (s.holding d) = (.error (.mishap m), s.holding d') := by
  obtain ⟨m, hm, hstop⟩ := on_insertion_error h
  refine ⟨m, hm, fun s d => ?_⟩
  obtain ⟨d', hd'⟩ := hstop s (.ofTables {})
  exact ⟨d', by simp only [refill, executeAll_append, on_bind, on_recreation, hd']⟩

theorem on_refill_of_ne {s : Store} (h : ∀ d, s.disk ≠ .database d) (engine : Engine)
    (drafts : List Draft) :
    (refill engine drafts).on s = (.error (.mishap .cannotOpen), s) := by
  simp only [refill, recreation, List.cons_append, executeAll, on_bind, on_execute_of_ne h]

theorem on_requireTables (s : Store) (t : Tables) :
    requireTables.on (s.holding (.ofTables t)) = (.ok t, s.holding (.ofTables t)) := rfl

theorem on_exchange (paths : List String) {entities : List Entity} (h : entities.all fits = true)
    (s : Store) (t : Tables) :
    (exchange Statement.apply (paths.map .whole) (entities.map Entity.draft)).on (s.holding (.ofTables t)) =
      (.ok (t.entities.length - (t.purgeAll paths).entities.length),
        s.holding (.ofTables (t.merge paths entities))) := by
  simp only [exchange, on_bind, on_requireTables, on_clearAll, on_insertion h, on_pure,
    Tables.merge]

/-- An exchange of something that the tables cannot hold, or at a path that cannot be encoded, is stopped,
always for the same reason. -/
theorem on_exchange_error {paths : List Writing} {drafts : List Draft}
    (h : (∃ path ∈ paths, path.whole? = none) ∨ drafts.all storable = false) :
    ∃ m, IsUnheld m ∧ ∀ (s : Store) (t : Tables), ∃ d,
      (exchange Statement.apply paths drafts).on (s.holding (.ofTables t)) =
        (.error (.mishap m), s.holding d) := by
  by_cases hpaths : ∃ path ∈ paths, path.whole? = none
  · obtain ⟨points, hclear⟩ := on_clearAll_error hpaths
    refine ⟨_, .text points, fun s t => ?_⟩
    obtain ⟨d, hd⟩ := hclear s t
    exact ⟨d, by simp only [exchange, on_bind, on_requireTables, hd]⟩
  · obtain ⟨m, hm, hstop⟩ := on_insertion_error (h.resolve_left hpaths)
    refine ⟨m, hm, fun s t => ?_⟩
    have hown := Writing.map_wholes fun path hmem hnone => hpaths ⟨path, hmem, hnone⟩
    obtain ⟨d, hd⟩ := hstop s (.ofTables (t.purgeAll (Writing.wholes paths)))
    rw [← hown]
    exact ⟨d, by simp only [exchange, on_bind, on_requireTables, on_clearAll, hd]⟩

theorem on_withdraw (path : String) (s : Store) (t : Tables) :
    (withdraw Statement.apply path).on (s.holding (.ofTables t)) =
      (.ok (t.entities.length - (t.purge path).entities.length),
        s.holding (.ofTables (t.purge path))) := by
  simp only [withdraw, on_bind, on_requireTables, on_clear]

theorem on_withdraw_broken (points : List Nat) (s : Store) (t : Tables) :
    (withdraw Statement.apply (.broken points)).on (s.holding (.ofTables t)) =
      (.error (.mishap (.notEncodable points)), s.holding (.ofTables t)) := by
  simp only [withdraw, on_bind, on_requireTables, on_clear_broken]

/-- Asking for the tables changes nothing. -/
theorem requireTables_cases (s : Store) :
    (∃ t, s.disk.tables? = some t ∧ requireTables.on s = (.ok t, s)) ∨
      ∃ e, requireTables.on s = (.error e, s) := by
  unfold requireTables
  simp only [on_bind, on_get]
  cases hd : s.disk with
  | database d =>
    cases ht : d.tables? with
    | some t => exact .inl ⟨t, ht, by simp only [ht, on_pure]⟩
    | none => exact .inr ⟨_, by simp only [ht]; rfl⟩
  | absent => exact .inr ⟨_, rfl⟩
  | noDirectory reason => exact .inr ⟨_, rfl⟩
  | noFile => exact .inr ⟨_, rfl⟩
  | garbage => exact .inr ⟨_, rfl⟩
  | torn => exact .inr ⟨_, rfl⟩

/-! ## What no engine changes -/

/-- A step that changes nothing but what stands at the store's path. -/
def KeepsRest (act : Action α) : Prop :=
  ∀ s, ∃ disk, (act.on s).2 = { s with disk }

theorem KeepsRest.pure (a : α) : KeepsRest (pure a : Action α) := fun s => ⟨s.disk, rfl⟩

theorem KeepsRest.bind {act : Action α} {f : α → Action β} (h : KeepsRest act)
    (hf : ∀ a, KeepsRest (f a)) : KeepsRest (act >>= f) := by
  intro s
  obtain ⟨disk, hs⟩ := h s
  rw [on_bind]
  rcases hon : act.on s with ⟨r, s₁⟩
  rw [hon] at hs
  cases r with
  | error e => exact ⟨disk, hs⟩
  | ok a =>
    obtain ⟨disk', hs'⟩ := hf a s₁
    change s₁ = _ at hs
    exact ⟨disk', by rw [hs', hs]⟩

theorem KeepsRest.execute (engine : Engine) (statement : Statement) :
    KeepsRest (execute engine statement) := by
  intro s
  by_cases h : ∃ d, s.disk = .database d
  · obtain ⟨d, hd⟩ := h
    rw [eq_holding hd, on_execute]
    exact ⟨.database (engine statement d).1, rfl⟩
  · rw [on_execute_of_ne (fun d hd => h ⟨d, hd⟩)]
    exact ⟨s.disk, rfl⟩

theorem KeepsRest.executeAll (engine : Engine) (statements : List Statement) :
    KeepsRest (executeAll engine statements) := by
  induction statements with
  | nil => exact .pure ()
  | cons statement rest ih => exact .bind (.execute engine statement) fun _ => ih

theorem KeepsRest.clear (engine : Engine) (path : Writing) : KeepsRest (clear engine path) :=
  .bind (.execute _ _) fun _ => .bind (.execute _ _) fun _ => .execute _ _

theorem KeepsRest.clearAll (engine : Engine) (paths : List Writing) :
    KeepsRest (clearAll engine paths) := by
  induction paths with
  | nil => exact .pure 0
  | cons path rest ih => exact .bind (.clear engine path) fun _ => .bind ih fun _ => .pure _

theorem KeepsRest.requireTables : KeepsRest requireTables := by
  intro s
  obtain ⟨t, -, h⟩ | ⟨e, h⟩ := requireTables_cases s <;> exact ⟨s.disk, by rw [h]⟩

theorem KeepsRest.refill (engine : Engine) (drafts : List Draft) :
    KeepsRest (refill engine drafts) :=
  .executeAll _ _

theorem KeepsRest.exchange (engine : Engine) (paths : List Writing) (drafts : List Draft) :
    KeepsRest (exchange engine paths drafts) :=
  .bind .requireTables fun _ => .bind (.clearAll _ _) fun removed =>
    .bind (.executeAll _ _) fun _ => .pure removed

theorem KeepsRest.withdraw (engine : Engine) (path : Writing) : KeepsRest (withdraw engine path) :=
  .bind .requireTables fun _ => .clear _ _

theorem KeepsRest.committed (engine : Engine) {body : Action α} (h : KeepsRest body) :
    KeepsRest (committed engine body) :=
  .bind h fun a => .bind (.execute _ _) fun _ => .pure a

end CodeIndex.Store
