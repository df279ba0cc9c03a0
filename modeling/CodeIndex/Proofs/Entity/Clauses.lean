import CodeIndex.Entity.Clauses
import CodeIndex.Proofs.Text.Distinct

/-!
# What merging clauses keeps

A joined clause has the identity and the path of one of its parts, and merging leaves one entity per
identity, in order of first occurrence.  Where an identity says in which file it lives, merging a batch
and then looking at one file is the same as merging what the batch has for that file.
-/

namespace CodeIndex

/-! ## Drafts whose texts are whole -/

namespace Entity

theorem map_eq_self {τ : Type} {e : Entity τ} {f : τ → τ} (h : ∀ t ∈ e.texts, f t = t) :
    e.map f = e := by
  simp only [texts, List.mem_append, or_imp, forall_and, List.forall_mem_cons, Option.mem_toList] at h
  obtain ⟨⟨⟨⟨⟨⟨hid, hcontainer, hname, hpath, hlexical, -⟩, hsignature⟩, hdoc⟩, hspec⟩, hraw⟩,
    hreferences⟩ := h
  have hoption : ∀ {t? : Option τ}, (∀ t, t? = some t → f t = t) → t?.map f = t? := by
    rintro (_ | t) ht
    · rfl
    · exact congrArg some (ht t rfl)
  have hmap : e.references.map f = e.references :=
    (List.map_congr_left hreferences).trans (List.map_id _)
  simp only [map, hid, hcontainer, hname, hpath, hlexical, hoption hsignature, hoption hdoc,
    hoption hspec, hoption hraw, hmap]

theorem texts_map {τ υ : Type} (f : τ → υ) (e : Entity τ) : (e.map f).texts = e.texts.map f := by
  simp [texts, map, Option.toList_map]

theorem map_map {τ υ φ : Type} (f : τ → υ) (g : υ → φ) (e : Entity τ) :
    (e.map f).map g = e.map (g ∘ f) := by
  simp [map]

theorem whole?_eq_some_iff {d : Draft} {e : Entity} : Entity.whole? d = some e ↔ d = e.draft := by
  unfold whole? 
  constructor
  · intro h
    split at h
    · rename_i hwhole
      obtain rfl := Option.some.inj h
      rw [draft, map_map, map_eq_self]
      intro t ht
      cases t with
      | whole s => rfl
      | broken points => exact absurd (List.all_eq_true.mp hwhole _ ht) Bool.false_ne_true
    · cases h
  · rintro rfl
    have hwhole : e.draft.texts.all (·.whole?.isSome) = true := by
      rw [draft, texts_map, List.all_map, List.all_eq_true]
      exact fun _ _ => rfl
    rw [if_pos hwhole, draft, map_map, map_eq_self]
    exact fun _ _ => rfl

@[simp] theorem whole?_draft (e : Entity) : Entity.whole? e.draft = some e :=
  whole?_eq_some_iff.mpr rfl

theorem draft_inj {a b : Entity} : a.draft = b.draft ↔ a = b :=
  ⟨fun h => Option.some.inj ((whole?_draft a).symm.trans (h ▸ whole?_draft b)), congrArg _⟩

theorem toValue_draft (e : Entity) : e.draft.toValue = e.toValue := by
  simp only [toValue, toMembers, draft, map, List.map_map]
  cases e.signature <;> cases e.doc <;> cases e.spec <;> cases e.rawText <;> rfl

end Entity

section

variable {τ υ : Type} [DecidableEq τ] [DecidableEq υ] {f : τ → υ} (hf : Function.Injective f)
include hf

theorem Entity.map_join (a b : Entity τ) : (a.join b).map f = (a.map f).join (b.map f) := by
  have hreferences : (Text.distinct (a.references ++ b.references)).map f =
      Text.distinct (a.references.map f ++ b.references.map f) := by
    rw [← List.map_append, Text.map_distinct hf]
  unfold join
  by_cases h : a.startLine ≤ b.startLine
  · rw [if_pos h, if_pos (show (a.map f).startLine ≤ (b.map f).startLine from h)]
    simp only [map, hreferences]
  · rw [if_neg h, if_neg (show ¬ (a.map f).startLine ≤ (b.map f).startLine from h)]
    simp only [map, hreferences]

theorem map_addClause (merged : List (Entity τ)) (e : Entity τ) :
    (addClause merged e).map (Entity.map f) = addClause (merged.map (Entity.map f)) (e.map f) := by
  induction merged with
  | nil => rfl
  | cons m rest ih =>
    have hid : (m.map f).id = (e.map f).id ↔ m.id = e.id := hf.eq_iff
    rw [addClause, List.map_cons, addClause]
    by_cases h : m.id = e.id
    · rw [if_pos (beq_iff_eq.mpr h), if_pos (beq_iff_eq.mpr (hid.mpr h)), List.map_cons,
        Entity.map_join hf]
    · rw [if_neg (by simpa using h), if_neg (by simpa [hid] using h), List.map_cons, ih]

/-- Merging does not look into texts. -/
theorem map_mergeClauses (entities : List (Entity τ)) :
    (mergeClauses entities).map (Entity.map f) = mergeClauses (entities.map (Entity.map f)) := by
  unfold mergeClauses
  suffices h : ∀ merged : List (Entity τ), (entities.foldl addClause merged).map (Entity.map f) =
      (entities.map (Entity.map f)).foldl addClause (merged.map (Entity.map f)) from h []
  induction entities with
  | nil => exact fun merged => rfl
  | cons e rest ih =>
    intro merged
    rw [List.foldl_cons, ih, map_addClause hf, List.map_cons, List.foldl_cons]

end

theorem draft_mergeClauses (entities : List Entity) :
    (mergeClauses entities).map Entity.draft = mergeClauses (entities.map Entity.draft) :=
  map_mergeClauses (fun _ _ => Writing.whole.inj) entities

/-! ## Joined clauses -/

variable {τ : Type} [DecidableEq τ]

/-- A joined clause is named and placed as one of its parts. -/
theorem Entity.join_place (a b : Entity τ) :
    ((a.join b).id = a.id ∧ (a.join b).path = a.path) ∨
      ((a.join b).id = b.id ∧ (a.join b).path = b.path) := by
  unfold Entity.join
  by_cases h : a.startLine ≤ b.startLine
  · rw [if_pos h]; exact .inl ⟨rfl, rfl⟩
  · rw [if_neg h]; exact .inr ⟨rfl, rfl⟩

theorem Entity.join_id {a b : Entity τ} (h : a.id = b.id) : (a.join b).id = a.id := by
  rcases a.join_place b with h' | h'
  · exact h'.1
  · exact h'.1.trans h.symm

theorem Entity.join_path {a b : Entity τ} (h : a.path = b.path) : (a.join b).path = a.path := by
  rcases a.join_place b with h' | h'
  · exact h'.2
  · exact h'.2.trans h.symm

/-- What holds of all clauses and of joined ones holds of all that is left after adding a clause. -/
theorem forall_mem_addClause {P : Entity τ → Prop} (hjoin : ∀ a b, P a → P b → P (a.join b))
    {merged : List (Entity τ)} {e : Entity τ} (h : ∀ m ∈ merged, P m) (he : P e) :
    ∀ m ∈ addClause merged e, P m := by
  induction merged with
  | nil =>
    intro m hm
    rw [addClause, List.mem_singleton] at hm
    exact hm ▸ he
  | cons m rest ih =>
    have hrest : ∀ x ∈ rest, P x := fun x hx => h x (List.mem_cons_of_mem m hx)
    have hm : P m := h m List.mem_cons_self
    rw [addClause]
    split
    · exact List.forall_mem_cons.mpr ⟨hjoin m e hm he, hrest⟩
    · exact List.forall_mem_cons.mpr ⟨hm, ih hrest⟩

theorem forall_mem_mergeClauses {P : Entity τ → Prop} (hjoin : ∀ a b, P a → P b → P (a.join b))
    {entities : List (Entity τ)} (h : ∀ e ∈ entities, P e) : ∀ m ∈ mergeClauses entities, P m := by
  unfold mergeClauses
  suffices hfold : ∀ merged : List (Entity τ), (∀ m ∈ merged, P m) →
      ∀ m ∈ entities.foldl addClause merged, P m from hfold [] (by simp)
  induction entities with
  | nil => exact fun merged hm => hm
  | cons e rest ih =>
    intro merged hm
    rw [List.foldl_cons]
    exact ih (fun x hx => h x (List.mem_cons_of_mem e hx)) _
      (forall_mem_addClause hjoin hm (h e List.mem_cons_self))

/-- A merged entity is named and placed as one of the records it comes from. -/
theorem exists_of_mem_mergeClauses {entities : List (Entity τ)} {m : Entity τ}
    (hm : m ∈ mergeClauses entities) : ∃ e ∈ entities, e.id = m.id ∧ e.path = m.path := by
  refine forall_mem_mergeClauses (P := fun m => ∃ e ∈ entities, e.id = m.id ∧ e.path = m.path)
    ?_ (fun e he => ⟨e, he, rfl, rfl⟩) m hm
  rintro a b ⟨x, hx, hxi, hxp⟩ ⟨y, hy, hyi, hyp⟩
  rcases a.join_place b with h | h
  · exact ⟨x, hx, hxi.trans h.1.symm, hxp.trans h.2.symm⟩
  · exact ⟨y, hy, hyi.trans h.1.symm, hyp.trans h.2.symm⟩

/-! ## Identities -/

theorem map_id_addClause (merged : List (Entity τ)) (e : Entity τ) :
    (addClause merged e).map Entity.id =
      if (merged.map Entity.id).contains e.id then merged.map Entity.id
      else merged.map Entity.id ++ [e.id] := by
  induction merged with
  | nil => rfl
  | cons m rest ih =>
    rw [addClause]
    by_cases h : m.id = e.id
    · rw [if_pos (beq_iff_eq.mpr h), if_pos (by simp [h]), List.map_cons, List.map_cons,
        Entity.join_id h]
    · rw [if_neg (by simpa using h), List.map_cons, ih, List.map_cons, List.contains_cons,
        beq_eq_false_iff_ne.mpr (Ne.symm h), Bool.false_or]
      split <;> rfl

/-- The identities after merging are those before it, each once. -/
theorem map_id_mergeClauses (entities : List (Entity τ)) :
    (mergeClauses entities).map Entity.id = Text.distinct (entities.map Entity.id) := by
  unfold mergeClauses Text.distinct
  suffices h : ∀ merged : List (Entity τ), (entities.foldl addClause merged).map Entity.id =
      (entities.map Entity.id).foldl
        (fun seen x => if seen.contains x then seen else seen ++ [x]) (merged.map Entity.id) from
    h []
  induction entities with
  | nil => exact fun merged => rfl
  | cons e rest ih =>
    intro merged
    rw [List.foldl_cons, ih, map_id_addClause, List.map_cons, List.foldl_cons]

theorem nodup_map_id_mergeClauses (entities : List (Entity τ)) :
    ((mergeClauses entities).map Entity.id).Nodup := by
  rw [map_id_mergeClauses]
  exact Text.nodup_distinct _

theorem mergeClauses_ne_nil {entities : List (Entity τ)} (h : entities ≠ []) :
    mergeClauses entities ≠ [] := by
  obtain ⟨e, he⟩ := List.exists_mem_of_ne_nil entities h
  have hid : e.id ∈ (mergeClauses entities).map Entity.id := by
    rw [map_id_mergeClauses, Text.mem_distinct]
    exact List.mem_map_of_mem he
  intro hnil
  rw [hnil] at hid
  cases hid

theorem addClause_of_not_mem {merged : List (Entity τ)} {e : Entity τ} (h : e.id ∉ merged.map Entity.id) :
    addClause merged e = merged ++ [e] := by
  induction merged with
  | nil => rfl
  | cons m rest ih =>
    rw [List.map_cons, List.mem_cons, not_or] at h
    rw [addClause, if_neg (by simpa using Ne.symm h.1), ih h.2, List.cons_append]

/-- Entities of distinct identities are merged already. -/
theorem mergeClauses_of_nodup {entities : List (Entity τ)} (h : (entities.map Entity.id).Nodup) :
    mergeClauses entities = entities := by
  unfold mergeClauses
  suffices hfold : ∀ merged : List (Entity τ), ((merged ++ entities).map Entity.id).Nodup →
      entities.foldl addClause merged = merged ++ entities from hfold [] h
  clear h
  induction entities with
  | nil => exact fun merged _ => (List.append_nil merged).symm
  | cons e rest ih =>
    intro merged h
    have hnew : e.id ∉ merged.map Entity.id := by
      rw [List.map_append, List.nodup_append'] at h
      exact fun hold => h.2.2 hold List.mem_cons_self
    have hcons : merged ++ e :: rest = merged ++ [e] ++ rest := by
      rw [List.append_assoc, List.singleton_append]
    rw [hcons] at h
    rw [List.foldl_cons, addClause_of_not_mem hnew, ih _ h, hcons]

/-! ## One file of a batch -/

/-- A clause is added within its own path. -/
theorem filter_path_addClause {merged : List (Entity τ)} {e : Entity τ}
    (h : ∀ m ∈ merged, m.id = e.id → m.path = e.path) (path : τ) :
    (addClause merged e).filter (·.path == path) =
      if e.path = path then addClause (merged.filter (·.path == path)) e
      else merged.filter (·.path == path) := by
  induction merged with
  | nil =>
    rw [addClause, List.filter_nil, addClause]
    by_cases hp : e.path = path
    · rw [if_pos hp, List.filter_cons_of_pos (by simpa using hp), List.filter_nil]
    · rw [if_neg hp, List.filter_cons_of_neg (by simpa using hp), List.filter_nil]
  | cons m rest ih =>
    have hm := h m List.mem_cons_self
    have ih := ih fun x hx => h x (List.mem_cons_of_mem m hx)
    rw [addClause]
    by_cases hid : m.id = e.id
    · -- the clause joins the first entity, which lives in the clause's file
      have hmp := hm hid
      rw [if_pos (beq_iff_eq.mpr hid)]
      by_cases hp : e.path = path
      · rw [List.filter_cons_of_pos (by simpa [Entity.join_path hmp, hmp] using hp),
          List.filter_cons_of_pos (by simpa [hmp] using hp), if_pos hp, addClause,
          if_pos (beq_iff_eq.mpr hid)]
      · rw [List.filter_cons_of_neg (by simpa [Entity.join_path hmp, hmp] using hp),
          List.filter_cons_of_neg (by simpa [hmp] using hp), if_neg hp]
    · rw [if_neg (by simpa using hid)]
      by_cases hmp : m.path = path
      · rw [List.filter_cons_of_pos (by simpa using hmp),
          List.filter_cons_of_pos (by simpa using hmp), ih]
        split
        · rw [addClause, if_neg (by simpa using hid)]
        · rfl
      · rw [List.filter_cons_of_neg (by simpa using hmp),
          List.filter_cons_of_neg (by simpa using hmp), ih]

/-- Records in which one identity never occurs under two paths. -/
def PlacedById (entities : List (Entity τ)) : Prop :=
  ∀ a ∈ entities, ∀ b ∈ entities, a.id = b.id → a.path = b.path

/-- Merging clauses and picking those of a path can change places, where an identity belongs to one path.
-/
theorem filter_path_mergeClauses {entities : List (Entity τ)} (h : PlacedById entities) (path : τ) :
    (mergeClauses entities).filter (·.path == path) =
      mergeClauses (entities.filter (·.path == path)) := by
  unfold mergeClauses
  -- the entities merged so far are placed as the records they come from
  suffices hfold : ∀ merged : List (Entity τ),
      (∀ m ∈ merged, ∀ e ∈ entities, m.id = e.id → m.path = e.path) →
        (entities.foldl addClause merged).filter (·.path == path) =
          (entities.filter (·.path == path)).foldl addClause (merged.filter (·.path == path)) from
    hfold [] (by simp)
  induction entities with
  | nil => exact fun merged _ => rfl
  | cons e rest ih =>
    intro merged hmerged
    have hrest : PlacedById rest := fun a ha b hb =>
      h a (List.mem_cons_of_mem e ha) b (List.mem_cons_of_mem e hb)
    have hnext : ∀ m ∈ addClause merged e, ∀ x ∈ rest, m.id = x.id → m.path = x.path := by
      refine forall_mem_addClause (P := fun m => ∀ x ∈ rest, m.id = x.id → m.path = x.path) ?_
        (fun m hm x hx => hmerged m hm x (List.mem_cons_of_mem e hx))
        (fun x hx => h e List.mem_cons_self x (List.mem_cons_of_mem e hx))
      intro a b ha hb x hx hid
      rcases a.join_place b with hj | hj
      · exact hj.2.trans (ha x hx (hj.1.symm.trans hid))
      · exact hj.2.trans (hb x hx (hj.1.symm.trans hid))
    rw [List.foldl_cons, ih hrest _ hnext,
      filter_path_addClause fun m hm => hmerged m hm e List.mem_cons_self]
    by_cases hp : e.path = path
    · rw [if_pos hp, List.filter_cons_of_pos (by simpa using hp), List.foldl_cons]
    · rw [if_neg hp, List.filter_cons_of_neg (by simpa using hp)]

end CodeIndex
