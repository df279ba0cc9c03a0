import CodeIndex.Proofs.Path
import CodeIndex.Proofs.Workspace.Action
import CodeIndex.Workspace.Extraction

/-!
# An update never purges files for want of output

Extraction runs the extractor and reads files.  It writes the log, and nothing else of the workspace
changes.  An extractor that is run for files answers with entities, or the extraction fails.  So an
update of source files that exist either fails and leaves the store as it was, or puts new entities in
place of the old ones.  Without an extractor the old entities go and nothing takes their place.
-/

namespace CodeIndex.Workspace

variable {α β : Type}

/-! ## Steps that change neither files nor store -/

/-- Two workspaces that differ in the programs that were run and in the log at most. -/
def Ran (w w' : Workspace) : Prop :=
  ∃ calls logged, w' = { w with calls, logged }

/-- A step that runs programs and writes the log, and does nothing else. -/
def OnlyRuns (act : Action α) : Prop :=
  ∀ w, Ran w (act.on w).2

theorem Ran.refl (w : Workspace) : Ran w w := ⟨w.calls, w.logged, rfl⟩

theorem Ran.trans {w w' w'' : Workspace} (h : Ran w w') (h' : Ran w' w'') : Ran w w'' := by
  obtain ⟨c, l, rfl⟩ := h
  obtain ⟨c', l', rfl⟩ := h'
  exact ⟨c', l', rfl⟩

theorem Ran.disk {w w' : Workspace} (h : Ran w w') : w'.store.disk = w.store.disk := by
  obtain ⟨c, l, rfl⟩ := h
  rfl

namespace OnlyRuns

theorem pure (a : α) : OnlyRuns (Pure.pure a : Action α) := Ran.refl

theorem throw (t : Trouble) : OnlyRuns (MonadExcept.throw t : Action α) := Ran.refl

theorem get : OnlyRuns (MonadState.get : Action Workspace) := Ran.refl

theorem logging (f : Workspace → List Log.Event) :
    OnlyRuns (modify fun w => { w with logged := f w } : Action PUnit) :=
  fun w => ⟨w.calls, f w, rfl⟩

theorem bind {act : Action α} {f : α → Action β} (h : OnlyRuns act) (hf : ∀ a, OnlyRuns (f a)) :
    OnlyRuns (act >>= f) := by
  intro w
  have hw := h w
  rw [on_bind]
  rcases hact : act.on w with ⟨_ | a, w₁⟩
  · rwa [hact] at hw
  · rw [hact] at hw
    exact hw.trans (hf a w₁)

/-- What follows an early end is not done. -/
theorem throw_bind (t : Trouble) (f : α → Action β) :
    OnlyRuns ((MonadExcept.throw t : Action α) >>= f) := by
  intro w
  rw [on_bind]
  exact .refl w

theorem forIn {γ : Type} {f : γ → β → Action (ForInStep β)} (h : ∀ x b, OnlyRuns (f x b))
    (items : List γ) (b : β) : OnlyRuns (ForIn.forIn items b f) := by
  induction items generalizing b with
  | nil => exact pure b
  | cons x rest ih =>
    rw [List.forIn_cons]
    refine (h x b).bind fun step => ?_
    cases step with
    | done b => exact pure b
    | yield b => exact ih b

theorem mapM {γ : Type} {f : γ → Action β} (h : ∀ x, OnlyRuns (f x)) (items : List γ) :
    OnlyRuns (items.mapM f) := by
  induction items with
  | nil => exact pure []
  | cons x rest ih =>
    rw [List.mapM_cons]
    exact (h x).bind fun _ => ih.bind fun _ => pure _

end OnlyRuns

/-! ## The extractor -/

theorem onlyRuns_runAt (p : Path) (name : String) (arguments : List String) :
    OnlyRuns (runAt p name arguments) := by
  unfold runAt
  dsimp only
  split
  · exact .throw_bind _ _
  · intro w
    simp only [on_bind, on_get]
    split
    · exact .refl w
    · rename_i program _
      rw [on_bind, on_set]
      cases program.behaviour <;> exact ⟨(p, arguments) :: w.calls, w.logged, rfl⟩

theorem onlyRuns_startExtractor (command : List String) : OnlyRuns (startExtractor command) := by
  refine OnlyRuns.get.bind fun w => ?_
  dsimp only
  split
  · exact .pure _
  · exact onlyRuns_runAt _ _ _

theorem onlyRuns_entitiesOfAnswer (command : List String) (needed : Bool) (output : String) :
    OnlyRuns (entitiesOfAnswer command needed output) := by
  refine OnlyRuns.get.bind fun w => ?_
  refine OnlyRuns.bind (.forIn (fun m _ => (OnlyRuns.logging _).bind fun _ => .pure _) _ _)
    fun _ => ?_
  dsimp only
  split
  · exact .throw_bind _ _
  · split
    · exact .throw_bind _ _
    · exact (OnlyRuns.logging _).bind fun _ => .pure _

theorem onlyRuns_runExtractor (command : List String) (needed : Bool) :
    OnlyRuns (runExtractor command needed) := by
  refine OnlyRuns.get.bind fun w => ?_
  dsimp only
  split
  · exact (OnlyRuns.logging _).bind fun _ => .pure _
  · refine (onlyRuns_startExtractor command).bind fun outcome => ?_
    cases outcome with
    | notFound => exact .throw _
    | notStarted reason => exact .throw _
    | timedOut => exact .throw _
    | exited code output errors =>
      dsimp only
      split
      · exact .throw _
      · exact onlyRuns_entitiesOfAnswer _ _ _

theorem onlyRuns_extractSources (paths : List String) : OnlyRuns (extractSources paths) := by
  unfold extractSources
  dsimp only
  split
  · exact .pure _
  · exact OnlyRuns.get.bind fun w => onlyRuns_runExtractor _ _

theorem onlyRuns_extractTemplate (path : String) : OnlyRuns (extractTemplate path) := by
  refine OnlyRuns.get.bind fun w => ?_
  dsimp only
  split <;> exact .pure _

/-- Extraction leaves the files and the store alone. -/
theorem onlyRuns_extract (paths : List String) : OnlyRuns (extract paths) :=
  OnlyRuns.get.bind fun _ => (onlyRuns_extractSources _).bind fun _ =>
    (OnlyRuns.mapM onlyRuns_extractTemplate _).bind fun _ => .pure _

/-! ## Files that exist -/

theorem ne_nil_of_entitiesOfAnswer {command : List String} {output : String} {w w' : Workspace}
    {drafts : List Draft}
    (h : (entitiesOfAnswer command true output).on w = (.ok drafts, w')) : drafts ≠ [] := by
  unfold entitiesOfAnswer at h
  rw [on_bind, on_get] at h
  obtain ⟨_, w₁, -, h⟩ := on_bind_ok h
  dsimp only at h
  split at h
  · rw [on_bind] at h
    cases (Prod.mk.inj h).1
  · split at h
    · rw [on_bind] at h
      cases (Prod.mk.inj h).1
    · -- the answer is needed, so that an empty batch would have failed just before
      rename_i hsome
      rw [on_bind, on_log] at h
      obtain ⟨hdrafts, -⟩ := Prod.mk.inj h
      injection hdrafts with hdrafts
      rintro rfl
      simp [hdrafts] at hsome

/-- An extractor that has to give records gives some, or it fails. -/
theorem ne_nil_of_runExtractor {command : List String} {w w' : Workspace} {drafts : List Draft}
    (hcommand : w.settings.extractor.command ≠ [])
    (h : (runExtractor command true).on w = (.ok drafts, w')) : drafts ≠ [] := by
  unfold runExtractor at h
  rw [on_bind, on_get] at h
  dsimp only at h
  rw [if_neg (by simpa using hcommand)] at h
  obtain ⟨outcome, w₁, -, h⟩ := on_bind_ok h
  cases outcome with
  | notFound => cases (Prod.mk.inj h).1
  | notStarted reason => cases (Prod.mk.inj h).1
  | timedOut => cases (Prod.mk.inj h).1
  | exited code output errors =>
    dsimp only at h
    split at h
    · cases (Prod.mk.inj h).1
    · exact ne_nil_of_entitiesOfAnswer h

theorem ne_nil_of_extractSources {paths : List String} {w w' : Workspace} {drafts : List Draft}
    (hcommand : w.settings.extractor.command ≠ []) (hpaths : paths ≠ [])
    (h : (extractSources paths).on w = (.ok drafts, w')) : drafts ≠ [] := by
  unfold extractSources at h
  dsimp only at h
  rw [if_neg (by simpa using hpaths), on_bind, on_get] at h
  exact ne_nil_of_runExtractor hcommand h

/-- The extractor keys a path as the scheduler does. -/
theorem relative_eq_key (root : Path) : relative root = Path.key root := by
  funext path
  unfold relative Path.key
  dsimp only
  cases Path.below? root (Path.ofString path) <;> rfl

def keysOf (w : Workspace) (paths : List String) : List String :=
  sortedDistinct (paths.map (Path.key w.root))

theorem mem_keysOf {w : Workspace} {paths : List String} {key : String} :
    key ∈ w.keysOf paths ↔ ∃ p ∈ paths, Path.key w.root p = key := by
  rw [keysOf, sortedDistinct, List.mem_mergeSort, Text.mem_distinct, List.mem_map]

/-- An update keys its paths before it extracts them, and extraction keys them once more. -/
theorem map_key_of_mem_keysOf {w : Workspace} {paths keys : List String}
    (h : ∀ key ∈ keys, key ∈ w.keysOf paths) : keys.map (Path.key w.root) = keys := by
  conv_rhs => rw [← List.map_id keys]
  apply List.map_congr_left
  intro key hkey
  obtain ⟨p, -, rfl⟩ := mem_keysOf.mp (h key hkey)
  exact Path.key_key w.root p

/-- Whether a key leads to a source file that is no template. -/
def isSource (w : Workspace) (key : String) : Bool :=
  w.isFile key && !w.settings.index.isTemplate key && w.settings.index.isSource key

theorem isSource_iff {w : Workspace} {key : String} :
    w.isSource key = true ↔ w.isFile key = true ∧
      w.settings.index.isTemplate key = false ∧ w.settings.index.isSource key = true := by
  simp [isSource, and_assoc]

/-- A command that is run for named source files and succeeds has given some record. -/
theorem ne_nil_of_extract {w w' : Workspace} {paths : List String} {drafts : List Draft}
    (hcommand : w.settings.extractor.command ≠ []) (hpaths : paths ≠ [])
    (hsources : ∀ p ∈ paths, w.isSource (Path.key w.root p) = true)
    (h : (extract (w.keysOf paths)).on w = (.ok drafts, w')) : drafts ≠ [] := by
  have hkeys : ∀ key ∈ w.keysOf paths, w.isFile key = true ∧
      w.settings.index.isTemplate key = false ∧ w.settings.index.isSource key = true := by
    intro key hkey
    obtain ⟨p, hp, rfl⟩ := mem_keysOf.mp hkey
    exact isSource_iff.mp (hsources p hp)
  have hne : w.keysOf paths ≠ [] := by
    obtain ⟨p, hp⟩ := List.exists_mem_of_ne_nil paths hpaths
    exact List.ne_nil_of_mem (mem_keysOf.mpr ⟨p, hp, rfl⟩)
  unfold extract at h
  rw [on_bind, on_get] at h
  dsimp only at h
  -- all keys are sources that are there: none is dropped, and none goes to the templates
  rw [relative_eq_key, map_key_of_mem_keysOf fun _ h => h,
    List.filter_eq_self.mpr fun key hkey => (hkeys key hkey).1,
    List.filter_eq_self.mpr fun key hkey => by
      rw [(hkeys key hkey).2.1, (hkeys key hkey).2.2]; rfl] at h
  obtain ⟨sources, w₁, hrun, h⟩ := on_bind_ok h
  obtain ⟨templates, w₂, -, h⟩ := on_bind_ok h
  injection (Prod.mk.inj h).1 with hdrafts
  rw [← hdrafts]
  exact List.append_ne_nil_of_left_ne_nil (ne_nil_of_extractSources hcommand hne hrun) _

/-- What an update fails with: trouble with the extraction, or with the merge of what it gave. -/
def Fails (w : Workspace) (paths : List String) (e : Trouble) : Prop :=
  ((extract ((w.keysOf paths).filter w.isFile)).on w).1 = .error e ∨
    ∃ drafts w₁, (extract ((w.keysOf paths).filter w.isFile)).on w = (.ok drafts, w₁) ∧
      ((Store.merge (drafts.map .draft) ((w.keysOf paths).map .whole)).on w₁.store).1 = .error e

theorem on_update (w : Workspace) (paths : List String) :
    (update paths).on w =
      (extract ((w.keysOf paths).filter w.isFile) >>= fun drafts => do
        let count ← onStore (Store.merge (drafts.map .draft) ((w.keysOf paths).map .whole))
        log .info "pipeline_update_done"
          [("entities", .nat count), ("paths", .nat (w.keysOf paths).length)]
        return { isFull := false, entities := count, paths := (w.keysOf paths).length }).on w := by
  unfold update
  rw [on_bind, on_get, keysOf, ← relative_eq_key]

/-- On a store that was built, an update fails, and files and store are as they were, or it puts what
the extraction gave in place of what the store held for the keys. -/
theorem update_cases {w : Workspace} {t : Store.Tables} (hstore : w.store.disk.tables? = some t)
    (paths : List String) :
    (∃ e w', (update paths).on w = (.error e, w') ∧ Ran w w' ∧ w.Fails paths e) ∨
      ∃ drafts r w', ((extract ((w.keysOf paths).filter w.isFile)).on w).1 = .ok drafts ∧
        (update paths).on w = (.ok r, w') ∧ r.entities = (mergeClauses drafts).length ∧
        w'.store.disk.tables? =
          some (Store.applied t (.merge (drafts.map .draft) ((w.keysOf paths).map .whole))) := by
  have hran := onlyRuns_extract ((w.keysOf paths).filter w.isFile) w
  rw [on_update, on_bind]
  rcases hextract : (extract ((w.keysOf paths).filter w.isFile)).on w with ⟨e | drafts, w₁⟩
  · rw [hextract] at hran
    exact .inl ⟨e, w₁, rfl, hran, .inl (by rw [hextract])⟩
  rw [hextract] at hran
  -- the extraction left the store alone, so that the merge meets the tables of the start
  have hstore₁ : w₁.store.disk.tables? = some t := by rw [hran.disk, hstore]
  dsimp only
  rw [on_bind, on_onStore]
  obtain ⟨n, u, s, hon, hwrote, heffect⟩ | ⟨e, s, hon, hkept⟩ :=
    Store.change_cases (.merge (drafts.map .draft) ((w.keysOf paths).map .whole)) w₁.store
  all_goals
    change (Store.merge _ _).on w₁.store = _ at hon
    rw [hon]
  · right
    dsimp only
    rw [on_bind, on_log]
    refine ⟨drafts, _, _, rfl, rfl, ?_, ?_⟩
    · change n = _
      rw [heffect.count_of_merge, Store.draftsIn_drafts]
    · change (w₁.withStore s).store.disk.tables? = _
      obtain ⟨logged, rfl⟩ := hwrote
      rw [disk_withStore hstore₁ rfl, heffect.eq_applied, hstore₁]
      rfl
  · -- the store kept its tables, and so its file is as it was
    left
    refine ⟨e, _, rfl, hran.trans ?_, .inr ⟨drafts, w₁, hextract, by rw [hon]⟩⟩
    rw [withStore_of_disk hstore₁ (hkept.tables?.trans hstore₁)]
    exact ⟨w₁.calls, s.logged, rfl⟩

/-- On a store that was built, an update of source files that are there, with an extractor to run, ends
in one of two ways.  It fails, and files and store are as they were; or the extraction gave entities,
and these stand in place of what the store held for the files. -/
theorem replaced_of_update {w : Workspace} {t : Store.Tables}
    (hstore : w.store.disk.tables? = some t) (hcommand : w.settings.extractor.command ≠ [])
    {paths : List String} (hpaths : paths ≠ [])
    (hsources : ∀ p ∈ paths, w.isSource (Path.key w.root p) = true) :
    (∃ e w', (update paths).on w = (.error e, w') ∧ Ran w w' ∧ w.Fails paths e) ∨
      ∃ drafts r w', ((extract (w.keysOf paths)).on w).1 = .ok drafts ∧ drafts ≠ [] ∧
        (update paths).on w = (.ok r, w') ∧ 0 < r.entities ∧
        w'.store.disk.tables? =
          some (Store.applied t (.merge (drafts.map .draft) ((w.keysOf paths).map .whole))) := by
  have hfiles : (w.keysOf paths).filter w.isFile = w.keysOf paths := by
    rw [List.filter_eq_self]
    intro key hkey
    obtain ⟨p, hp, rfl⟩ := mem_keysOf.mp hkey
    exact (isSource_iff.mp (hsources p hp)).1
  obtain hfails | ⟨drafts, r, w', hextract, hupdate, hcount, htables⟩ := update_cases hstore paths
  · exact .inl hfails
  rw [hfiles] at hextract
  have hne : drafts ≠ [] := ne_nil_of_extract hcommand hpaths hsources (Prod.ext hextract rfl)
  refine .inr ⟨drafts, r, w', hextract, hne, hupdate, ?_, htables⟩
  rw [hcount]
  exact List.length_pos_of_ne_nil (mergeClauses_ne_nil hne)

/-- A project with one source file, of which the store has an entity, and an extractor that says nothing
and exits well. -/
def silentProject : Workspace :=
  let e : Entity := { id := "x", container := "A", name := "f", arity := 1, path := "lib/a.ex"
                      startLine := 1, endLine := 2, lexicalText := "" }
  let stored : Content := .database (.ofTables (Store.Tables.insert {} [e]))
  { tree := .dir [("p", .dir [("lib", .dir [("a.ex", .ofText "defmodule A do")]),
      ("extract", .file (.bytes []) true),
      (".contextdex", .dir [("index.db", .file stored false)])])]
    root := Path.ofString "/p"
    home := { own := Path.ofString "/" }
    settings := { extractor := { command := ["./extract"] } }
    programs := [{ path := Path.ofString "/p/extract" }] }

theorem replaced_of_silent :
    ∃ e w', (update ["lib/a.ex", "/p/lib/a.ex"]).on silentProject = (.error e, w') ∧
      Ran silentProject w' ∧ silentProject.Fails ["lib/a.ex", "/p/lib/a.ex"] e := by
  have hfailed : ((extract (silentProject.keysOf ["lib/a.ex", "/p/lib/a.ex"])).on
      silentProject).1.toOption = none := by decide +kernel
  have hsources : ∀ p ∈ ["lib/a.ex", "/p/lib/a.ex"],
      silentProject.isSource (Path.key silentProject.root p) = true := by decide +kernel
  obtain h | ⟨drafts, r, w', hextract, -⟩ :=
    replaced_of_update rfl (List.cons_ne_nil _ _) (List.cons_ne_nil _ _) hsources
  · exact h
  · rw [hextract] at hfailed
    cases hfailed

/-- Without an extractor the file's entities go and none takes their place. -/
theorem purged_of_disabled :
    let w := { silentProject with settings := {} }
    w.isSource "lib/a.ex" = true ∧ w.store.disk.tables? ≠ some {} ∧
      ((update ["lib/a.ex"]).on w).1.toOption.map Refresh.entities = some 0 ∧
      ((update ["lib/a.ex"]).on w).2.store.disk.tables? = some {} := by
  decide +kernel

end CodeIndex.Workspace
