import CodeIndex.Proofs.FileTree.Placing
import CodeIndex.Proofs.Store.Refresh
import CodeIndex.Proofs.Workspace.Extraction

/-!
# Updating files that did not change

Without an extractor the index of a project is that of its templates.  A full scan takes those that a walk
meets; an update takes whatever template file its paths lead to.  After a rebuild, an update of files that
did not change leaves the index as it is, therefore, as long as its paths lead to no template that a walk
does not meet: one in an excluded directory, behind a link or outside the project.
-/

namespace CodeIndex.Workspace

/-! ## Templates -/

def entitiesAt (w : Workspace) (key : String) : List Entity :=
  let bytes := (w.tree.read? (w.root.under (Path.ofString key))).getD []
  let s := w.settings.index
  match Template.entity key (Text.withLineFeeds (Text.ofBytes bytes)) s.primarySourceDirs
      s.templateExtensions with
  | .ok e => [e]
  | .faults _ => []

def templates (w : Workspace) : List String :=
  w.walk.filter w.settings.index.isTemplate

def scanned (w : Workspace) : List Entity :=
  w.templates.flatMap w.entitiesAt

theorem path_of_mem_entitiesAt {w : Workspace} {key : String} {e : Entity}
    (he : e ∈ w.entitiesAt key) : e.path = key := by
  unfold entitiesAt at he
  dsimp only at he
  split at he
  · rename_i x hx
    obtain rfl := List.mem_singleton.mp he
    unfold Template.entity at hx
    split at hx
    · cases hx
    · injection hx with hx
      rw [← hx]
  · cases he

theorem on_extractTemplate (key : String) (w : Workspace) :
    (extractTemplate key).on w = (.ok ((w.entitiesAt key).map Entity.draft), w) := by
  unfold extractTemplate entitiesAt
  rw [on_bind, on_get]
  dsimp only
  generalize Template.entity key _ _ _ = checked
  cases checked <;> rfl

theorem on_mapM_extractTemplate (keys : List String) (w : Workspace) :
    (keys.mapM extractTemplate).on w =
      (.ok (keys.map fun key => (w.entitiesAt key).map Entity.draft), w) := by
  induction keys with
  | nil => rfl
  | cons key rest ih =>
    rw [List.mapM_cons, on_bind, on_extractTemplate]
    dsimp only
    rw [on_bind, ih]
    rfl

/-! ## Without an extractor -/

theorem on_runExtractor_of_disabled {w : Workspace} (h : w.settings.extractor.command = [])
    (command : List String) (needed : Bool) :
    ∃ logged, (runExtractor command needed).on w = (.ok [], { w with logged }) := by
  refine ⟨{ level := .debug, name := "extractor_disabled", members := [] } :: w.logged, ?_⟩
  unfold runExtractor
  rw [on_bind, on_get]
  dsimp only
  rw [h, List.isEmpty_nil, if_pos rfl, on_bind, on_log]
  rfl

theorem on_extractAll_of_disabled {w : Workspace} (h : w.settings.extractor.command = []) :
    ∃ logged, extractAll.on w = (.ok (w.scanned.map Entity.draft), { w with logged }) := by
  obtain ⟨logged, hrun⟩ := on_runExtractor_of_disabled h w.settings.extractor.command
    (w.walk.any w.settings.index.isSource)
  refine ⟨logged, ?_⟩
  unfold extractAll
  rw [on_bind, on_get]
  dsimp only
  rw [on_bind, hrun]
  dsimp only
  rw [on_bind, on_mapM_extractTemplate, scanned, List.map_flatMap, List.flatMap_def]
  rfl

def updated (w : Workspace) (paths : List String) : List String :=
  ((w.keysOf paths).filter w.isFile).filter w.settings.index.isTemplate

/-- Without a command only templates are extracted, each to its one entity. -/
theorem extract_of_disabled {w : Workspace} (h : w.settings.extractor.command = [])
    (paths : List String) :
    ∃ logged, (extract ((w.keysOf paths).filter w.isFile)).on w =
      (.ok (((w.updated paths).flatMap w.entitiesAt).map Entity.draft), { w with logged }) := by
  have hsources : ∀ keys, ∃ logged, (extractSources keys).on w = (.ok [], { w with logged }) := by
    intro keys
    unfold extractSources
    dsimp only
    split
    · exact ⟨w.logged, rfl⟩
    · rw [on_bind, on_get]
      exact on_runExtractor_of_disabled h _ _
  unfold extract
  rw [on_bind, on_get]
  dsimp only
  -- extraction keys and filters what the update has keyed and filtered already
  rw [relative_eq_key, map_key_of_mem_keysOf fun _ hkey => (List.mem_filter.mp hkey).1,
    List.filter_eq_self.mpr fun _ hkey => (List.mem_filter.mp hkey).2]
  obtain ⟨logged, hrun⟩ := hsources (((w.keysOf paths).filter w.isFile).filter fun key =>
    !w.settings.index.isTemplate key && w.settings.index.isSource key)
  refine ⟨logged, ?_⟩
  rw [on_bind, hrun]
  dsimp only
  rw [on_bind, on_mapM_extractTemplate, updated, List.map_flatMap, List.flatMap_def]
  rfl

/-! ## What a rebuild leaves -/

/-- The workspace once its store holds a database. -/
def storing (w : Workspace) (d : Store.Database) : Workspace :=
  { w with tree := w.tree.setStore w.storePath (.database d) }

/-- Where the store's file is written: over a file that is none of the scanned templates, or where
nothing is, at the end of a direct path. -/
def HasPlace (w : Workspace) : Prop :=
  (w.tree.hasFile w.storePath = true ∧ ∀ key ∈ w.templates,
    w.tree.resolve? (w.root.under (Path.ofString key)) ≠ w.tree.resolve? w.storePath) ∨
  (w.tree.isDirect w.storePath.names = true ∧ w.tree.at? w.storePath.names = none)

/-- A workspace with the settings of another in which the scanned templates are what they were. -/
structure Untouched (w w' : Workspace) : Prop where
  root : w'.root = w.root
  settings : w'.settings = w.settings
  isFile : ∀ key ∈ w.templates, w'.isFile key = true
  entitiesAt : ∀ key ∈ w.templates, w'.entitiesAt key = w.entitiesAt key

theorem untouched_storing {w : Workspace} {d : Store.Database}
    (h : ∀ key ∈ w.templates, ∃ c x,
      w.tree.find? (w.root.under (Path.ofString key)) = some (.file c x) ∧
        (w.storing d).tree.find? (w.root.under (Path.ofString key)) = some (.file c x)) :
    w.Untouched (w.storing d) where
  root := rfl
  settings := rfl
  isFile key hkey := by
    obtain ⟨c, x, -, hfind⟩ := h key hkey
    change ((w.storing d).tree.find? (w.root.under (Path.ofString key))).any Node.isFile = true
    rw [hfind]
    rfl
  entitiesAt key hkey := by
    obtain ⟨c, x, hbefore, hafter⟩ := h key hkey
    have hread : (w.storing d).tree.read? (w.root.under (Path.ofString key)) =
        w.tree.read? (w.root.under (Path.ofString key)) := by
      rw [Node.read?, Node.read?, hbefore, hafter]
    unfold Workspace.entitiesAt
    rw [← hread]
    rfl

theorem disk_storing {w : Workspace} {d : Store.Database} {x : Bool}
    (h : (w.storing d).tree.find? w.storePath = some (.file (.database d) x)) :
    (w.storing d).store.disk = .database d := by
  change (w.storing d).tree.storeAt w.storePath = _
  rw [Node.storeAt, h]

/-- Where the store's file has a place, what is written there is found again, and the templates are what
they were. -/
theorem storing_of_hasPlace {w : Workspace} (hplace : w.HasPlace)
    (hfiles : ∀ key ∈ w.templates, w.isFile key = true) (d : Store.Database) :
    (w.storing d).store.disk = .database d ∧ w.Untouched (w.storing d) := by
  rcases hplace with ⟨hstore, hne⟩ | ⟨hdirect, hnone⟩
  · -- a file takes the place of a file, which may be behind links
    obtain ⟨c, x, hstore⟩ := Node.exists_of_hasFile hstore
    refine ⟨disk_storing (Node.find?_write hstore _), untouched_storing fun key hkey => ?_⟩
    obtain ⟨c', x', hfile⟩ := Node.exists_of_hasFile (hfiles key hkey)
    exact ⟨c', x', hfile, Node.find?_write_of_ne hstore hfile (hne key hkey) _⟩
  · -- the file and the directories on its way are new, and what was there is there still
    refine ⟨disk_storing (Node.find?_write_self hdirect hnone _), untouched_storing fun key hkey => ?_⟩
    obtain ⟨c', x', hfile⟩ := Node.exists_of_hasFile (hfiles key hkey)
    exact ⟨c', x', hfile, Node.find?_write_of_find? hdirect hnone hfile _⟩

/-- A rebuild that succeeds writes the entities of the scanned templates, and nothing but the store's
file changes. -/
theorem eq_storing_of_rebuild {w w₁ : Workspace} {r : Refresh}
    (hcommand : w.settings.extractor.command = []) (h : rebuild.on w = (.ok r, w₁)) :
    w.store.Accepts ((mergeClauses w.scanned).map Entity.draft) ∧ ∃ logged,
      w₁ = { w.storing (.ofTables (Store.Tables.insert {} (mergeClauses w.scanned))) with
        logged } := by
  obtain ⟨logged, hscan⟩ := on_extractAll_of_disabled hcommand
  obtain ⟨entities, w₀, hextract, h⟩ := on_bind_ok h
  rw [hscan] at hextract
  obtain ⟨hentities, hw₀⟩ := Prod.mk.inj hextract
  injection hentities with hentities
  subst hentities
  -- the scan wrote the log only: the store that the rebuild meets is that of `w`
  obtain ⟨n, w', hstore, h⟩ := on_bind_ok h
  rw [← Batch.records_entities, on_onStore] at hstore
  rcases hon : (Store.rebuild (w.scanned.map .entity)).on w₀.store with ⟨result, s⟩
  rw [hon] at hstore
  obtain ⟨rfl, rfl⟩ := Prod.mk.inj hstore
  obtain ⟨t, ⟨l, rfl⟩, heffect⟩ := Store.effect_of_rebuild hon
  have haccepts := Store.accepts_of_rebuild hon
  have ht := heffect.eq_applied
  rw [Store.applied, Store.entitiesIn_entities] at ht
  rw [Store.draftsIn_entities] at haccepts
  dsimp only at h
  rw [on_bind, on_log] at h
  subst hw₀ ht
  exact ⟨⟨haccepts.tries, haccepts.free, haccepts.held⟩, _, (Prod.mk.inj h).2.symm⟩

theorem after_rebuild {w w₁ : Workspace} {r : Refresh}
    (hcommand : w.settings.extractor.command = []) (hids : (w.scanned.map Entity.id).Nodup)
    (hplace : w.HasPlace) (hfiles : ∀ key ∈ w.templates, w.isFile key = true)
    (hrebuild : rebuild.on w = (.ok r, w₁)) :
    w.store.Accepts (w.scanned.map Entity.draft) ∧
      w₁.store.disk.tables? = some (Store.Tables.insert {} w.scanned) ∧
      w.Untouched w₁ ∧ w₁.isLocked = false := by
  obtain ⟨haccepts, logged, rfl⟩ := eq_storing_of_rebuild hcommand hrebuild
  rw [mergeClauses_of_nodup hids] at haccepts ⊢
  obtain ⟨hdisk, hsame⟩ :=
    storing_of_hasPlace hplace hfiles (.ofTables (Store.Tables.insert {} w.scanned))
  refine ⟨haccepts, ?_, ⟨hsame.root, hsame.settings, hsame.isFile, hsame.entitiesAt⟩, haccepts.free⟩
  change (w.storing _).store.disk.tables? = _
  rw [hdisk]
  rfl

/-! ## Files and what is read from them -/

/-- What a full scan has for each path. -/
def scannedFiles (w : Workspace) : Store.Files :=
  Store.Files.ofEntities w.scanned

theorem isLaidOut_scannedFiles {w : Workspace} (hids : (w.scanned.map Entity.id).Nodup) :
    w.scannedFiles.IsLaidOut := by
  refine Store.Files.isLaidOut_ofEntities fun a ha b hb hid => ?_
  rw [List.inj_on_of_nodup_map hids ha hb hid]

/-- What is scanned of one template is what it has, since no identity is scanned twice. -/
theorem scannedFiles_eq {w : Workspace} (hids : (w.scanned.map Entity.id).Nodup) (key : String) :
    w.scannedFiles key = if key ∈ w.templates then w.entitiesAt key else [] := by
  have hread : w.scannedFiles key =
      (List.replicate (w.templates.count key) key).flatMap w.entitiesAt := by
    rw [scannedFiles, Store.Files.ofEntities, scanned,
      Store.filter_path_flatMap fun _ _ => path_of_mem_entitiesAt, List.filter_beq]
  have hnodup : ((w.scannedFiles key).map Entity.id).Nodup :=
    hids.sublist (List.filter_sublist.map _)
  rw [hread] at hnodup ⊢
  split
  · rename_i hkey
    obtain ⟨n, hn⟩ := Nat.exists_eq_succ_of_ne_zero (List.count_pos_iff.mpr hkey).ne'
    rw [hn] at hnodup ⊢
    cases n with
    | zero => rw [List.replicate_one, List.flatMap_singleton]
    | succ n =>
      -- a template that is met twice would bring its identities twice
      have hnone : w.entitiesAt key = [] := by
        rw [List.replicate_succ, List.replicate_succ, List.flatMap_cons, List.flatMap_cons,
          List.map_append, List.map_append, List.nodup_append'] at hnodup
        by_contra hne
        obtain ⟨e, he⟩ := List.exists_mem_of_ne_nil _ hne
        have hid := List.mem_map_of_mem (f := Entity.id) he
        exact hnodup.2.2 hid (List.mem_append_left _ hid)
      rw [hnone, List.flatMap_eq_nil_iff]
      intro k hk
      rw [(List.mem_replicate.mp hk).2, hnone]
  · rename_i hkey
    rw [List.count_eq_zero_of_not_mem hkey]
    rfl

theorem nodup_keysOf (w : Workspace) (paths : List String) : (w.keysOf paths).Nodup :=
  (List.mergeSort_perm _ _).nodup_iff.mpr (Text.nodup_distinct _)

theorem reads_scanned (w : Workspace) :
    Store.Reads (w.scanned.map .entity) w.scannedFiles Set.univ where
  whole := by rw [Batch.drafts_entities, Store.entities_entities]
  found key _ := by
    rw [Store.entities_entities]
    rfl
  within _ _ := Set.mem_univ _

/-! ## Rescanning -/

theorem mem_templates {w : Workspace} {key : String} :
    key ∈ w.templates ↔ key ∈ w.walk ∧ w.settings.index.isTemplate key = true :=
  List.mem_filter

theorem mem_updated {w : Workspace} {paths : List String} {key : String} :
    key ∈ w.updated paths ↔ key ∈ w.keysOf paths ∧ w.isFile key = true ∧
      w.settings.index.isTemplate key = true := by
  rw [updated, List.mem_filter, List.mem_filter, and_assoc]

section Untouched

variable {w w₁ : Workspace} (h : w.Untouched w₁) {paths : List String}
  (hmet : ∀ p ∈ paths, w₁.isFile (Path.key w.root p) = true →
    w.settings.index.isTemplate (Path.key w.root p) = true → Path.key w.root p ∈ w.walk)

include h hmet

/-- The templates that an update takes are the scanned ones among its keys. -/
theorem mem_updated_iff {key : String} (hkey : key ∈ w₁.keysOf paths) :
    key ∈ w₁.updated paths ↔ key ∈ w.templates := by
  rw [mem_updated, mem_templates, h.settings]
  constructor
  · rintro ⟨-, hfile, htemplate⟩
    obtain ⟨p, hp, rfl⟩ := mem_keysOf.mp hkey
    rw [h.root] at hfile htemplate ⊢
    exact ⟨hmet p hp hfile htemplate, htemplate⟩
  · rintro ⟨hwalk, htemplate⟩
    exact ⟨hkey, h.isFile key (mem_templates.mpr ⟨hwalk, htemplate⟩), htemplate⟩

/-- An update reads what a full scan has for its keys. -/
theorem reads_updated (hids : (w.scanned.map Entity.id).Nodup) :
    Store.Reads (((w₁.updated paths).flatMap w₁.entitiesAt).map .entity) w.scannedFiles
      {key | key ∈ w₁.keysOf paths} where
  whole := by rw [Batch.drafts_entities, Store.entities_entities]
  found key hkey := by
    have hnodup : (w₁.updated paths).Nodup := ((nodup_keysOf w₁ paths).filter _).filter _
    rw [Store.entities_entities,
      Store.filter_path_of_nodup (fun _ _ => path_of_mem_entitiesAt) hnodup, scannedFiles_eq hids]
    by_cases hk : key ∈ w.templates
    · rw [if_pos hk, if_pos ((mem_updated_iff h hmet hkey).mpr hk), h.entitiesAt key hk]
    · rw [if_neg hk, if_neg fun hk' => hk ((mem_updated_iff h hmet hkey).mp hk')]
  within e he := by
    rw [Store.entities_entities, List.mem_flatMap] at he
    obtain ⟨key, hkey, he⟩ := he
    rw [path_of_mem_entitiesAt he]
    exact (mem_updated.mp hkey).1

/-- What an update reads of the scanned templates can be held if all that was scanned can. -/
theorem updated_held (hheld : (w.scanned.map Entity.draft).all Store.storable = true) :
    (Store.draftsIn (((w₁.updated paths).flatMap w₁.entitiesAt).map .entity)).all Store.storable =
      true := by
  rw [Store.all_storable_draft, List.all_eq_true] at hheld
  rw [Store.draftsIn_entities, Store.all_storable_draft, List.all_eq_true]
  refine forall_mem_mergeClauses Store.Listing.fits_join fun e he => ?_
  obtain ⟨key, hkey, he⟩ := List.mem_flatMap.mp he
  have htemplate := (mem_updated_iff h hmet (mem_updated.mp hkey).1).mp hkey
  rw [h.entitiesAt key htemplate] at he
  exact hheld e (List.mem_flatMap.mpr ⟨key, htemplate, he⟩)

end Untouched

/-- Without an extractor, an update of a store that is free succeeds, if what it reads can be held. -/
theorem not_fails_of_disabled {w : Workspace} {t : Store.Tables}
    (hcommand : w.settings.extractor.command = []) (hstore : w.store.disk.tables? = some t)
    (htries : 0 ≤ w.settings.database.maxRetries) (hfree : w.isLocked = false) {paths : List String}
    (hheld : (Store.draftsIn (((w.updated paths).flatMap w.entitiesAt).map .entity)).all
      Store.storable = true) (e : Trouble) : ¬ w.Fails paths e := by
  obtain ⟨logged, hextract⟩ := extract_of_disabled hcommand paths
  rintro (h | ⟨drafts, w₁, h, hmerge⟩)
  · rw [hextract] at h
    cases h
  · rw [hextract] at h
    cases h
    obtain ⟨s, hon, -⟩ := Store.on_merge_ok (s := { w with logged }.store) htries hfree hstore
      (w.keysOf paths) (Batch.stopped_entities _) hheld
    rw [← Batch.records_entities, hon] at hmerge
    cases hmerge

/-- After a rebuild, an update of files that did not change succeeds and leaves the index as it is: the
same entities, the same full-text rows, and the same references for each identity.  Its paths may be spelled
in any way and lead anywhere, as long as those that lead to a template lead to one that was scanned. -/
theorem unchanged_of_update {w w₁ : Workspace} {r : Refresh}
    (hcommand : w.settings.extractor.command = []) (hids : (w.scanned.map Entity.id).Nodup)
    (hplace : w.HasPlace) (hfiles : ∀ key ∈ w.templates, w.isFile key = true)
    (hrebuild : rebuild.on w = (.ok r, w₁)) {paths : List String}
    (hmet : ∀ p ∈ paths, w₁.isFile (Path.key w.root p) = true →
      w.settings.index.isTemplate (Path.key w.root p) = true → Path.key w.root p ∈ w.walk) :
    ∃ t u r' w₂, w₁.store.disk.tables? = some t ∧ (update paths).on w₁ = (.ok r', w₂) ∧
      w₂.store.disk.tables? = some u ∧ t.entities.Perm u.entities ∧ t.texts.Perm u.texts ∧
      ∀ id, t.referencesOf id = u.referencesOf id := by
  obtain ⟨haccepts, hstore, hsame, hfree⟩ := after_rebuild hcommand hids hplace hfiles hrebuild
  have hcommand₁ : w₁.settings.extractor.command = [] := by rw [hsame.settings, hcommand]
  obtain ⟨e, -, -, -, hfails⟩ | ⟨drafts, r', w₂, hextract, hupdate, -, hu⟩ :=
    update_cases hstore paths
  · exact absurd hfails (not_fails_of_disabled hcommand₁ hstore (hsame.settings ▸ haccepts.tries)
      hfree (updated_held hsame hmet haccepts.held) e)
  obtain ⟨logged, hread⟩ := extract_of_disabled hcommand₁ paths
  rw [hread] at hextract
  injection hextract with hextract
  subst hextract
  rw [← Batch.records_entities, Store.applied, Writing.wholes_map] at hu
  -- the store shows for each path what the scan has for it, before the update and after it
  have hlaid := isLaidOut_scannedFiles hids
  have hlock := Store.Lockstep.empty.insert hids
  have hstored : ∀ path, (Store.Tables.insert {} w.scanned).stored path = w.scannedFiles.shown path := by
    intro path
    rw [← Store.stored_rebuild (reads_scanned w) hlaid path, Store.entitiesIn_entities,
      mergeClauses_of_nodup hids]
  refine ⟨_, _, r', w₂, hstore, hupdate, hu, Store.Tables.perm_of_stored hlock
    ((hlock.purgeAll _).insert (Store.nodup_map_id_entitiesIn _)) fun path => ?_⟩
  rw [hstored]
  exact (Store.stored_merge (reads_updated hsame hmet hids) hlaid hlock (.inr (hstored path))).symm

/-- A project with a template, another one in an excluded directory, and no store. -/
def vendoredProject : Workspace :=
  { tree := .dir [("p", .dir [
      ("lib", .dir [("m", .dir [("x.heex", .ofText "<.b />")])]),
      ("deps", .dir [("x.heex", .ofText "<.a />")])])]
    root := Path.ofString "/p"
    home := { own := Path.ofString "/" } }

theorem unchanged_of_respelled :
    ∃ r w₁ t u r' w₂, rebuild.on vendoredProject = (.ok r, w₁) ∧ w₁.store.disk.tables? = some t ∧
      (update ["./lib//m/x.heex", "/p/lib/m/x.heex", "lib/gone.heex"]).on w₁ = (.ok r', w₂) ∧
      w₂.store.disk.tables? = some u ∧ t.entities.Perm u.entities ∧ t.texts.Perm u.texts ∧
      ∀ id, t.referencesOf id = u.referencesOf id := by
  have hids : (vendoredProject.scanned.map Entity.id).Nodup := by decide +kernel
  have hplace : vendoredProject.HasPlace := .inr ⟨by decide +kernel, by decide +kernel⟩
  have hfiles : ∀ key ∈ vendoredProject.templates, vendoredProject.isFile key = true := by
    decide +kernel
  have hbuilt : (rebuild.on vendoredProject).1.toOption.isSome = true := by decide +kernel
  have hmet : ∀ p ∈ ["./lib//m/x.heex", "/p/lib/m/x.heex", "lib/gone.heex"],
      (rebuild.on vendoredProject).2.isFile (Path.key vendoredProject.root p) = true →
        vendoredProject.settings.index.isTemplate (Path.key vendoredProject.root p) = true →
          Path.key vendoredProject.root p ∈ vendoredProject.walk := by decide +kernel
  rcases hrebuild : rebuild.on vendoredProject with ⟨_ | r, w₁⟩
  · rw [hrebuild] at hbuilt
    cases hbuilt
  · rw [hrebuild] at hmet
    obtain ⟨t, u, r', w₂, h⟩ := unchanged_of_update rfl hids hplace hfiles hrebuild hmet
    exact ⟨r, w₁, t, u, r', w₂, rfl, h⟩

/-- A template in an excluded directory is not scanned, and an update of its path brings it into the
index. -/
theorem changed_of_excluded :
    ∃ t u, (rebuild.on vendoredProject).2.store.disk.tables? = some t ∧
      ((update ["deps/x.heex"]).on (rebuild.on vendoredProject).2).2.store.disk.tables? = some u ∧
      ¬ t.entities.Perm u.entities := by
  have hbefore : (rebuild.on vendoredProject).2.store.disk.tables?.map (·.entities.length) =
      some 1 := by decide +kernel
  have hafter : ((update ["deps/x.heex"]).on (rebuild.on vendoredProject).2).2.store.disk.tables?.map
      (·.entities.length) = some 2 := by decide +kernel
  obtain ⟨t, ht, hlength⟩ := Option.map_eq_some_iff.mp hbefore
  obtain ⟨u, hu, hlength'⟩ := Option.map_eq_some_iff.mp hafter
  refine ⟨t, u, ht, hu, fun hperm => ?_⟩
  have := hperm.length_eq
  omega

end CodeIndex.Workspace
