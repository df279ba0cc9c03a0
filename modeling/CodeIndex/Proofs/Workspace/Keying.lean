import CodeIndex.Proofs.Path
import CodeIndex.Proofs.Scheduler.Hearing
import CodeIndex.Proofs.Workspace.Extraction
import CodeIndex.Proofs.Workspace.Watching

/-!
# One key for one file

A file goes by many spellings: from the root of the machine or from the root of the project, with slashes
and dots that say nothing.  Scheduler and extraction key them on their own and agree, a path below the
project root has the key of what is left of it there, and a key is its own key.  What is done with a path
depends on its key alone, so that what is told under one spelling and refreshed under another is merged
and purged under one path.
-/

namespace CodeIndex

/-! ## Spellings of a path below the root -/

namespace Path

theorem root_of_relative {p : Path} (h : p.isAbsolute = false) : p.root = "" := by
  simpa [isAbsolute] using h

theorem below?_under {root p : Path} (hp : p.isAbsolute = false) : below? root (root.under p) = some p := by
  have hroot := root_of_relative hp
  unfold below? under
  rw [hp]
  obtain ⟨_, names⟩ := p
  obtain rfl : _ = "" := hroot
  simp

/-- A path below the root has the key of what is below it, however it is spelled. -/
theorem key_of_under {root : Path} (habs : root.isAbsolute = true) {path full : String}
    (hpath : (ofString path).isAbsolute = false) (hfull : ofString full = root.under (ofString path)) :
    key root full = key root path := by
  have hunder : (root.under (ofString path)).isAbsolute = true := by
    rw [under, hpath]
    exact habs
  unfold key
  dsimp only
  rw [hfull, hunder, hpath, below?_under hpath]
  rfl

theorem key_toString_under {root : Path} (hroot : root.IsSpelled) (habs : root.isAbsolute = true)
    {path : String} (hpath : (ofString path).isAbsolute = false) :
    key root (root.under (ofString path)).toString = key root path := by
  have hspelled : (root.under (ofString path)).IsSpelled :=
    isSpelled_under hroot (isSpelled_ofString path).names (root_of_relative hpath)
  exact key_of_under habs hpath (ofString_toString hspelled)

end Path

/-! ## Notices of the scheduler -/

namespace Scheduler.Machine

variable {σ : Type} {b : Backend σ} {m : Machine σ}

theorem noteChange_congr {path path' : String} (h : Path.key m.root path = Path.key m.root path') :
    m.noteChange b path = m.noteChange b path' := by
  unfold noteChange
  rw [h]

theorem settled_congr {path path' : String} (h : Path.key m.root path = Path.key m.root path')
    {kind : String → Notice} (hkind : kind ∈ [Notice.change, Notice.delete, Notice.either]) :
    ∃ kind' ∈ [Notice.change, Notice.delete], m.settled b (kind path) = kind' path ∧
      m.settled b (kind path') = kind' path' := by
  simp only [List.mem_cons, List.not_mem_nil, or_false] at hkind
  rcases hkind with rfl | rfl | rfl
  · exact ⟨Notice.change, by simp, rfl, rfl⟩
  · exact ⟨Notice.delete, by simp, rfl, rfl⟩
  · by_cases hhas : b.has (m.root.under (Path.ofString (Path.key m.root path))) m.world
    · exact ⟨Notice.change, by simp, if_pos hhas, if_pos (h ▸ hhas)⟩
    · exact ⟨Notice.delete, by simp, if_neg hhas, if_neg (h ▸ hhas)⟩

/-- A notice counts by the key of its path. -/
theorem notify_cons_congr {path path' : String} (h : Path.key m.root path = Path.key m.root path')
    {kind : String → Notice} (hkind : kind ∈ [Notice.change, Notice.delete, Notice.either])
    (rest : List Notice) : m.notify b (kind path :: rest) = m.notify b (kind path' :: rest) := by
  obtain ⟨kind', hkind', hpath, hpath'⟩ := settled_congr (b := b) h hkind
  rw [notify, notify, hpath, hpath']
  rcases List.mem_pair.mp hkind' with rfl | rfl
  · dsimp only
    rw [noteChange_congr h]
  · dsimp only
    rw [h]

end Scheduler.Machine

/-! ## Refreshes -/

namespace Workspace

variable {w : Workspace}

theorem extract_congr {paths paths' : List String}
    (h : paths.map (Path.key w.root) = paths'.map (Path.key w.root)) :
    (extract paths).on w = (extract paths').on w := by
  unfold extract
  rw [on_bind, on_bind, on_get]
  dsimp only
  rw [relative_eq_key, h]

theorem update_congr {paths paths' : List String}
    (h : paths.map (Path.key w.root) = paths'.map (Path.key w.root)) :
    (update paths).on w = (update paths').on w := by
  rw [on_update, on_update, keysOf, h, keysOf]

theorem on_purge (path : String) :
    (purge path).on w =
      (onStore (Store.purge (.whole (Path.key w.root path))) >>= fun removed =>
        return { isFull := false, entities := 0, paths := 1, purged := removed }).on w := by
  unfold purge keyOf
  rw [on_bind, on_bind, on_get, ← relative_eq_key]
  rfl

theorem purge_congr {path path' : String} (h : Path.key w.root path = Path.key w.root path') :
    (purge path).on w = (purge path').on w := by
  rw [on_purge, on_purge, h]

/-- What a refresh of one path merges is put under its key. -/
theorem tables_of_update {t : Store.Tables} (hstore : w.store.disk.tables? = some t) {path : String}
    {r : Refresh} {w' : Workspace} (h : (update [path]).on w = (.ok r, w')) :
    ∃ drafts : List Draft, w'.store.disk.tables? =
      some (Store.applied t (.merge (drafts.map .draft) [.whole (Path.key w.root path)])) := by
  have hkeys : w.keysOf [path] = [Path.key w.root path] := List.mergeSort_singleton _
  obtain ⟨e, w₁, herror, -⟩ | ⟨drafts, r', w₁, -, hok, -, htables⟩ := update_cases hstore [path]
  · rw [h] at herror
    cases herror
  · rw [h] at hok
    injection hok with _ hw
    exact ⟨drafts, by rw [hw, htables, hkeys]; rfl⟩

/-- What is purged is what the store has under the key. -/
theorem tables_of_purge {t : Store.Tables} (hstore : w.store.disk.tables? = some t) {path : String}
    {r : Refresh} {w' : Workspace} (h : (purge path).on w = (.ok r, w')) :
    w'.store.disk.tables? = some (Store.applied t (.purge (.whole (Path.key w.root path)))) := by
  rw [on_purge, on_bind, on_onStore] at h
  obtain ⟨n, u, s, hon, hwrote, heffect⟩ | ⟨e, s, hon, -⟩ :=
    Store.change_cases (.purge (.whole (Path.key w.root path))) w.store
  all_goals
    change (Store.purge _).on w.store = _ at hon
    rw [hon] at h
  · injection h with _ hw
    obtain ⟨logged, rfl⟩ := hwrote
    rw [← hw]
    rw [disk_withStore hstore rfl, heffect.eq_applied, hstore]
    rfl
  · cases h

/-- One key for one file.  Scheduler and extraction key every path alike; a path of the project, however it
is spelled from the root of the machine, has the key that it has from the root of the project, and a key is
its own key.  Notices, scans and refreshes of two paths with one key are the same, and what a refresh merges
and what a purge removes is under the key. -/
theorem one_key_for_file (text : String) (habs : (Path.ofString text).isAbsolute = true) :
    let root := Path.ofString text
    (∀ path, relative root path = Path.key root path) ∧
    (∀ path, (Path.ofString path).isAbsolute = false →
      Path.key root (root.under (Path.ofString path)).toString = Path.key root path ∧
      ∀ full, Path.ofString full = root.under (Path.ofString path) →
        Path.key root full = Path.key root path) ∧
    (∀ path, Path.key root (Path.key root path) = Path.key root path) ∧
    (∀ path path', Path.key root path = Path.key root path' →
      (∀ (σ : Type) (b : Scheduler.Backend σ) (m : Scheduler.Machine σ), m.root = root →
        ∀ kind ∈ [Scheduler.Notice.change, Scheduler.Notice.delete, Scheduler.Notice.either],
          ∀ rest, m.notify b (kind path :: rest) = m.notify b (kind path' :: rest)) ∧
      ∀ w : Workspace, w.root = root →
        (purge path).on w = (purge path').on w ∧ ∀ before after,
          (extract (before ++ path :: after)).on w = (extract (before ++ path' :: after)).on w ∧
          (update (before ++ path :: after)).on w = (update (before ++ path' :: after)).on w) ∧
    ∀ (w : Workspace) (t : Store.Tables), w.root = root → w.store.disk.tables? = some t →
      ∀ path r w',
        ((update [path]).on w = (.ok r, w') → ∃ drafts : List Draft, w'.store.disk.tables? =
          some (Store.applied t (.merge (drafts.map .draft) [.whole (Path.key root path)]))) ∧
        ((purge path).on w = (.ok r, w') →
          w'.store.disk.tables? = some (Store.applied t (.purge (.whole (Path.key root path))))) := by
  intro root
  refine ⟨fun path => congrFun (relative_eq_key root) path, fun path hpath => ⟨?_, fun full hfull => ?_⟩,
    Path.key_key root, fun path path' hkey => ⟨?_, ?_⟩, ?_⟩
  · exact Path.key_toString_under (Path.isSpelled_ofString text) habs hpath
  · exact Path.key_of_under habs hpath hfull
  · rintro σ b m hroot kind hkind rest
    exact Scheduler.Machine.notify_cons_congr (by rw [hroot, hkey]) hkind rest
  · intro w hroot
    rw [← hroot] at hkey
    refine ⟨purge_congr hkey, fun before after => ?_⟩
    have hkeys : (before ++ path :: after).map (Path.key w.root) =
        (before ++ path' :: after).map (Path.key w.root) := by
      rw [List.map_append, List.map_append, List.map_cons, List.map_cons, hkey]
    exact ⟨extract_congr hkeys, update_congr hkeys⟩
  · intro w t hroot hstore path r w'
    rw [← hroot]
    exact ⟨tables_of_update hstore, tables_of_purge hstore⟩

/-- Two spellings of a file of a project, and what a refresh of either comes to. -/
theorem one_key_for_respelled :
    Path.key silentProject.root "/p//lib/./../lib/a.ex/" = Path.key silentProject.root "lib/../lib/a.ex" ∧
      (update ["/p//lib/./../lib/a.ex/"]).on silentProject =
        (update ["lib/../lib/a.ex"]).on silentProject := by
  obtain ⟨-, hunder, -, hsame, -⟩ := one_key_for_file "/p" (by decide)
  have hkey := (hunder "lib/../lib/a.ex" (by decide)).2 "/p//lib/./../lib/a.ex/" (by decide)
  exact ⟨hkey, (((hsame _ _ hkey).2 silentProject rfl).2 [] []).2⟩

end Workspace

end CodeIndex
