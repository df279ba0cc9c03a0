import CodeIndex.Proofs.Scheduler.Settling

/-!
# Deferred events find their way

When a cycle or a rebuild ends, its task becomes a drain of all that was deferred meanwhile.  The flag is
clear by then, so that anything may happen between two steps of a drain.  What it held is collected for the
next cycle, handed to the store as a purge, or held on to.
-/

namespace CodeIndex.Scheduler

open Store (Tables Files Lockstep)

namespace Machine

variable {σ : Type} {b : Backend σ} {v : View σ} {m m' : Machine σ} {t : Tables} {id : TaskId}
  {next : Option Stage} {work : Option Work} {reported : Set String}

/-- The machine when a cycle or a rebuild has ended and its task is about to drain what was deferred. -/
def draining (id : TaskId) (path : String) (ending : Ending) (m : Machine σ) : Machine σ :=
  (m.update Scheduler.conclude).suspend id (.drained path m.scheduler.deferred ending) .job

/-- A cycle or a rebuild ends and becomes a drain of all that was deferred. -/
theorem Settling.draining (hs : Settling v m t reported) (b : Backend σ) {scan : Scan}
    (hat : m.At id scan.storing) (path : String) (ending : Ending) :
    Settling v (m.draining id path ending) t reported := by
  have hn : (m.update Scheduler.conclude).Numbered := hs.steady.numbered.congr rfl rfl
  have hmoves : Moves b id (some (.drained path m.scheduler.deferred ending)) none
      (m.update Scheduler.conclude) (m.draining id path ending) :=
    .suspend b hn (hs.steady.numbered.at_lt hat) _ _
  -- the task held the flag, and now nobody does
  have hown : ∀ i st, m.At i st → st.isUnderWay = true → i = id := fun i st h hst =>
    (hs.only hat (isUnderWay_storing scan) h hst).1
  have hsteady : (m.draining id path ending).Steady :=
    hmoves.steady hs.steady.plain (fun st hst => by cases hst; rfl)
      (accepts_conclude _ hs.steady.accepts)
  have hholder : (m.draining id path ending).Holder none :=
    .moves_off (m := m.update Scheduler.conclude) hown hmoves
      (fun st hst => by cases hst; rfl) rfl
  have hnone : ∀ i (scan : Scan), ¬(m.draining id path ending).At i scan.asking := fun i scan h =>
    nomatch hholder.eq_some h (isUnderWay_asking scan)
  have hcurrent : ∀ p, (m.draining id path ending).IsCurrent v p := fun p i scan h =>
    absurd h (hnone i scan)
  have hclean : ∀ p, (m.draining id path ending).IsClean v p := fun p => .inr List.not_mem_nil
  have hkept : ∀ {i path' rest ending'}, m.At i (.drained path' rest ending') →
      (m.draining id path ending).At i (.drained path' rest ending') := by
    intro i path' rest ending' h
    refine hmoves.kept ?_ h
    rintro rfl
    have := hs.steady.numbered.stage_unique hat h
    cases scan <;> cases this
  refine ⟨hsteady, ⟨none, hholder⟩, fun _ => rfl, List.nodup_nil, hs.lockstep,
    fun i scan h => absurd h (hnone i scan), fun p hp => ?_⟩
  cases hs.due p hp with
  | pending h => exact .pending h
  | deferredChange h => exact .drainedChange id path _ ending (hmoves.here rfl) h
  | deferredDelete h hempty =>
    exact .drainedDelete id path _ ending (hmoves.here rfl) h hempty (hcurrent p)
  | drainedChange i path' rest ending' h hc => exact .drainedChange i path' rest ending' (hkept h) hc
  | drainedDelete i path' rest ending' h hd hempty _ =>
    exact .drainedDelete i path' rest ending' (hkept h) hd hempty (hcurrent p)
  | asked i scan' h _ _ _ =>
    exact absurd (hs.only hat (isUnderWay_storing scan) h (isUnderWay_asking scan')).2
      (asking_ne_storing scan' scan)
  | stored h _ hcl hd =>
    refine .stored h (hcurrent p) (hclean p) ?_
    by_cases hempty : v.files m.world p = []
    · exact .inl hempty
    · -- no deletion of it was deferred, so the new drain holds none
      refine .inr fun i path' rest ending' hat' => ?_
      obtain ⟨-, hat'⟩ | ⟨-, he⟩ :=
        hmoves.at_drained.mp hat'
      · exact hd.resolve_left hempty i path' rest ending' hat'
      · cases he
        exact hcl.resolve_left hempty

theorem Drains.memory {ending : Ending} {rest : List (String × Operation)}
    (h : Drains b id ending rest m m') :
    m'.scheduler.deferred = m.scheduler.deferred ∧ m'.scheduler.isBusy = m.scheduler.isBusy := by
  have hcollect : ∀ changed : List String,
      m'.scheduler.memory = changed.foldl collect m.scheduler.memory →
        m'.scheduler.deferred = m.scheduler.deferred ∧
          m'.scheduler.isBusy = m.scheduler.isBusy := by
    intro changed hs
    change m'.scheduler.memory.deferred = _ ∧ m'.scheduler.memory.isBusy = _
    rw [hs]
    exact ⟨deferred_foldl_collect _ _, (foldl_collect_flags _ _).2⟩
  cases h with
  | purge changed path rest' hrest hs h => exact hcollect changed hs
  | finish changed hrest hs h => exact hcollect changed hs

theorem mem_map_change {changed : List String} {p : String} {op : Operation} :
    (p, op) ∈ changed.map (·, Operation.change) ↔ p ∈ changed ∧ op = .change := by
  simp [eq_comm]

/-- What becomes of the events that a drain held: those that are left it still holds, a changed path is
collected, and of a deleted one the tables have nothing when all that was handed in is done. -/
structure Disposal (rest left : List (String × Operation)) (m m' : Machine σ) (t t' : Tables) : Prop where
  pending : ∀ p ∈ m.scheduler.pending, p ∈ m'.scheduler.pending
  change : ∀ p, (p, .change) ∈ rest → p ∈ m'.scheduler.pending ∨ (p, .change) ∈ left
  delete : ∀ p, (p, .delete) ∈ rest → t'.stored p = [] ∨ (p, .delete) ∈ left
  left : ∀ e ∈ left, e ∈ rest
  stored : ∀ p, t'.stored p = t.stored p ∨ (p, .delete) ∈ rest ∧ t'.stored p = []

/-- All other tasks that say where paths stand are as they were, and so is what is to be seen of files. -/
structure Elsewhere (v : View σ) (id : TaskId) (rest left : List (String × Operation))
    (m m' : Machine σ) : Prop where
  files : v.files m'.world = v.files m.world
  asked : v.asked m'.world = v.asked m.world
  deferred : m'.scheduler.deferred = m.scheduler.deferred
  asking : ∀ i (scan : Scan), m'.At i scan.asking ↔ m.At i scan.asking
  kept : ∀ {i path rest' ending}, m.At i (.drained path rest' ending) →
    m'.At i (.drained path rest' ending) ∨ i = id ∧ rest' = rest
  held : ∃ path ending, m.At id (.drained path rest ending)
  holds : ∀ {e}, e ∈ left → ∃ path ending, m'.At id (.drained path left ending)
  old : ∀ {i path rest' ending}, m'.At i (.drained path rest' ending) →
    m.At i (.drained path rest' ending) ∨ rest' = left

/-- A drain that goes on leaves everything alone but what it held itself. -/
theorem Moves.elsewhere (hm : Moves b id next work m m') (hb : b.IsFaithful v) (hn : m.Numbered)
    {path : String} {rest left : List (String × Operation)} {ending : Ending}
    (hat : m.At id (.drained path rest ending)) (hd : Drains b id ending rest m m')
    (hnext : next = none ∧ left = [] ∨ ∃ path', next = some (.drained path' left ending)) :
    Elsewhere v id rest left m m' := by
  obtain ⟨-, hfiles, hasked⟩ := hm.world.view hb
  have hstages : ∀ {st}, next = some st → ∃ path', st = .drained path' left ending := by
    intro st hst
    rcases hnext with ⟨hn, -⟩ | ⟨path', hn⟩
    · rw [hn] at hst
      cases hst
    · exact ⟨path', Option.some.inj (hst.symm.trans hn)⟩
  refine ⟨hfiles, hasked, hd.memory.1, fun i scan => ?_, fun {i path' rest' ending'} h => ?_,
    ⟨path, ending, hat⟩, fun {e} he => ?_, fun {i path' rest' ending'} h => ?_⟩
  · refine hm.at_same hn hat (asking_ne scan).1 (asking_ne scan).2 ?_ fun h => ?_
    · cases scan <;> exact nofun
    · obtain ⟨path', he⟩ := hstages h
      cases scan <;> cases he
  · by_cases hi : i = id
    · subst hi
      exact .inr ⟨rfl, (Stage.drained.inj (hn.stage_unique h hat)).2.1⟩
    · exact .inl (hm.kept hi h)
  · rcases hnext with ⟨-, rfl⟩ | ⟨path', hn⟩
    · cases he
    · exact ⟨path', ending, hm.here hn⟩
  · obtain ⟨-, h⟩ | ⟨-, h⟩ := hm.at_drained.mp h
    · exact .inl h
    · obtain ⟨path'', he⟩ := hstages h
      exact .inr (Stage.drained.inj he).2.1

section

variable {rest left : List (String × Operation)} {t' : Tables} {p : String}

theorem Elsewhere.isCurrent (he : Elsewhere v id rest left m m') (h : m.IsCurrent v p) :
    m'.IsCurrent v p := by
  intro i scan hat
  rw [he.files, he.asked]
  exact h i scan ((he.asking i scan).mp hat)

theorem Elsewhere.isClean (he : Elsewhere v id rest left m m') (h : m.IsClean v p) :
    m'.IsClean v p := by
  unfold IsClean
  rw [he.files, he.deferred]
  exact h

/-- A path without records is up to date once nothing is stored for it. -/
theorem Elsewhere.due_of_nil (he : Elsewhere v id rest left m m') (hempty : v.files m.world p = [])
    (hgone : t'.stored p = []) (hc : m.IsCurrent v p) : Due v m' t' p := by
  have hempty' : v.files m'.world p = [] := by rw [he.files]; exact hempty
  refine .stored ?_ (he.isCurrent hc) (.inl hempty') (.inl hempty')
  rw [hgone, Store.Files.shown_of_eq_nil hempty']

/-- What the store has of a path that has records is left alone: no drain held a deletion of it, so that
it is not the one that is purged. -/
theorem Elsewhere.due_of_stored (he : Elsewhere v id rest left m m') (ho : Disposal rest left m m' t t')
    (h : t.stored p = (v.files m.world).shown p) (hc : m.IsCurrent v p) (hcl : m.IsClean v p)
    (hdel : ∀ i path rest' ending, m.At i (.drained path rest' ending) → (p, .delete) ∉ rest') :
    Due v m' t' p := by
  have hnot : (p, .delete) ∉ rest := by
    obtain ⟨path, ending, hat⟩ := he.held
    exact hdel id path rest ending hat
  refine .stored ?_ (he.isCurrent hc) (he.isClean hcl) (.inr fun i path rest' ending h' => ?_)
  · rcases ho.stored p with hkept | ⟨hin, -⟩
    · rw [hkept, h, he.files]
    · exact absurd hin hnot
  · rcases he.old h' with h' | rfl
    · exact hdel i path rest' ending h'
    · exact fun hin => hnot (ho.left _ hin)

/-- Where a path stands when a drain goes on: what the drain held is collected, on its way to the store, or
still held. -/
theorem Due.drained (hd : Due v m t p) (he : Elsewhere v id rest left m m')
    (ho : Disposal rest left m m' t t') : Due v m' t' p := by
  cases hd with
  | pending h => exact .pending (ho.pending p h)
  | deferredChange h => exact .deferredChange (by rw [he.deferred]; exact h)
  | deferredDelete h hempty =>
    exact .deferredDelete (by rw [he.deferred]; exact h) (by rw [he.files]; exact hempty)
  | drainedChange i path rest' ending h hc =>
    rcases he.kept h with h | ⟨-, rfl⟩
    · exact .drainedChange i path rest' ending h hc
    · rcases ho.change p hc with hc | hc
      · exact .pending hc
      · obtain ⟨path', ending', h'⟩ := he.holds hc
        exact .drainedChange id path' left ending' h' hc
  | drainedDelete i path rest' ending h hdel hempty hc =>
    have hempty' : v.files m'.world p = [] := by rw [he.files]; exact hempty
    rcases he.kept h with h | ⟨-, rfl⟩
    · exact .drainedDelete i path rest' ending h hdel hempty' (he.isCurrent hc)
    · rcases ho.delete p hdel with hgone | hdel
      · exact he.due_of_nil hempty hgone hc
      · obtain ⟨path', ending', h'⟩ := he.holds hdel
        exact .drainedDelete id path' left ending' h' hdel hempty' (he.isCurrent hc)
  | asked i scan h hscope hc hcl =>
    exact .asked i scan ((he.asking i scan).mpr h) hscope (he.isCurrent hc) (he.isClean hcl)
  | stored h hc hcl hdel =>
    by_cases hempty : v.files m.world p = []
    · refine he.due_of_nil hempty ?_ hc
      rcases ho.stored p with hkept | ⟨-, hgone⟩
      · rw [hkept, h, Store.Files.shown_of_eq_nil hempty]
      · exact hgone
    · exact he.due_of_stored ho h hc hcl (hdel.resolve_left hempty)

end

theorem Settling.drained (hs : Settling v m t reported) (hb : b.IsFaithful v) {path : String}
    {rest left : List (String × Operation)} {ending : Ending} {t' : Tables}
    (hat : m.At id (.drained path rest ending)) (hd : Drains b id ending rest m m')
    (hm : Moves b id next work m m')
    (hnext : next = none ∧ left = [] ∨ ∃ path', next = some (.drained path' left ending))
    (ho : Disposal rest left m m' t t') (ht' : Lockstep t') (hsteady : m'.Steady)
    (hholder : ∃ h, m'.Holder h) : Settling v m' t' reported := by
  obtain ⟨hdeferred, hbusy⟩ := hd.memory
  have he := hm.elsewhere hb hs.steady.numbered hat hd hnext
  exact ⟨hsteady, hholder, by rw [hbusy, hdeferred]; exact hs.idle,
    by rw [hdeferred]; exact hs.nodup, ht',
    fun i scan h => hs.asked_of (fun i scan => (he.asking i scan).mp) he.asked h,
    fun p hp => (hs.due p hp).drained he ho⟩

/-- A drain goes on: changed paths are collected, and a deleted one is on its way to the store. -/
theorem Settling.drains (hs : Settling v m t reported) (hb : b.IsFaithful v) {path : String}
    {rest : List (String × Operation)} {ending : Ending}
    (hat : m.At id (.drained path rest ending)) (hd : Drains b id ending rest m m')
    (hsteady : m'.Steady) (hholder : ∃ h, m'.Holder h) :
    ∃ works : List Work, m'.jobs = m.jobs ++ works.map (Job.mk id) ∧
      Settling v m' (works.foldl applied t) reported := by
  have hmem : ∀ {changed : List String},
      m'.scheduler.memory = changed.foldl collect m.scheduler.memory → ∀ p,
        p ∈ m'.scheduler.pending ↔ p ∈ changed ∨ p ∈ m.scheduler.pending := by
    intro changed h p
    change p ∈ m'.scheduler.memory.pending ↔ _
    rw [h]
    exact mem_foldl_collect
  cases hd with
  | purge changed purged rest' hrest h hm =>
    refine ⟨[.purge purged], hm.jobs, ?_⟩
    have hpurge := Store.Tables.stored_purge hs.lockstep purged
    change Settling v m' (t.purge purged) reported
    refine hs.drained hb hat (.purge changed purged rest' hrest h hm) hm (.inr ⟨purged, rfl⟩)
      ⟨fun p hp => (hmem h p).mpr (.inr hp), fun p hp => ?_, fun p hp => ?_, fun e he => ?_,
        fun p => ?_⟩ (hs.lockstep.purge purged) hsteady hholder
    · rw [hrest, List.mem_append, mem_map_change, List.mem_cons] at hp
      rcases hp with ⟨hp, -⟩ | he | hp
      · exact .inl ((hmem h p).mpr (.inl hp))
      · cases he
      · exact .inr hp
    · rw [hrest, List.mem_append, mem_map_change, List.mem_cons] at hp
      rcases hp with ⟨-, he⟩ | he | hp
      · cases he
      · exact .inl (by rw [hpurge, if_pos (Prod.mk.inj he).1])
      · exact .inr hp
    · rw [hrest]
      exact List.mem_append_right _ (List.mem_cons_of_mem _ he)
    · rw [hpurge]
      by_cases hp : p = purged
      · refine .inr ⟨?_, if_pos hp⟩
        rw [hp, hrest]
        exact List.mem_append_right _ List.mem_cons_self
      · exact .inl (if_neg hp)
  | finish changed hrest h hm =>
    refine ⟨[], by rw [hm.jobs]; rfl, ?_⟩
    refine hs.drained hb hat (.finish changed hrest h hm) hm (.inl ⟨rfl, rfl⟩)
      ⟨fun p hp => (hmem h p).mpr (.inr hp), fun p hp => ?_, fun p hp => ?_, nofun,
        fun p => .inl rfl⟩ hs.lockstep hsteady hholder
    · rw [hrest, mem_map_change] at hp
      exact .inl ((hmem h p).mpr (.inl hp.1))
    · rw [hrest, mem_map_change] at hp
      cases hp.2

theorem Settling.concludes (hs : Settling v m t reported) (hb : b.IsFaithful v) {scan : Scan}
    (hat : m.At id scan.storing) (hg : Concludes b id m m') (hsteady : m'.Steady)
    (hholder : ∃ h, m'.Holder h) :
    ∃ works : List Work, m'.jobs = m.jobs ++ works.map (Job.mk id) ∧
      Settling v m' (works.foldl applied t) reported := by
  obtain ⟨ending, hd⟩ := hg
  have hdraining := hs.draining b hat "" ending
  have hhere : (m.draining id "" ending).At id (.drained "" m.scheduler.deferred ending) :=
    at_suspend.mpr (.inr ⟨rfl, rfl⟩)
  exact hdraining.drains hb hhere hd.of_suspend hsteady hholder

end Machine

end CodeIndex.Scheduler
