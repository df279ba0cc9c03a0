import CodeIndex.Proofs.Scheduler.Due

/-!
# Reported paths stay where they are due

One lemma for each kind of turn that is no drain: nothing is heard, notices are given, a cycle or a rebuild
begins, the extractor answers.  Each keeps `Settling`.
-/

namespace CodeIndex.Scheduler

open Store (Tables Files Reads Lockstep)

def Stage.isTracked : Stage → Bool
  | .drained _ _ _ => true
  | .cycleAnswered _ => true
  | .rebuildAnswered => true
  | _ => false

theorem isTracked_asking (scan : Scan) : scan.asking.isTracked = true := by cases scan <;> rfl

theorem Rests.not_isTracked {s : Scheduler} {stage : Stage} {next : Option Stage}
    (h : Rests s stage next) :
    stage.isTracked = false ∧ ∀ st, next = some st → st.isTracked = false := by
  cases h <;> exact ⟨rfl, fun st hst => by cases hst <;> rfl⟩

theorem stores_asking (scan : Scan) (path : String) : scan.asking.stores path = false := by
  cases scan <;> rfl

theorem Begins.not_stores {s : Scheduler} {stage : Stage} {scan : Scan} (h : Begins s stage scan)
    (path : String) : stage.stores path = false := by
  cases h <;> rfl

namespace Machine

variable {σ : Type} {b : Backend σ} {v : View σ} {m m' : Machine σ} {t : Tables} {id : TaskId}
  {stage : Stage} {next : Option Stage} {work : Option Work} {reported : Set String}

/-- Logging leaves all that is to be seen. -/
theorem Logged.view (hb : b.IsFaithful v) {w w' : σ} (h : Logged b w w') :
    v.tables w' = v.tables w ∧ v.files w' = v.files w ∧ v.asked w' = v.asked w :=
  ⟨h.eq fun e w => (hb.log e w).1, h.eq fun e w => (hb.log e w).2.1,
    h.eq fun e w => (hb.log e w).2.2⟩

/-- The tasks that say where paths stand are as they were, and so is what is to be seen of files. -/
structure Stays (v : View σ) (m m' : Machine σ) : Prop where
  at_iff : ∀ {i st}, st.isTracked = true → (m'.At i st ↔ m.At i st)
  files : v.files m'.world = v.files m.world
  asked : v.asked m'.world = v.asked m.world

/-- A turn between stages that say nothing about paths is such. -/
theorem Moves.stays (hm : Moves b id next work m m') (hb : b.IsFaithful v) (hn : m.Numbered)
    (hat : m.At id stage) (hstage : stage.isTracked = false)
    (hnext : ∀ st, next = some st → st.isTracked = false) : Stays v m m' where
  at_iff {i st} hst := by
    have hne : ∀ {st' : Stage}, st'.isTracked = false → st ≠ st' := by
      rintro st' h rfl
      rw [h] at hst
      cases hst
    exact hm.at_same hn hat (hne rfl) (hne rfl) (hne hstage) fun h => hne (hnext st h) rfl
  files := (hm.world.view hb).2.1
  asked := (hm.world.view hb).2.2

theorem Extends.stays (hx : Extends b m m') (hb : b.IsFaithful v) : Stays v m m' where
  at_iff {i st} hst := by
    refine ⟨fun h => ?_, hx.kept⟩
    rcases hx.old h with h | rfl | rfl
    · exact h
    · cases hst
    · cases hst
  files := (hx.world.view hb).2.1
  asked := (hx.world.view hb).2.2

theorem stays_spawn (v : View σ) (hstage : stage.isTracked = false) :
    Stays v m (m.spawn stage) where
  at_iff {i st} hst := by
    rw [at_spawn]
    refine ⟨?_, .inl⟩
    rintro (h | ⟨-, rfl⟩)
    · exact h
    · rw [hstage] at hst
      cases hst
  files := rfl
  asked := rfl

theorem Idles.stays (v : View σ) (h : Idles m m') : Stays v m m' where
  at_iff _ := h.at_iff _ _
  files := by rw [h.world]
  asked := by rw [h.world]

theorem Stays.sameFor (h : Stays v m m') {p : String}
    (hpending : p ∈ m.scheduler.pending → p ∈ m'.scheduler.pending)
    (hdeferred : ∀ op, (p, op) ∈ m'.scheduler.deferred ↔ (p, op) ∈ m.scheduler.deferred) :
    SameFor v p m m' where
  pending := hpending
  deferred := hdeferred
  drained _ _ _ _ := h.at_iff rfl
  asking _ scan := h.at_iff (isTracked_asking scan)
  files := by rw [h.files]
  asked := by rw [h.asked]

theorem Settling.asked_of (hs : Settling v m t reported)
    (hasking : ∀ i (scan : Scan), m'.At i scan.asking → m.At i scan.asking)
    (hasked : v.asked m'.world = v.asked m.world) {i : TaskId} {scan : Scan}
    (hat : m'.At i scan.asking) : (v.asked m'.world).IsLaidOut := by
  rw [hasked]
  exact hs.asked i scan (hasking i scan hat)

/-! ## Events that are heard -/

/-- Nothing has happened to any path, and nothing is heard of any. -/
theorem Settling.stays (hs : Settling v m t reported) (h : Stays v m m')
    (hsch : m'.scheduler.memory = m.scheduler.memory) (hsteady : m'.Steady)
    (hholder : ∃ h, m'.Holder h) : Settling v m' t reported := by
  have hpending : m'.scheduler.memory.pending = m.scheduler.memory.pending := by rw [hsch]
  have hdeferred : m'.scheduler.memory.deferred = m.scheduler.memory.deferred := by rw [hsch]
  have hbusy : m'.scheduler.memory.isBusy = m.scheduler.memory.isBusy := by rw [hsch]
  change m'.scheduler.pending = m.scheduler.pending at hpending
  change m'.scheduler.deferred = m.scheduler.deferred at hdeferred
  change m'.scheduler.isBusy = m.scheduler.isBusy at hbusy
  refine ⟨hsteady, hholder, by rw [hbusy, hdeferred]; exact hs.idle,
    by rw [hdeferred]; exact hs.nodup, hs.lockstep, fun i scan hat => ?_, fun p hp => ?_⟩
  · exact hs.asked_of (fun i scan => (h.at_iff (isTracked_asking scan)).mp) h.asked hat
  · exact (hs.due p hp).same
      (h.sameFor (by rw [hpending]; exact fun h => h) (by rw [hdeferred]; exact fun _ => Iff.rfl))
      rfl

/-- During a cycle or a rebuild, what is heard is deferred. -/
theorem Settling.hears_busy (hs : Settling v m t reported) (h : Stays v m m')
    (hbusy : m.scheduler.isBusy = true) {given : List (String × Operation)}
    (hmem : m'.scheduler.memory = given.foldl hear m.scheduler.memory) (hsteady : m'.Steady)
    (hholder : ∃ h, m'.Holder h) :
    Settling v m' t (given.foldl (Scene.heard (v.files m.world)) reported) := by
  obtain ⟨hpending, hnodup, hall⟩ := heard_busy (s := m.scheduler.memory) hbusy hs.nodup
    (v.files m.world) given reported
  rw [← hmem] at hpending hnodup hall
  have hbusy' : m'.scheduler.memory.isBusy = true := by
    rw [hmem, (foldl_hear_flags _ _).2]
    exact hbusy
  refine ⟨hsteady, hholder, fun hidle => ?_, hnodup, hs.lockstep, fun i scan hat => ?_,
    fun p hp => ?_⟩
  · rw [show m'.scheduler.isBusy = true from hbusy'] at hidle
    cases hidle
  · exact hs.asked_of (fun i scan => (h.at_iff (isTracked_asking scan)).mp) h.asked hat
  · -- a path that is not told again stays where it was; else its last event is deferred
    rcases hall p hp with ⟨hp, hsame⟩ | hchange | ⟨hdelete, hempty⟩
    · refine (hs.due p hp).same (h.sameFor (fun hp => ?_) hsame) rfl
      exact hpending ▸ hp
    · exact .deferredChange hchange
    · exact .deferredDelete hdelete (by rw [h.files]; exact hempty)

/-- While the flag is clear, no answer is waited for. -/
theorem Settling.not_asking (hs : Settling v m t reported) (hidle : m.scheduler.isBusy = false)
    (i : TaskId) (scan : Scan) : ¬m.At i scan.asking := by
  obtain ⟨h, hh⟩ := hs.holder
  intro hat
  have := hh.busy
  rw [hidle, hh.eq_some hat (isUnderWay_asking scan)] at this
  cases this

/-- Otherwise changed paths are collected and deleted ones are purged. -/
theorem Settling.hears_idle (hs : Settling v m t reported) (h : Stays v m m')
    (hidle : m.scheduler.isBusy = false) {given : List (String × Operation)} {t' : Tables}
    (hmem : m'.scheduler.memory = given.foldl hear m.scheduler.memory)
    (hkept : ∀ p, (∀ op, (p, op) ∉ given) → t'.stored p = t.stored p)
    (hpurged : ∀ p, (p, .delete) ∈ given → t'.stored p = []) (ht' : Lockstep t')
    (hsteady : m'.Steady) (hholder : ∃ h, m'.Holder h) :
    Settling v m' t' (given.foldl (Scene.heard (v.files m.world)) reported) := by
  obtain ⟨hdeferred, hpending, hall⟩ := heard_idle (s := m.scheduler.memory) hidle
    (v.files m.world) given reported
  rw [← hmem] at hdeferred hpending hall
  change m'.scheduler.deferred = m.scheduler.deferred at hdeferred
  -- nobody waits for the extractor, so that what was asked does not matter
  have hnone : ∀ i (scan : Scan), ¬m'.At i scan.asking := fun i scan hat =>
    hs.not_asking hidle i scan ((h.at_iff (isTracked_asking scan)).mp hat)
  refine ⟨hsteady, hholder, fun _ => by rw [hdeferred]; exact hs.idle hidle,
    by rw [hdeferred]; exact hs.nodup, ht', fun i scan hat => absurd hat (hnone i scan),
    fun p hp => ?_⟩
  rcases hall p hp with ⟨hp, hnot⟩ | hp | ⟨hdelete, hempty⟩
  · exact (hs.due p hp).same
      (h.sameFor (hpending p) (by rw [hdeferred]; exact fun _ => Iff.rfl)) (hkept p hnot)
  · exact .pending hp
  · have hempty' : v.files m'.world p = [] := by rw [h.files]; exact hempty
    refine .stored ?_ (fun i scan hat => absurd hat (hnone i scan)) (.inl hempty') (.inl hempty')
    rw [hpurged p hdelete, Store.Files.shown_of_eq_nil hempty']

/-- Notices are given. -/
theorem Settling.notifies (hs : Settling v m t reported) (hb : b.IsFaithful v)
    (hat : m.At id stage) (hst : isNotifying stage = true) {given : List (String × Operation)}
    (hg : Notifies b id given m m') (hsteady : m'.Steady) (hholder : ∃ h, m'.Holder h) :
    ∃ works : List Work, m'.jobs = m.jobs ++ works.map (Job.mk id) ∧
      Settling v m' (works.foldl applied t)
        (given.foldl (Scene.heard (v.files m.world)) reported) := by
  have hstage : stage.isTracked = false := by cases stage <;> first | rfl | cases hst
  cases hg with
  | purge before path todo hidle hgiven hbefore hmem hm =>
    have hstays : Stays v m m' :=
      hm.stays hb hs.steady.numbered hat hstage fun st hst => by cases hst; rfl
    have hpurge := Store.Tables.stored_purge hs.lockstep path
    refine ⟨[.purge path], hm.jobs, ?_⟩
    change Settling v m' (t.purge path) _
    refine hs.hears_idle hstays hidle hmem (fun p hnot => ?_) (fun p hdelete => ?_)
      (hs.lockstep.purge path) hsteady hholder
    · refine (hpurge p).trans (if_neg ?_)
      rintro rfl
      exact hnot .delete (by rw [hgiven]; exact List.mem_append_right _ List.mem_cons_self)
    · -- only the last event is a deletion
      refine (hpurge p).trans (if_pos ?_)
      rw [hgiven, List.mem_append, List.mem_singleton] at hdelete
      rcases hdelete with hin | he
      · cases hbefore _ hin
      · exact (Prod.mk.inj he).1
  | finish hgiven hmem hm =>
    have hstays : Stays v m m' := hm.stays hb hs.steady.numbered hat hstage nofun
    refine ⟨[], by rw [hm.jobs]; rfl, ?_⟩
    by_cases hbusy : m.scheduler.isBusy = true
    · exact hs.hears_busy hstays hbusy hmem hsteady hholder
    · refine hs.hears_idle hstays (Bool.eq_false_iff.mpr hbusy) hmem (fun _ _ => rfl)
        (fun p hdelete => ?_) hs.lockstep hsteady hholder
      cases hgiven.resolve_left hbusy _ hdelete

/-- A single change is heard. -/
theorem Settling.changes (hs : Settling v m t reported) (h : Stays v m m') {path : String}
    (hmem : m'.scheduler.memory = m.scheduler.memory.hear (path, .change)) (hsteady : m'.Steady)
    (hholder : ∃ h, m'.Holder h) :
    Settling v m' t (Scene.heard (v.files m.world) reported (path, .change)) := by
  have hgiven : m'.scheduler.memory = [(path, .change)].foldl hear m.scheduler.memory := hmem
  by_cases hbusy : m.scheduler.isBusy = true
  · exact hs.hears_busy h hbusy hgiven hsteady hholder
  · refine hs.hears_idle h (Bool.eq_false_iff.mpr hbusy) hgiven
      (fun _ _ => rfl) (fun p hdelete => ?_) hs.lockstep hsteady hholder
    rw [List.mem_singleton] at hdelete
    cases hdelete

/-! ## Beginning -/

theorem mem_batchOf {pending : List String} {p : String} : p ∈ batchOf pending ↔ p ∈ pending :=
  List.mem_mergeSort

/-- A cycle or a rebuild begins: what was collected is in the scope of its scan. -/
theorem Settling.asks (hs : Settling v m t reported) (hb : b.IsFaithful v)
    (hlaid : (v.files m.world).IsLaidOut) (hat : m.At id stage) {scan : Scan} {w : σ}
    (hbegin : Begins m.scheduler stage scan) (hidle : m.scheduler.isBusy = false)
    (hw : Logged b m.world w) (hsch : m'.scheduler = m.scheduler.begin)
    (hm : Moves b id (some scan.asking) none (m.begun b scan w) m') (hsteady : m'.Steady)
    (hholder : ∃ h, m'.Holder h) : Settling v m' t reported := by
  have hdeferred : m.scheduler.deferred = [] := hs.idle hidle
  have hdeferred' : m'.scheduler.deferred = [] := by rw [hsch]; exact hdeferred
  -- nothing was asked before, and what is asked now is what there is
  have hnone := hs.not_asking hidle
  have hfiles : v.files m'.world = v.files m.world := by
    rw [(hm.world.view hb).2.1]
    exact (hb.ask scan w).2.1.trans (hw.view hb).2.1
  have hasked : v.asked m'.world = v.files m'.world := by
    rw [(hm.world.view hb).2.2, hfiles]
    exact (hb.ask scan w).2.2.trans (hw.view hb).2.1
  have hcurrent : ∀ p, m'.IsCurrent v p := fun p i scan _ => by rw [hasked]
  have hclean : ∀ p, m'.IsClean v p := fun p => .inr (by rw [hdeferred']; exact List.not_mem_nil)
  have hdrained : ∀ i path rest ending,
      m'.At i (.drained path rest ending) ↔ m.At i (.drained path rest ending) := by
    intro i path rest ending
    refine hm.at_same (hs.steady.numbered.congr rfl rfl) hat nofun nofun ?_ ?_
    · rintro rfl
      cases hbegin
    · cases scan <;> exact nofun
  refine ⟨hsteady, hholder, fun _ => hdeferred', by rw [hdeferred']; exact List.nodup_nil,
    hs.lockstep, fun _ _ _ => by rw [hasked, hfiles]; exact hlaid, fun p hp => ?_⟩
  cases hs.due p hp with
  | pending hpending =>
    -- a cycle takes all that is pending, and a rebuild takes all
    refine .asked id scan (hm.here rfl) ?_ (hcurrent p) (hclean p)
    cases hbegin with
    | cycle h => exact mem_batchOf.mpr hpending
    | rebuild => exact Set.mem_univ p
  | deferredChange h =>
    rw [hdeferred] at h
    cases h
  | deferredDelete h _ =>
    rw [hdeferred] at h
    cases h
  | drainedChange i path rest ending hat h =>
    exact .drainedChange i path rest ending ((hdrained i path rest ending).mpr hat) h
  | drainedDelete i path rest ending hat h hempty _ =>
    exact .drainedDelete i path rest ending ((hdrained i path rest ending).mpr hat) h
      (by rw [hfiles]; exact hempty) (hcurrent p)
  | asked i scan hat _ _ _ => exact absurd hat (hnone i scan)
  | stored h _ _ hd =>
    refine .stored (by rw [hfiles]; exact h) (hcurrent p) (hclean p) ?_
    rw [hfiles]
    exact hd.imp_right fun hd i path rest ending hat =>
      hd i path rest ending ((hdrained i path rest ending).mp hat)

/-! ## Answers -/

/-- While a task is under way, only its own scan can be asked or on its way to the store. -/
theorem Settling.only (hs : Settling v m t reported) (hat : m.At id stage)
    (hst : stage.isUnderWay = true) {i : TaskId} {st : Stage} (hat' : m.At i st)
    (hst' : st.isUnderWay = true) : i = id ∧ st = stage := by
  obtain ⟨h, hh⟩ := hs.holder
  have h₁ := hh.eq_some hat hst
  have h₂ := hh.eq_some hat' hst'
  rw [h₁] at h₂
  obtain ⟨hi, hs⟩ := Prod.mk.inj (Option.some.inj h₂)
  exact ⟨hi.symm, hs.symm⟩

/-- The extractor answers: what was asked is on its way to the store. -/
theorem Settling.answered (hs : Settling v m t reported) (hb : b.IsFaithful v) {scan : Scan}
    (hat : m.At id scan.asking) {records : List Record} {w : σ}
    (ha : b.answer scan m.world = (.ok records, w)) (hsch : m'.scheduler = m.scheduler)
    (hm : Moves b id (some scan.storing) (some (scan.work records)) { m with world := w } m')
    (hsafe : ∀ p ∈ reported, p ∈ scan.scope → p ∉ m'.threatened v)
    (hsteady : m'.Steady) (hholder : ∃ h, m'.Holder h) :
    Settling v m' (applied t (scan.work records)) reported := by
  obtain ⟨records', w', ha', hread, -, hf, hasked⟩ := hb.answer scan m.world
  rw [ha] at ha'
  obtain ⟨hr, rfl⟩ := Prod.mk.inj ha'
  obtain rfl := Except.ok.inj hr
  have hfiles : v.files m'.world = v.files m.world := (hm.world.view hb).2.1.trans hf
  have hlaid := hs.asked id scan hat
  -- no other scan was asked, and this one is no longer
  have hnone : ∀ i (scan' : Scan), ¬m'.At i scan'.asking := by
    intro i scan' hat'
    rcases (hm.at_asking scan').mp hat' with ⟨hne, hat'⟩ | ⟨-, h⟩
    · exact hne (hs.only hat (isUnderWay_asking scan) hat' (isUnderWay_asking scan')).1
    · exact asking_ne_storing scan' scan (Option.some.inj h).symm
  have hcurrent : ∀ p, m'.IsCurrent v p := fun p i scan hat => absurd hat (hnone i scan)
  have hclean : ∀ p, m.IsClean v p → m'.IsClean v p := by
    intro p hc
    unfold IsClean
    rw [hfiles, hsch]
    exact hc
  have hdrained : ∀ i path rest ending,
      m'.At i (.drained path rest ending) ↔ m.At i (.drained path rest ending) := by
    intro i path rest ending
    refine hm.at_same (hs.steady.numbered.congr rfl rfl) hat nofun nofun ?_ ?_
    · cases scan <;> exact nofun
    · cases scan <;> exact nofun
  refine ⟨hsteady, hholder, by rw [hsch]; exact hs.idle, by rw [hsch]; exact hs.nodup,
    hs.lockstep.applied _, fun i scan hat => absurd hat (hnone i scan), fun p hp => ?_⟩
  cases hs.due p hp with
  | pending h => exact .pending (by rw [hsch]; exact h)
  | deferredChange h => exact .deferredChange (by rw [hsch]; exact h)
  | deferredDelete h hempty =>
    exact .deferredDelete (by rw [hsch]; exact h) (by rw [hfiles]; exact hempty)
  | drainedChange i path rest ending hat h =>
    exact .drainedChange i path rest ending ((hdrained i path rest ending).mpr hat) h
  | drainedDelete i path rest ending hat h hempty _ =>
    exact .drainedDelete i path rest ending ((hdrained i path rest ending).mpr hat) h
      (by rw [hfiles]; exact hempty) (hcurrent p)
  | asked i scan' hat' hscope hc hcl =>
    -- this is the scan that was answered, and its answer is what the file still has
    have hsame : v.asked m.world p = v.files m.world p := hc i scan' hat'
    obtain rfl : scan' = scan :=
      asking_inj (hs.only hat (isUnderWay_asking scan) hat' (isUnderWay_asking scan')).2
    refine .stored ?_ (hcurrent p) (hclean p hcl) ?_
    · rw [stored_applied_work hread hlaid hs.lockstep (.inl hscope), hfiles]
      exact Store.Files.shown_congr hsame
    · by_cases hempty : v.files m'.world p = []
      · exact .inl hempty
      · exact .inr fun i path rest ending hat =>
          not_mem_of_not_threatened (hsafe p hp hscope) hempty hat
  | stored h hc hcl hd =>
    -- what is stored again is what was stored, and what is not asked is not touched
    have hsame : v.asked m.world p = v.files m.world p := hc id scan hat
    refine .stored ?_ (hcurrent p) (hclean p hcl) ?_
    · have hshown : t.stored p = (v.asked m.world).shown p :=
        h.trans (Store.Files.shown_congr hsame.symm)
      rw [stored_applied_work hread hlaid hs.lockstep (.inr hshown), hfiles]
      exact Store.Files.shown_congr hsame
    · rw [hfiles]
      exact hd.imp_right fun hd i path rest ending hat =>
        hd i path rest ending ((hdrained i path rest ending).mp hat)

end Machine

end CodeIndex.Scheduler
