import CodeIndex.Proofs.Scheduler.Reports

/-!
# Where a reported path stands

What is due to a reported path is always somewhere: it is collected for the next cycle, deferred, held by
a drain, asked of the extractor, or it is in the store as soon as all that was handed in is done.  `Due`
lists these places, and each kind of turn takes a path from one to another.  Two things go along with them.
What was asked is what the file still has, unless there is news of it; and no deletion is held of a file
that has something, once its records are on their way.
-/

namespace CodeIndex.Scheduler

open Store (Tables Files Reads Lockstep)

/-! ## What the scheduler has heard -/

theorem mem_deferIn {deferred : List (String × Operation)} (hn : (deferred.map Prod.fst).Nodup)
    {path p : String} {op o : Operation} :
    (p, o) ∈ deferIn deferred path op ↔ p = path ∧ o = op ∨ p ≠ path ∧ (p, o) ∈ deferred := by
  induction deferred with
  | nil => simp [deferIn]
  | cons e rest ih =>
    obtain ⟨q, oq⟩ := e
    rw [List.map_cons, List.nodup_cons] at hn
    rw [deferIn]
    by_cases hq : q = path
    · subst hq
      have hrest : ∀ o, (q, o) ∉ rest := fun o h => hn.1 (List.mem_map.mpr ⟨_, h, rfl⟩)
      rw [if_pos (beq_self_eq_true q), List.mem_cons, List.mem_cons, Prod.mk.injEq, Prod.mk.injEq]
      by_cases hp : p = q
      · subst hp
        simp [hrest]
      · simp [hp]
    · rw [if_neg (by simpa using hq), List.mem_cons, List.mem_cons, ih hn.2, Prod.mk.injEq]
      by_cases hp : p = path
      · subst hp
        simp [Ne.symm hq]
      · simp [hp]

theorem nodup_deferIn {deferred : List (String × Operation)} (hn : (deferred.map Prod.fst).Nodup)
    (path : String) (op : Operation) : ((deferIn deferred path op).map Prod.fst).Nodup := by
  induction deferred with
  | nil => exact List.nodup_singleton _
  | cons e rest ih =>
    obtain ⟨q, oq⟩ := e
    rw [List.map_cons, List.nodup_cons] at hn
    rw [deferIn]
    by_cases hq : q = path
    · rw [if_pos (beq_iff_eq.mpr hq), List.map_cons, List.nodup_cons]
      exact ⟨hq ▸ hn.1, hn.2⟩
    · rw [if_neg (by simpa using hq), List.map_cons, List.nodup_cons]
      refine ⟨fun hmem => ?_, ih hn.2⟩
      obtain ⟨⟨p, o⟩, hpo, hpq⟩ := List.mem_map.mp hmem
      rcases (mem_deferIn hn.2).mp hpo with ⟨he, -⟩ | ⟨-, hold⟩
      · exact hq (hpq.symm.trans he)
      · exact hn.1 (hpq ▸ List.mem_map.mpr ⟨_, hold, rfl⟩)

theorem mem_collect {s : Scheduler} {path p : String} :
    p ∈ (s.collect path).pending ↔ p = path ∨ p ∈ s.pending := by
  unfold collect
  dsimp only
  split
  · rename_i h
    rw [List.contains_iff_mem] at h
    exact ⟨.inr, fun hp => hp.elim (fun e => e ▸ h) id⟩
  · rw [List.mem_append, List.mem_singleton, or_comm]

theorem mem_foldl_collect {changed : List String} {s : Scheduler} {p : String} :
    p ∈ (changed.foldl collect s).pending ↔ p ∈ changed ∨ p ∈ s.pending := by
  induction changed generalizing s with
  | nil => simp
  | cons path rest ih => rw [List.foldl_cons, ih, mem_collect, List.mem_cons, or_left_comm, or_assoc]

theorem deferred_foldl_collect (changed : List String) (s : Scheduler) :
    (changed.foldl collect s).deferred = s.deferred := by
  induction changed generalizing s with
  | nil => rfl
  | cons path rest ih => exact ih (s.collect path)

/-- What the scheduler makes of events during a cycle or a rebuild: the last event of each path is
deferred. -/
theorem heard_busy {s : Scheduler} (hbusy : s.isBusy = true)
    (hn : (s.deferred.map Prod.fst).Nodup) (files : Files) (given : List (String × Operation))
    (reported : Set String) :
    (given.foldl hear s).pending = s.pending ∧
      ((given.foldl hear s).deferred.map Prod.fst).Nodup ∧
      ∀ p ∈ given.foldl (Scene.heard files) reported,
        (p ∈ reported ∧ ∀ op, (p, op) ∈ (given.foldl hear s).deferred ↔ (p, op) ∈ s.deferred) ∨
          (p, .change) ∈ (given.foldl hear s).deferred ∨
          (p, .delete) ∈ (given.foldl hear s).deferred ∧ files p = [] := by
  induction given generalizing s reported with
  | nil => exact ⟨rfl, hn, fun p hp => .inl ⟨hp, fun _ => Iff.rfl⟩⟩
  | cons e rest ih =>
    obtain ⟨path, op⟩ := e
    have hhear : s.hear (path, op) = s.defer path op := by rw [hear, if_pos hbusy]
    obtain ⟨hpending, hnodup, hall⟩ := ih (s := s.hear (path, op))
      (by rw [hhear]; exact hbusy) (by rw [hhear]; exact nodup_deferIn hn path op)
      (Scene.heard files reported (path, op))
    rw [List.foldl_cons, List.foldl_cons]
    refine ⟨by rw [hpending, hhear]; rfl, hnodup, fun p hp => ?_⟩
    rcases hall p hp with ⟨hp, hsame⟩ | hrest
    · -- later events are of other paths, so that this one is the last of its own
      have hmem : ∀ o, (p, o) ∈ (s.hear (path, op)).deferred ↔
          p = path ∧ o = op ∨ p ≠ path ∧ (p, o) ∈ s.deferred := by
        intro o
        rw [hhear]
        exact mem_deferIn hn
      by_cases hpath : p = path
      · refine .inr ?_
        cases op with
        | change => exact .inl ((hsame _).mpr ((hmem _).mpr (.inl ⟨hpath, rfl⟩)))
        | delete =>
          rcases hp with ⟨-, hnone⟩ | ⟨hne, -⟩
          · exact .inr ⟨(hsame _).mpr ((hmem _).mpr (.inl ⟨hpath, rfl⟩)), hnone⟩
          · exact absurd hpath hne
      · refine .inl ⟨?_, fun o => ?_⟩
        · cases op with
          | change => exact hp.resolve_left hpath
          | delete => exact (hp.resolve_left fun h => hpath h.1).2
        · rw [hsame, hmem]
          simp [hpath]
    · exact .inr hrest

/-- What the scheduler makes of events otherwise: changed paths are collected. -/
theorem heard_idle {s : Scheduler} (hidle : s.isBusy = false) (files : Files)
    (given : List (String × Operation)) (reported : Set String) :
    (given.foldl hear s).deferred = s.deferred ∧
      (∀ p ∈ s.pending, p ∈ (given.foldl hear s).pending) ∧
      ∀ p ∈ given.foldl (Scene.heard files) reported,
        (p ∈ reported ∧ ∀ op, (p, op) ∉ given) ∨ p ∈ (given.foldl hear s).pending ∨
          (p, .delete) ∈ given ∧ files p = [] := by
  induction given generalizing s reported with
  | nil => exact ⟨rfl, fun _ hp => hp, fun p hp => .inl ⟨hp, fun _ => List.not_mem_nil⟩⟩
  | cons e rest ih =>
    obtain ⟨path, op⟩ := e
    have hbusy : ¬s.isBusy = true := by rw [hidle]; decide
    obtain ⟨hdeferred, hpending, hall⟩ := ih (s := s.hear (path, op))
      (by rw [(Machine.hear_flags s _).1, hidle]) (Scene.heard files reported (path, op))
    rw [List.foldl_cons, List.foldl_cons]
    cases op with
    | change =>
      have hhear : s.hear (path, .change) = s.collect path := by rw [hear, if_neg hbusy]
      refine ⟨by rw [hdeferred, hhear]; rfl, fun p hp => hpending p ?_, fun p hp => ?_⟩
      · rw [hhear, mem_collect]
        exact .inr hp
      · rcases hall p hp with ⟨hp, hnot⟩ | hp | ⟨hp, hnone⟩
        · by_cases hpath : p = path
          · refine .inr (.inl (hpending p ?_))
            rw [hhear, mem_collect]
            exact .inl hpath
          · refine .inl ⟨hp.resolve_left hpath, fun o ho => ?_⟩
            rcases List.mem_cons.mp ho with he | ho
            · exact hpath (Prod.mk.inj he).1
            · exact hnot o ho
        · exact .inr (.inl hp)
        · exact .inr (.inr ⟨List.mem_cons_of_mem _ hp, hnone⟩)
    | delete =>
      have hhear : s.hear (path, .delete) = s := by rw [hear, if_neg hbusy]
      rw [hhear] at hdeferred hpending hall ⊢
      refine ⟨hdeferred, hpending, fun p hp => ?_⟩
      rcases hall p hp with ⟨hp, hnot⟩ | hp | ⟨hp, hnone⟩
      · rcases hp with ⟨rfl, hnone⟩ | ⟨hne, hp⟩
        · exact .inr (.inr ⟨List.mem_cons_self, hnone⟩)
        · refine .inl ⟨hp, fun o ho => ?_⟩
          rcases List.mem_cons.mp ho with he | ho
          · exact hne (Prod.mk.inj he).1
          · exact hnot o ho
      · exact .inr (.inl hp)
      · exact .inr (.inr ⟨List.mem_cons_of_mem _ hp, hnone⟩)

/-! ## The places -/

namespace Machine

variable {σ : Type} {b : Backend σ} {v : View σ} {m m' : Machine σ} {t t' : Tables} {id : TaskId}
  {stage : Stage} {next : Option Stage} {work : Option Work} {p : String}

/-- What the extractor was asked about a path is what there still is, if its answer is waited for. -/
def IsCurrent (v : View σ) (m : Machine σ) (p : String) : Prop :=
  ∀ i (scan : Scan), m.At i scan.asking → v.asked m.world p = v.files m.world p

/-- No deletion of a path is deferred, unless its file has nothing. -/
def IsClean (v : View σ) (m : Machine σ) (p : String) : Prop :=
  v.files m.world p = [] ∨ (p, .delete) ∉ m.scheduler.deferred

/-- Where what is due to a path stands; the tables are those when all that was handed in is done. -/
inductive Due (v : View σ) (m : Machine σ) (t : Tables) (p : String) : Prop where
  | pending (h : p ∈ m.scheduler.pending)
  | deferredChange (h : (p, .change) ∈ m.scheduler.deferred)
  | deferredDelete (h : (p, .delete) ∈ m.scheduler.deferred) (hnone : v.files m.world p = [])
  | drainedChange (i : TaskId) (path : String) (rest : List (String × Operation)) (ending : Ending)
      (hat : m.At i (.drained path rest ending)) (h : (p, .change) ∈ rest)
  | drainedDelete (i : TaskId) (path : String) (rest : List (String × Operation)) (ending : Ending)
      (hat : m.At i (.drained path rest ending)) (h : (p, .delete) ∈ rest)
      (hnone : v.files m.world p = []) (hfresh : m.IsCurrent v p)
  | asked (i : TaskId) (scan : Scan) (hat : m.At i scan.asking) (h : p ∈ scan.scope)
      (hfresh : m.IsCurrent v p) (hclean : m.IsClean v p)
  | stored (h : t.stored p = (v.files m.world).shown p) (hfresh : m.IsCurrent v p)
      (hclean : m.IsClean v p)
      (hdrained : v.files m.world p = [] ∨ ∀ i path rest ending,
        m.At i (.drained path rest ending) → (p, .delete) ∉ rest)

/-- What two machines have in common as far as a path is concerned. -/
structure SameFor (v : View σ) (p : String) (m m' : Machine σ) : Prop where
  pending : p ∈ m.scheduler.pending → p ∈ m'.scheduler.pending
  deferred : ∀ op, (p, op) ∈ m'.scheduler.deferred ↔ (p, op) ∈ m.scheduler.deferred
  drained : ∀ i path rest ending,
    m'.At i (.drained path rest ending) ↔ m.At i (.drained path rest ending)
  asking : ∀ i (scan : Scan), m'.At i scan.asking ↔ m.At i scan.asking
  files : v.files m'.world p = v.files m.world p
  asked : v.asked m'.world p = v.asked m.world p

theorem SameFor.isFresh (h : SameFor v p m m') (hf : m.IsCurrent v p) : m'.IsCurrent v p := by
  intro i scan hat
  rw [h.files, h.asked]
  exact hf i scan ((h.asking i scan).mp hat)

theorem SameFor.isClean (h : SameFor v p m m') (hc : m.IsClean v p) : m'.IsClean v p := by
  unfold IsClean
  rw [h.files, h.deferred]
  exact hc

theorem Due.same (hd : Due v m t p) (h : SameFor v p m m') (ht : t'.stored p = t.stored p) :
    Due v m' t' p := by
  cases hd with
  | pending hp => exact .pending (h.pending hp)
  | deferredChange hp => exact .deferredChange ((h.deferred _).mpr hp)
  | deferredDelete hp hnone => exact .deferredDelete ((h.deferred _).mpr hp) (h.files.trans hnone)
  | drainedChange i path rest ending hat hp =>
    exact .drainedChange i path rest ending ((h.drained i path rest ending).mpr hat) hp
  | drainedDelete i path rest ending hat hp hnone hfresh =>
    exact .drainedDelete i path rest ending ((h.drained i path rest ending).mpr hat) hp
      (h.files.trans hnone) (h.isFresh hfresh)
  | asked i scan hat hp hfresh hclean =>
    exact .asked i scan ((h.asking i scan).mpr hat) hp (h.isFresh hfresh) (h.isClean hclean)
  | stored hp hfresh hclean hdrained =>
    refine .stored ?_ (h.isFresh hfresh) (h.isClean hclean) ?_
    · rw [ht, hp]
      exact Store.Files.shown_congr h.files.symm
    · rw [h.files]
      exact hdrained.imp_right fun hd i path rest ending hat =>
        hd i path rest ending ((h.drained i path rest ending).mp hat)

/-- Everything that is kept: the machine is steady, with at most one holder of the flag; events are
deferred only while the flag is set, one for each path; and what is due to each reported path is in one of
its places. -/
structure Settling (v : View σ) (m : Machine σ) (t : Tables) (reported : Set String) : Prop where
  steady : m.Steady
  holder : ∃ h, m.Holder h
  idle : m.scheduler.isBusy = false → m.scheduler.deferred = []
  nodup : (m.scheduler.deferred.map Prod.fst).Nodup
  lockstep : Lockstep t
  asked : ∀ i (scan : Scan), m.At i scan.asking → (v.asked m.world).IsLaidOut
  due : ∀ p ∈ reported, Due v m t p

theorem not_mem_of_not_threatened (h : p ∉ m.threatened v) (hfiles : v.files m.world p ≠ [])
    {i : TaskId} {path : String} {rest : List (String × Operation)} {ending : Ending}
    (hat : m.At i (.drained path rest ending)) : (p, .delete) ∉ rest := by
  intro hin
  obtain ⟨task, htask, -, hstage⟩ := hat
  refine h ⟨hfiles, task, htask, ?_⟩
  rw [hstage]
  exact List.contains_iff_mem.mpr hin

theorem stores_storing {scan : Scan} (h : p ∈ scan.scope) : scan.storing.stores p = true := by
  cases scan with
  | all => rfl
  | paths keys => exact List.contains_iff_mem.mpr h

/-- A threatened path is overtaken when a task comes to hand in its records. -/
theorem mem_overtaken (hn : m.Numbered) (hat : m.At id stage) (hstage : stage.stores p = false)
    {scan : Scan} (hscope : p ∈ scan.scope) (hat' : m'.At id scan.storing)
    (h : p ∈ m'.threatened v) : p ∈ m.overtaken v m' := by
  obtain ⟨task, htask, hid, hst⟩ := hat'
  refine ⟨h, task, htask, by rw [hst]; exact stores_storing hscope, fun u hu he => ?_⟩
  have hat'' : m.At id u.stage := ⟨u, hu, he.trans hid, rfl⟩
  rw [hn.stage_unique hat'' hat, hstage]

/-! ## Turns that begin or end nothing -/

theorem Moves.at_iff (h : Moves b id next work m m') {i : TaskId} {st : Stage} (hq : st ≠ .quiet)
    (hc : st ≠ .cycle) : m'.At i st ↔ i ≠ id ∧ m.At i st ∨ i = id ∧ next = some st := by
  constructor
  · intro hat
    rcases h.old hat with h | h | h | h
    · exact .inl h
    · exact .inr h
    · exact absurd h hq
    · exact absurd h hc
  · rintro (⟨hne, hat⟩ | ⟨rfl, hn⟩)
    · exact h.kept hne hat
    · exact h.here hn

/-- Where the turn's own task neither was nor goes, everything is as it was. -/
theorem Moves.at_same (h : Moves b id next work m m') (hn : m.Numbered) (hat : m.At id stage)
    {i : TaskId} {st : Stage} (hq : st ≠ .quiet) (hc : st ≠ .cycle) (hst : st ≠ stage)
    (hnext : next ≠ some st) : m'.At i st ↔ m.At i st := by
  rw [h.at_iff hq hc]
  constructor
  · rintro (⟨-, hat'⟩ | ⟨-, he⟩)
    · exact hat'
    · exact absurd he hnext
  · refine fun hat' => .inl ⟨?_, hat'⟩
    rintro rfl
    exact hst (hn.stage_unique hat' hat)

theorem Moves.at_drained (h : Moves b id next work m m') {i : TaskId} {path : String}
    {rest : List (String × Operation)} {ending : Ending} :
    m'.At i (.drained path rest ending) ↔
      i ≠ id ∧ m.At i (.drained path rest ending) ∨ i = id ∧ next = some (.drained path rest ending) :=
  h.at_iff nofun nofun

theorem asking_ne (scan : Scan) : scan.asking ≠ .quiet ∧ scan.asking ≠ .cycle := by
  cases scan <;> exact ⟨nofun, nofun⟩

theorem Moves.at_asking (h : Moves b id next work m m') {i : TaskId} (scan : Scan) :
    m'.At i scan.asking ↔ i ≠ id ∧ m.At i scan.asking ∨ i = id ∧ next = some scan.asking :=
  h.at_iff (asking_ne scan).1 (asking_ne scan).2

theorem asking_inj {scan scan' : Scan} (h : scan.asking = scan'.asking) : scan = scan' := by
  cases scan <;> cases scan' <;> cases h <;> rfl

theorem asking_ne_storing (scan scan' : Scan) : scan.asking ≠ scan'.storing := by
  cases scan <;> cases scan' <;> exact nofun

end Machine

end CodeIndex.Scheduler
