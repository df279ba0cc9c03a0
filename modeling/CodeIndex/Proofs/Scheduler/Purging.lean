import CodeIndex.Proofs.Scheduler.Rebuilding

/-!
# No deletion is lost

A path that the scheduler is told is gone stays with it until the store has purged the path: the deletion
is deferred, held by a drain, or handed to the worker.  Only while it is deferred can a change of the path
that is told since take its place.
-/

namespace CodeIndex.Scheduler

variable {σ : Type}

/-! ## Events that are heard -/

/-- A deletion stays deferred until a change of its path is heard. -/
theorem mem_deferred_hear {s : Scheduler} {p : String} (h : (p, .delete) ∈ s.deferred)
    {e : String × Operation} (he : e ≠ (p, .change)) : (p, .delete) ∈ (s.hear e).deferred := by
  obtain ⟨path, op⟩ := e
  unfold hear
  split
  · by_cases hp : p = path
    · subst hp
      cases op with
      | change => exact absurd rfl he
      | delete => exact mem_deferIn_self _ _ _
    · exact mem_deferIn_of_ne hp h
  · cases op <;> exact h

theorem mem_deferred_foldl_hear {s : Scheduler} {p : String} {given : List (String × Operation)}
    (h : (p, .delete) ∈ s.deferred) (hnot : (p, .change) ∉ given) :
    (p, .delete) ∈ (given.foldl hear s).deferred := by
  induction given generalizing s with
  | nil => exact h
  | cons e rest ih =>
    rw [List.mem_cons, not_or] at hnot
    exact ih (mem_deferred_hear h (Ne.symm hnot.1)) hnot.2

/-- A deletion that is heard during a cycle or a rebuild is deferred. -/
theorem mem_deferred_of_told {s : Scheduler} (hbusy : s.isBusy = true) {p : String}
    {later : List (String × Operation)} (earlier : List (String × Operation))
    (hnot : (p, .change) ∉ later) :
    (p, .delete) ∈ ((earlier ++ (p, .delete) :: later).foldl hear s).deferred := by
  rw [List.foldl_append, List.foldl_cons]
  refine mem_deferred_foldl_hear ?_ hnot
  rw [hear, if_pos ((foldl_hear_flags earlier s).2.trans hbusy)]
  exact mem_deferIn_self _ _ _

namespace Machine

variable {b : Backend σ} {m m' : Machine σ} {id : TaskId} {stage : Stage} {next : Option Stage}
  {work : Option Work} {p : String} {given : List (String × Operation)}

/-! ## What a turn keeps -/

theorem Discards.imp (h : m.Discards p)
    (hdeferred : (p, .delete) ∈ m.scheduler.deferred → (p, .delete) ∈ m'.scheduler.deferred)
    (hat : ∀ i path rest ending, m.At i (.drained path rest ending) →
      m'.At i (.drained path rest ending))
    (hjobs : ∀ job ∈ m.jobs, job ∈ m'.jobs) : m'.Discards p := by
  cases h with
  | deferred h => exact .deferred (hdeferred h)
  | drained i path rest ending hi h => exact .drained i path rest ending (hat _ _ _ _ hi) h
  | handed job hjob h => exact .handed job (hjobs job hjob) h

/-- A turn of a task that is no drain. -/
theorem Moves.discards (hm : Moves b id next work m m') (hn : m.Numbered) (hat : m.At id stage)
    (hst : stage.isDrain = false)
    (hdeferred : (p, .delete) ∈ m.scheduler.deferred → (p, .delete) ∈ m'.scheduler.deferred)
    (h : m.Discards p) : m'.Discards p := by
  refine h.imp hdeferred (fun i path rest ending hi => hm.kept ?_ hi) fun job hjob => ?_
  · rintro rfl
    rw [hn.stage_unique hat hi] at hst
    cases hst
  · rw [hm.jobs]
    exact List.mem_append_left _ hjob

/-- A drain keeps the deletions that it does not come to, and those of others. -/
theorem Drains.keeps_discards {ending : Ending} {rest : List (String × Operation)}
    (hd : Drains b id ending rest m m')
    (hown : ∀ path rest' ending', m.At id (.drained path rest' ending') → rest' = rest)
    (h : m.Discards p) : m'.Discards p := by
  obtain ⟨next, work, hm, -⟩ := hd.calm
  cases h with
  | deferred h => exact .deferred (by rw [hd.memory.1]; exact h)
  | drained i path rest' ending' hat h =>
    by_cases hi : i = id
    · subst hi
      exact hd.discards (hown _ _ _ hat ▸ h)
    · exact .drained i path rest' ending' (hm.kept hi hat) h
  | handed job hjob h =>
    refine .handed job ?_ h
    rw [hm.jobs]
    exact List.mem_append_left _ hjob

/-- What was deferred is drained at the end of a cycle or a rebuild. -/
theorem Concludes.discards (hc : Concludes b id m m') (hn : m.Numbered) (hat : m.At id stage)
    (hst : stage.isDrain = false) (h : m.Discards p) : m'.Discards p := by
  obtain ⟨ending, hd⟩ := hc
  have hrest : (m.update Scheduler.conclude).Discards p → m'.Discards p := by
    refine hd.keeps_discards fun path rest' ending' hdrained => ?_
    rw [hn.stage_unique hat hdrained] at hst
    cases hst
  cases h with
  | deferred h => exact hd.discards h
  | drained i path rest ending hi h => exact hrest (.drained i path rest ending hi h)
  | handed job hjob h => exact hrest (.handed job hjob h)

theorem Hears.discards {scan : Scan} (hh : Hears b id scan m m') (hn : m.Numbered)
    (hat : m.At id stage) (hst : stage.isDrain = false) (h : m.Discards p) : m'.Discards p := by
  have hworld : ∀ w : σ, ({ m with world := w } : Machine σ).Discards p :=
    fun w => h.imp (fun h => h) (fun _ _ _ _ hi => hi) fun _ hjob => hjob
  cases hh with
  | answered records w ha hs hm =>
    exact hm.discards (m := { m with world := w }) (hn.congr rfl rfl) hat hst
      (by rw [hs]; exact fun h => h) (hworld w)
  | failed t w ha hc =>
    exact hc.discards (m := { m with world := w }) (hn.congr rfl rfl) hat hst (hworld w)

/-- A turn in which no notices are given loses no deletion. -/
theorem Goes.discards (hg : Goes b id stage m m') (hn : m.Numbered) (hat : m.At id stage)
    (hst : isNotifying stage = false) (h : m.Discards p) : m'.Discards p := by
  have hbegun : ∀ (scan : Scan) (w : σ), (m.begun b scan w).Discards p :=
    fun scan w => h.imp (fun h => h) (fun _ _ _ _ hi => hi) fun _ hjob => hjob
  cases hg with
  | rests hr hs hm => exact hm.discards hn hat hr.not_isDrain (by rw [hs]; exact fun h => h) h
  | asks scan w hb hidle hw hs hm =>
    exact hm.discards (m := m.begun b scan w) (hn.congr rfl rfl) hat hb.not_isDrain
      (by rw [hs]; exact fun h => h) (hbegun scan w)
  | asksAndHears scan w hb hidle hw hg =>
    have hn' : (m.begun b scan w).Numbered := hn.congr rfl rfl
    have hm := Moves.suspend b hn' (hn.at_lt hat) scan.asking .answer
    exact hg.discards hm.numbered (hm.here rfl) (isDrain_asking scan)
      (hm.discards hn' hat hb.not_isDrain (fun h => h) (hbegun scan w))
  | hears scan hg => exact hg.discards hn hat (isDrain_asking scan) h
  | stored scan hc => exact hc.discards hn hat (isDrain_storing scan) h
  | drains hd =>
    exact hd.keeps_discards (fun _ _ _ hat' => (Stage.drained.inj (hn.stage_unique hat' hat)).2.1) h
  | notifies hst' hg hgiven =>
    rw [hst] at hst'
    cases hst'

/-- Notices lose no deletion of a path unless they tell that it has changed. -/
theorem Notifies.keeps_discards (hg : Notifies b id given m m') (hn : m.Numbered)
    (hat : m.At id stage) (hst : isNotifying stage = true) (hnot : (p, .change) ∉ given)
    (h : m.Discards p) : m'.Discards p := by
  have hdrain : stage.isDrain = false := by cases stage <;> first | rfl | cases hst
  obtain ⟨hs, next, work, hm⟩ := hg.moves
  refine hm.discards hn hat hdrain (fun h => ?_) h
  change (p, .delete) ∈ m'.scheduler.memory.deferred
  rw [hs]
  exact mem_deferred_foldl_hear h hnot

/-- A deletion that is told is deferred or handed to the worker. -/
theorem Notifies.discards {earlier later : List (String × Operation)}
    (hg : Notifies b id (earlier ++ (p, .delete) :: later) m m') (hnot : (p, .change) ∉ later) :
    m'.Discards p := by
  cases hg with
  | purge before path todo hidle hgiven hbefore hs hm =>
    -- the deletion that is handed in is the only one among the events
    have hmem : (p, Operation.delete) ∈ before ++ [(path, .delete)] :=
      hgiven ▸ List.mem_append_right _ List.mem_cons_self
    rcases List.mem_append.mp hmem with hmem | hmem
    · cases hbefore _ hmem
    · obtain ⟨rfl, -⟩ := Prod.mk.inj (List.mem_singleton.mp hmem)
      refine .handed ⟨id, .purge p⟩ ?_ rfl
      rw [hm.jobs]
      exact List.mem_append_right _ List.mem_cons_self
  | finish hgiven hs hm =>
    refine .deferred ?_
    change (p, .delete) ∈ m'.scheduler.memory.deferred
    rw [hs]
    have hbusy := hgiven.resolve_right fun hchanges =>
      nomatch hchanges _ (List.mem_append_right _ List.mem_cons_self)
    exact mem_deferred_of_told (s := m.scheduler.memory) hbusy earlier hnot

/-- A turn loses a deletion only if the scheduler is told that the path has changed. -/
theorem Discards.take (hs : m.Steady) (turn : Turn) (h : m.Discards p) :
    (m.take b turn).Discards p ∨ (p, .change) ∈ m.tells b turn := by
  obtain ⟨-, htake⟩ | ⟨t, ht, hg⟩ := goes_of_take (b := b) hs.numbered hs.accepts hs.plain turn
  · rw [htake]
    exact .inl h
  have hat := At.of_task? ht
  rw [tells, ht]
  by_cases hst : isNotifying t.stage = true
  · rw [or_iff_not_imp_right]
    exact fun hnot =>
      (notifies_of_take (b := b) hs ht hst).keeps_discards hs.numbered hat hst hnot h
  · exact .inl (hg.discards hs.numbered hat (Bool.eq_false_iff.mpr hst) h)

/-- A deletion that is told in a turn is not forgotten, unless a change is told afterwards. -/
theorem discards_of_tells (hs : m.Steady) {turn : Turn} {earlier later : List (String × Operation)}
    (h : m.tells b turn = earlier ++ (p, .delete) :: later) :
    (m.take b turn).Discards p ∨ (p, .change) ∈ later := by
  rw [or_iff_not_imp_right]
  intro hnot
  cases ht : m.task? turn.task with
  | none =>
    rw [tells, ht] at h
    simp at h
  | some t =>
    rw [tells, ht] at h
    dsimp only at h
    have hst : isNotifying t.stage = true := by
      rw [← Bool.not_eq_false]
      intro hst
      rw [toldFrom_eq_nil hst] at h
      simp at h
    have hg := notifies_of_take (b := b) hs ht hst
    rw [h] at hg
    exact hg.discards hnot

end Machine

open Machine

/-! ## Runs -/

namespace Scene

variable {b : Backend σ} {s : Scene σ} {p : String}

/-- A deletion of a path is not forgotten, or the worker is just purging the path. -/
def Discards (s : Scene σ) (p : String) : Prop :=
  s.machine.Discards p ∨ ∃ job, s.running = some job ∧ job.work = .purge p

def changed (b : Backend σ) (s : Scene σ) : List (Event σ) → List Work
  | [] => []
  | e :: rest => s.changedBy e ++ (s.step b e).changed b rest

theorem Discards.mono {s' : Scene σ} (h : s.Discards p) (hr : s'.running = s.running)
    (hm : s.machine.Discards p → s'.machine.Discards p) : s'.Discards p := by
  unfold Discards
  rw [hr]
  exact h.imp_left hm

/-- An event other than a turn makes the scheduler forget a deletion only if the store has purged the path
with it, or if it is a change of the path. -/
theorem Steps.discards {s' : Scene σ} {e : Event σ} (hsteps : Steps b s s' e)
    (hturn : ∀ n, e ≠ .turn n) (h : s.Discards p) :
    s'.Discards p ∨ .purge p ∈ s.changedBy e ∨ (p, .change) ∈ s.tells b e := by
  cases hsteps with
  | idles he hg hi hr =>
    refine .inl (h.mono hr fun h => h.imp ?_ (fun i path rest ending => (hi.at_iff _ _).mpr) ?_)
    · rw [hi.scheduler]
      exact fun h => h
    · rw [hi.jobs]
      exact fun _ hjob => hjob
  | @change path hx hmem hr =>
    by_cases hp : p = Path.key s.machine.root path
    · subst hp
      exact .inr (.inr List.mem_cons_self)
    · refine .inl (h.mono hr fun h => h.imp (fun h => ?_) (fun _ _ _ _ => hx.kept) ?_)
      · change (p, .delete) ∈ s'.machine.scheduler.memory.deferred
        rw [hmem]
        exact mem_deferred_hear (s := s.machine.scheduler.memory) h
          fun he => hp (Prod.mk.inj he).1.symm
      · rw [hx.jobs]
        exact fun _ hjob => hjob
  | call he hm hr =>
    refine .inl (h.mono hr fun h => ?_)
    rw [hm]
    exact h.imp (fun h => h) (fun _ _ _ _ hi => at_spawn.mpr (.inl hi)) fun _ hjob => hjob
  | turn m id stage hm hat hg hgoes hr => exact absurd rfl (hturn _)
  | pick job rest hjobs hidle hm hr =>
    -- the oldest job is now the one that the worker is doing
    rcases h with h | ⟨job', hjob', -⟩
    · unfold Discards
      rw [hm, hr]
      cases h with
      | deferred h => exact .inl (.inl (.deferred h))
      | drained i path rest' ending hi h => exact .inl (.inl (.drained i path rest' ending hi h))
      | handed job' hjob' h =>
        rw [hjobs] at hjob'
        rcases List.mem_cons.mp hjob' with rfl | hjob'
        · exact .inl (.inr ⟨_, rfl, h⟩)
        · exact .inl (.inl (.handed job' hjob' h))
    · rw [hidle] at hjob'
      cases hjob'
  | done job hjob hm hr =>
    rcases h with h | ⟨job', hjob', hwork⟩
    · refine .inl (.inl ?_)
      rw [hm]
      exact h.imp (fun h => h) (fun _ _ _ _ hi => at_wake.mpr hi) fun _ hjob => hjob
    · rw [hjob] at hjob'
      obtain rfl := Option.some.inj hjob'
      refine .inr (.inl ?_)
      rw [changedBy, hjob, Option.map_some, hwork]
      exact List.mem_cons_self
  | outside hm hr =>
    refine .inl (h.mono hr fun h => ?_)
    rw [hm]
    exact h.imp (fun h => h) (fun _ _ _ _ hi => hi) fun _ hjob => hjob

theorem discards_step (hs : s.machine.Steady) (e : Event σ) (h : s.Discards p) :
    (s.step b e).Discards p ∨ .purge p ∈ s.changedBy e ∨ (p, .change) ∈ s.tells b e := by
  cases e with
  | turn n =>
    rw [step, tells]
    cases s.machine.turns[n]? with
    | none => exact .inl h
    | some turn =>
      rcases h with h | h
      · have hwithout : (s.machine.without n).Discards p :=
          h.imp (fun h => h) (fun _ _ _ _ hi => hi) fun _ hjob => hjob
        exact (hwithout.take (steady_without hs n) turn).imp .inl .inr
      · exact .inl (.inr h)
  | _ => exact (steps_step hs _).discards (by simp) h

theorem discards_run (hs : s.machine.Steady) {events : List (Event σ)}
    (hstop : ∀ e ∈ events, e.isStop = false) (h : s.Discards p) :
    (s.run b events).Discards p ∨ .purge p ∈ s.changed b events ∨
      (p, .change) ∈ s.told b events := by
  induction events generalizing s with
  | nil => exact .inl h
  | cons e rest ih =>
    rw [List.forall_mem_cons] at hstop
    rw [changed, told]
    have hsteady := (steps_step (b := b) hs e).steady hs hstop.1
    rcases discards_step (b := b) hs e h with h | h | h
    · exact (ih hsteady hstop.2 h).imp_right
        (Or.imp (List.mem_append_right _) (List.mem_append_right _))
    · exact .inr (.inl (List.mem_append_left _ h))
    · exact .inr (.inr (List.mem_append_left _ h))

/-- A deletion that is told with an event is not forgotten, unless a change is told afterwards. -/
theorem discards_of_tells (hs : s.machine.Steady) {e : Event σ}
    {earlier later : List (String × Operation)}
    (h : s.tells b e = earlier ++ (p, .delete) :: later) :
    (s.step b e).Discards p ∨ (p, .change) ∈ later := by
  cases e with
  | change path =>
    obtain ⟨-, he⟩ | ⟨-, he⟩ := List.append_eq_singleton_iff.mp h.symm
    · cases (Prod.mk.inj (List.cons.inj he).1).2
    · cases he
  | turn n =>
    rw [tells] at h
    rw [step]
    cases hturn : s.machine.turns[n]? with
    | none =>
      rw [hturn] at h
      simp at h
    | some turn =>
      rw [hturn] at h
      exact (Machine.discards_of_tells (steady_without hs n) h).imp_left .inl
  | _ => simp [tells] at h

end Scene

/-- In every order of events after the start and before a stop: a deletion that the scheduler was told is
deferred, held by a drain or in the hands of the worker, unless the store has purged the path since, or the
scheduler was told since that the path has changed. -/
theorem no_deletion_lost (b : Backend σ) {m : Machine σ} (hm : m.IsFresh)
    {before after : List (Event σ)} {e : Event σ}
    (hstop : ∀ e' ∈ before ++ e :: after, e'.isStop = false) {path : String}
    {earlier later : List (String × Operation)}
    (htold : (Scene.run b { machine := m.start b } before).tells b e =
      earlier ++ (path, .delete) :: later) :
    let start : Scene σ := { machine := m.start b }
    let told := (start.run b before).step b e
    (start.run b (before ++ e :: after)).Discards path ∨ .purge path ∈ told.changed b after ∨
      (path, .change) ∈ later ++ told.told b after := by
  intro start told
  rw [List.forall_mem_append, List.forall_mem_cons] at hstop
  have hbefore : (start.run b before).machine.Orderly := Scene.orderly_run hm.orderly_start hstop.1
  rcases Scene.discards_of_tells hbefore.steady htold with h | h
  · have hrun := Scene.discards_run (b := b) (Scene.orderly_step hbefore hstop.2.1).steady hstop.2.2 h
    rw [← Scene.run_cons, ← Scene.run_append] at hrun
    exact hrun.imp_right (Or.imp_right (List.mem_append_right _))
  · exact .inr (.inr (List.mem_append_left _ h))

end CodeIndex.Scheduler
