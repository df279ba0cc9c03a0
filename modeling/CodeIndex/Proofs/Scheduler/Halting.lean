import CodeIndex.Proofs.Scheduler.Joining

/-!
# A scheduler that stops

From the moment at which a scheduler begins to stop, no cycle begins any more, and the only one that may
have begun is the one it waits for.  So when it has stopped, nothing has begun and no worker is left; and
that stays so.
-/

namespace CodeIndex.Scheduler

/-- Whether a task waits for the end of another. -/
def Task.Awaits (t : Task) (id : TaskId) : Prop :=
  ∃ ids, t.wait = .ends ids ∧ id ∈ ids

namespace Machine

variable {σ : Type} {b : Backend σ} {m m' m'' : Machine σ} {r : Option Job} {rs : List Job}
  {stop id i : TaskId} {only : Option TaskId} {st : Stage}

/-- No cycle may begin any more, and the only one that may have begun is the last one. -/
structure Halting (m : Machine σ) : Prop where
  phase : m.scheduler.phase.isHalted = true
  cancelled : ∀ t ∈ m.tasks, t.stage.role = .quiet → t.isCancelled = true
  rebuild : ∀ i st, m.At i st → st.role ≠ .rebuild
  begun : ∀ i, m.IsBegun i → m.cycle = some i

/-- A live task goes through the stages of stopping, and does not come to the last of them before what has
begun has ended. -/
structure Stops (m : Machine σ) (stop : TaskId) : Prop where
  live : stop ∈ m.ids
  waits : ∀ t ∈ m.tasks, t.id = stop →
    t.stage = .stopQuiet ∨ t.stage = .stopCycle ∧ ∀ i, m.IsBegun i → t.Awaits i

/-- There is no worker, and nothing has begun. -/
def Rested (m : Machine σ) : Prop :=
  m.scheduler.hasWorker = false ∧ ∀ i, ¬m.IsBegun i

/-! ## What leaves all tasks at their stages -/

/-- Tasks are woken, cancelled or ended; one of them, if one is named, lives on and still waits for the end
of all that it waited for and that has begun. -/
structure Spares (only : Option TaskId) (m m' : Machine σ) : Prop where
  tasks : ∀ t' ∈ m'.tasks, ∃ t ∈ m.tasks, t'.id = t.id ∧ t'.stage = t.stage ∧
    (t.isCancelled = true → t'.isCancelled = true) ∧
    (some t.id = only → ∀ i, m'.IsBegun i → t.Awaits i → t'.Awaits i)
  live : ∀ i, some i = only → i ∈ m.ids → i ∈ m'.ids
  cycle : m'.cycle = m.cycle
  phase : m.scheduler.phase.isHalted = true → m'.scheduler.phase.isHalted = true
  worker : m.scheduler.hasWorker = false → m'.scheduler.hasWorker = false

theorem Spares.at (h : Spares only m m') (hat : m'.At i st) : m.At i st := by
  obtain ⟨t', ht', rfl, rfl⟩ := hat
  obtain ⟨t, ht, hid, hstage, -⟩ := h.tasks t' ht'
  exact ⟨t, ht, hid.symm, hstage.symm⟩

theorem Spares.isBegun (h : Spares only m m') (hi : m'.IsBegun i) : m.IsBegun i :=
  hi.mono h.at

theorem Spares.trans (h : Spares only m m') (h' : Spares only m' m'') : Spares only m m'' where
  tasks t'' ht'' := by
    obtain ⟨t', ht', hid', hstage', hcancel', hwaits'⟩ := h'.tasks t'' ht''
    obtain ⟨t, ht, hid, hstage, hcancel, hwaits⟩ := h.tasks t' ht'
    refine ⟨t, ht, hid'.trans hid, hstage'.trans hstage, hcancel' ∘ hcancel, fun he i hi hw => ?_⟩
    exact hwaits' (hid ▸ he) i hi (hwaits he i (h'.isBegun hi) hw)
  live i he := h'.live i he ∘ h.live i he
  cycle := h'.cycle.trans h.cycle
  phase := h'.phase ∘ h.phase
  worker := h'.worker ∘ h.worker

theorem Spares.of_tasks (only : Option TaskId) (htasks : m'.tasks = m.tasks)
    (hcycle : m'.cycle = m.cycle)
    (hphase : m.scheduler.phase.isHalted = true → m'.scheduler.phase.isHalted = true)
    (hworker : m.scheduler.hasWorker = false → m'.scheduler.hasWorker = false) :
    Spares only m m' where
  tasks t ht := ⟨t, htasks ▸ ht, rfl, rfl, fun h => h, fun _ _ _ h => h⟩
  live i _ hi := by
    unfold ids
    rw [htasks]
    exact hi
  cycle := hcycle
  phase := hphase
  worker := hworker

theorem Spares.same (htasks : m'.tasks = m.tasks) (hcycle : m'.cycle = m.cycle)
    (hscheduler : m'.scheduler = m.scheduler) : Spares only m m' :=
  .of_tasks only htasks hcycle (fun h => hscheduler ▸ h) fun h => hscheduler ▸ h

theorem Spares.halting (h : Spares only m m') (hh : m.Halting) : m'.Halting where
  phase := h.phase hh.phase
  cancelled t' ht' hrole := by
    obtain ⟨t, ht, -, hstage, hcancel, -⟩ := h.tasks t' ht'
    exact hcancel (hh.cancelled t ht (hstage ▸ hrole))
  rebuild i st hat := hh.rebuild i st (h.at hat)
  begun i hi := h.cycle.trans (hh.begun i (h.isBegun hi))

theorem Spares.stops (h : Spares (some stop) m m') (hs : m.Stops stop) : m'.Stops stop where
  live := h.live stop rfl hs.live
  waits t' ht' hid := by
    obtain ⟨t, ht, hid', hstage, -, hwaits⟩ := h.tasks t' ht'
    have ht_id : t.id = stop := hid'.symm.trans hid
    rw [hstage]
    refine (hs.waits t ht ht_id).imp_right fun ⟨hst, hall⟩ => ⟨hst, fun i hi => ?_⟩
    exact hwaits (congrArg some ht_id) i hi (hall i (h.isBegun hi))

theorem Spares.rested (h : Spares only m m') (hr : m.Rested) : m'.Rested :=
  ⟨h.worker hr.1, fun i hi => hr.2 i (h.isBegun hi)⟩

/-- What changes tasks one by one keeps them where they are. -/
theorem Spares.map {f : Task → Task} (hid : ∀ t, (f t).id = t.id)
    (hstage : ∀ t, (f t).stage = t.stage)
    (hcancelled : ∀ t, t.isCancelled = true → (f t).isCancelled = true)
    (hwaits : ∀ t ∈ m.tasks, some t.id = only → ∀ i, t.Awaits i → (f t).Awaits i)
    (htasks : m'.tasks = m.tasks.map f) (hcycle : m'.cycle = m.cycle)
    (hscheduler : m'.scheduler = m.scheduler) : Spares only m m' where
  tasks t' ht' := by
    rw [htasks] at ht'
    obtain ⟨t, ht, rfl⟩ := List.mem_map.mp ht'
    exact ⟨t, ht, hid t, hstage t, hcancelled t, fun he i _ => hwaits t ht he i⟩
  live i _ hi := by
    rw [ids, htasks, ids_of_map hid]
    exact hi
  cycle := hcycle
  phase := hscheduler ▸ id
  worker := hscheduler ▸ id

theorem spares_wake {result : Option (Except Trouble Nat)}
    (h : ∀ t ∈ m.tasks, t.id = i → some i = only → ∀ j, ¬t.Awaits j) :
    Spares only m (m.wake i result) := by
  refine .map (f := fun t => if t.id == i then { t with wait := .turn } else t)
    (fun t => by split <;> rfl) (fun t => by split <;> rfl)
    (fun t hc => by split <;> exact hc) (fun t ht he j hj => ?_) rfl rfl rfl
  by_cases hi : t.id = i
  · exact absurd hj (h t ht hi (hi ▸ he) j)
  · rw [if_neg (by simpa using hi)]
    exact hj

theorem not_awaits_wake {result : Option (Except Trouble Nat)} {k : TaskId}
    (h : ∀ t ∈ m.tasks, t.id = k → ∀ j, ¬t.Awaits j) :
    ∀ t ∈ (m.wake i result).tasks, t.id = k → ∀ j, ¬t.Awaits j := by
  intro t ht hk j hj
  obtain ⟨u, hu, rfl⟩ := List.mem_map.mp ht
  by_cases hi : (u.id == i) = true
  · rw [if_pos hi] at hj
    obtain ⟨ids, hw, -⟩ := hj
    cases hw
  · rw [if_neg hi] at hk hj
    exact h u hu hk j hj

theorem spares_foldl_wake (tasks : List Task)
    (h : ∀ u ∈ tasks, ∀ t ∈ m.tasks, t.id = u.id → ∀ j, ¬t.Awaits j) :
    Spares only m (tasks.foldl (fun m t => m.wake t.id none) m) := by
  induction tasks generalizing m with
  | nil => exact .same rfl rfl rfl
  | cons u rest ih =>
    refine (spares_wake fun t ht hi _ => h u List.mem_cons_self t ht hi).trans (ih fun v hv => ?_)
    exact not_awaits_wake (h v (List.mem_cons_of_mem _ hv))

theorem spares_foldl_perform (jobs : List Job)
    (h : ∀ job ∈ jobs, ∀ t ∈ m.tasks, t.id = job.task → ∀ j, ¬t.Awaits j) :
    Spares only m (jobs.foldl (fun m job => m.perform b job) m) := by
  induction jobs generalizing m with
  | nil => exact .same rfl rfl rfl
  | cons job rest ih =>
    have hworld : Spares only m { m with world := (b.perform job.work m.world).2 } :=
      .same rfl rfl rfl
    refine (hworld.trans (spares_wake fun t ht hi _ => h job List.mem_cons_self t ht hi)).trans
      (ih fun x hx => ?_)
    exact not_awaits_wake (m := { m with world := (b.perform job.work m.world).2 })
      (h x (List.mem_cons_of_mem _ hx))

/-- A task that has something to come for it does not wait for the end of others. -/
theorem Called.not_awaits {turn : Option TaskId} (h : m.Called rs turn)
    (hi : 0 < (m.callers rs turn).count i) :
    ∀ t ∈ m.tasks, t.id = i → ∀ j, ¬t.Awaits j := by
  rintro t ht rfl j ⟨ids, hw, -⟩
  have hcalls := (h.fits t ht).calls
  rw [hw] at hcalls
  exact Nat.lt_irrefl _ (Nat.lt_of_lt_of_le hi hcalls)

theorem Called.job_not_awaits {turn : Option TaskId} (h : m.Called rs turn) :
    ∀ job ∈ rs ++ m.jobs, ∀ t ∈ m.tasks, t.id = job.task → ∀ j, ¬t.Awaits j := by
  intro job hjob
  refine h.not_awaits (List.count_pos_iff.mpr ?_)
  exact List.mem_append_right _ (List.mem_append_right _ (List.mem_map_of_mem hjob))

theorem spares_retire {turn : Option TaskId} (h : m.Called rs turn) :
    Spares only m (m.retire b) := by
  have hended : ∀ m : Machine σ, Spares only m
      (m.update fun s => { s with hasWorker := false, phase := .stopped }) :=
    fun m => .of_tasks only rfl rfl (fun _ => rfl) fun _ => rfl
  unfold retire
  split
  · have hjobs : Spares only m { m with jobs := [] } :=
      .same rfl rfl rfl
    refine (hjobs.trans (spares_foldl_perform m.jobs ?_)).trans (hended _)
    exact fun job hjob => h.job_not_awaits job (List.mem_append_right _ hjob)
  · exact hended m

theorem not_awaits_of_isFree {t : Task} (h : t.isFree = true) (j : TaskId) : ¬t.Awaits j := by
  rintro ⟨ids, hw, hj⟩
  rw [beq_iff_eq.mp h] at hw
  obtain rfl := Wait.ends.inj hw
  cases hj

theorem awaits_told {t : Task} {ended : TaskId} (h : t.Awaits i) (hne : i ≠ ended) :
    (t.told ended).Awaits i := by
  obtain ⟨ids, hw, hi⟩ := h
  unfold Task.told
  rw [hw]
  exact ⟨_, rfl, List.mem_filter.mpr ⟨hi, bne_iff_ne.mpr hne⟩⟩

/-- A task ends; those that waited for its end go on waiting for what else has begun. -/
theorem spares_finish {outcome : Outcome} (hn : m.Numbered) (hne : some id ≠ only) :
    Spares only m (m.finish id outcome) := by
  have htold : Spares only m
      { m with
        tasks := (m.tasks.filter (·.id != id)).map (Task.told id)
        outcomes := m.outcomes ++ [(id, outcome)] } := by
    refine ⟨fun t' ht' => ?_, fun i he hi => ?_, rfl, fun h => h, fun h => h⟩
    · obtain ⟨t, ht, rfl⟩ := List.mem_map.mp ht'
      refine ⟨t, (List.mem_filter.mp ht).1, told_id id t, told_stage id t, fun hc => ?_,
        fun _ i hi hw => awaits_told hw ?_⟩
      · rw [told_isCancelled]
        exact hc
      · -- what has begun is live, and the task that has ended is not
        rintro rfl
        obtain ⟨st, ⟨u', hu', hid, -⟩, -⟩ := hi
        obtain ⟨u, hu, rfl⟩ := List.mem_map.mp hu'
        rw [told_id] at hid
        exact bne_iff_ne.mp (List.mem_filter.mp hu).2 hid
    · obtain ⟨t, ht, rfl⟩ := List.mem_map.mp hi
      rw [ids, ids_of_map (told_id id)]
      refine List.mem_map_of_mem (List.mem_filter.mpr ⟨ht, bne_iff_ne.mpr ?_⟩)
      rintro rfl
      exact hne he
  have hnumbered : ({ m with
      tasks := (m.tasks.filter (·.id != id)).map (Task.told id)
      outcomes := m.outcomes ++ [(id, outcome)] } : Machine σ).Numbered := by
    refine hn.of_ids ?_ rfl
    rw [ids, ids_of_map (told_id id)]
    exact List.filter_sublist.map _
  unfold finish
  refine htold.trans (spares_foldl_wake _ fun u hu t ht he => ?_)
  rw [List.mem_filter] at hu
  rw [hnumbered.eq_of_id ht hu.1 he]
  exact not_awaits_of_isFree hu.2

theorem spares_cancel (h : ∀ t ∈ m.tasks, t.id = i → some i ≠ only) :
    Spares only m (m.cancel i) := by
  have hmarked : Spares only m
      { m with tasks := m.tasks.map fun t => if t.id == i then { t with isCancelled := true } else t } :=
    .map (fun t => by split <;> rfl) (fun t => by split <;> rfl)
      (fun t hc => by
        split
        · rfl
        · exact hc)
      (fun t _ _ j ⟨ids, hw, hj⟩ => ⟨ids, by split <;> exact hw, hj⟩) rfl rfl rfl
  unfold cancel
  split
  · exact .same rfl rfl rfl
  · dsimp only
    split
    · exact hmarked
    · refine hmarked.trans (spares_wake fun v hv hi he => ?_)
      obtain ⟨u, hu, rfl⟩ := List.mem_map.mp hv
      refine absurd he (h u hu ?_)
      rw [← hi]
      split <;> rfl

/-! ## Turns of other tasks -/

section Rests

variable {next : Stage} {wait : Wait} (htasks : m'.tasks = (m.suspend id next wait).tasks)
include htasks

theorem isBegun_rests (hbegun : next.isBegun = true → m.IsBegun id) (hi : m'.IsBegun i) :
    m.IsBegun i := by
  obtain ⟨st, hat, hst⟩ := hi
  rcases (at_rests htasks).mp hat with ⟨-, hat⟩ | ⟨rfl, rfl⟩
  · exact ⟨st, hat, hst⟩
  · exact hbegun hst

theorem Halting.rests (h : m.Halting) (hcycle : m'.cycle = m.cycle)
    (hscheduler : m'.scheduler = m.scheduler) (hacts : m.Acts id next.role)
    (hbegun : next.isBegun = true → m.IsBegun id) : m'.Halting where
  phase := hscheduler ▸ h.phase
  cancelled t ht hrole := by
    rw [htasks] at ht
    rcases List.mem_append.mp ht with ht | ht
    · exact h.cancelled t (List.mem_filter.mp ht).1 hrole
    · -- a quiet time that goes on was cancelled before
      obtain rfl := List.mem_singleton.mp ht
      obtain ⟨v, hv⟩ := exists_task? hacts.mem_ids
      have hmem := List.mem_of_find?_eq_some hv
      change (m.task? id).any (·.isCancelled) = true
      rw [hv]
      exact h.cancelled v hmem ((hacts.2 _ ⟨v, hmem, task?_id hv, rfl⟩).trans hrole)
  rebuild i st hat := by
    rcases (at_rests htasks).mp hat with ⟨-, hat⟩ | ⟨rfl, rfl⟩
    · exact h.rebuild i st hat
    · obtain ⟨st, hat⟩ := hacts.1
      exact hacts.2 st hat ▸ h.rebuild _ st hat
  begun i hi := hcycle.trans (h.begun i (isBegun_rests htasks hbegun hi))

theorem Stops.rests (h : m.Stops stop) (hne : id ≠ stop)
    (hbegun : next.isBegun = true → m.IsBegun id) : m'.Stops stop where
  live := by
    obtain ⟨st, hat⟩ := At.of_mem_ids h.live
    exact ((at_rests htasks).mpr (.inl ⟨Ne.symm hne, hat⟩)).mem_ids
  waits t ht hid := by
    rw [htasks] at ht
    rcases List.mem_append.mp ht with ht | ht
    · refine (h.waits t (List.mem_filter.mp ht).1 hid).imp_right fun ⟨hst, hall⟩ => ⟨hst, ?_⟩
      exact fun i hi => hall i (isBegun_rests htasks hbegun hi)
    · obtain rfl := List.mem_singleton.mp ht
      exact absurd hid hne

theorem Rested.rests (h : m.Rested) (hscheduler : m'.scheduler = m.scheduler)
    (hbegun : next.isBegun = true → m.IsBegun id) : m'.Rested :=
  ⟨hscheduler ▸ h.1, fun i hi => h.2 i (isBegun_rests htasks hbegun hi)⟩

end Rests

/-- What a turn keeps while the scheduler stops, and after. -/
structure Leaves (id : TaskId) (m m' : Machine σ) : Prop where
  halting : m'.Halting
  stops : ∀ stop, id ≠ stop → m.Stops stop → m'.Stops stop
  rested : m.Rested → m'.Rested

theorem Leaves.after (h : Leaves id m' m'') (hs : ∀ only, Spares only m m') : Leaves id m m'' :=
  ⟨h.halting, fun stop hne hh => h.stops stop hne ((hs _).stops hh),
    fun hr => h.rested ((hs none).rested hr)⟩

theorem leaves_rests {next : Stage} {wait : Wait} (h : m.Halting)
    (htasks : m'.tasks = (m.suspend id next wait).tasks) (hcycle : m'.cycle = m.cycle)
    (hscheduler : m'.scheduler = m.scheduler) (hacts : m.Acts id next.role)
    (hbegun : next.isBegun = true → m.IsBegun id) : Leaves id m m' :=
  ⟨h.rests htasks hcycle hscheduler hacts hbegun, fun _ hne hs => hs.rests htasks hne hbegun,
    fun hr => hr.rests htasks hscheduler hbegun⟩

theorem Halting.restartQuiet (h : m.Halting) : m.restartQuiet = m := by
  unfold Machine.restartQuiet
  rw [if_pos (by rw [not_accepts_of_isHalted h.phase]; rfl)]

/-- A turn leaves a halted scheduler halted.  The induction is on what the turn does, one thing after
another. -/
theorem Plays.leaves (h : Plays b r id st m m') (hc : m.Called r.toList (some id))
    (hacts : m.Acts id st.role) (hh : m.Halting) (hb : st.isBegun = true → m.IsBegun id) :
    Leaves id m m' := by
  induction h with
  | @notes st m m' f hworker hphase _ ih =>
    have hs : ∀ only, Spares only m (m.update f) :=
      fun only => .of_tasks only rfl rfl hphase fun hnone => hworker.trans hnone
    exact (ih (hc.congr rfl rfl rfl rfl rfl rfl) hacts ((hs none).halting hh) hb).after hs
  | @logs st m m' level name members _ ih =>
    have hs : ∀ only, Spares only m (m.log b level name members) :=
      fun only => .same rfl rfl rfl
    exact (ih (hc.congr rfl rfl rfl rfl rfl rfl) hacts ((hs none).halting hh) hb).after hs
  | rearms _ ih =>
    rw [hh.restartQuiet] at ih
    exact ih hc hacts hh hb
  | @cancels st m m' q hq _ ih =>
    have hs : ∀ only, (∀ t ∈ m.tasks, t.id = q → some q ≠ only) → Spares only m (m.cancel q) :=
      fun _ => spares_cancel
    have hk := ih (hc.cancel hq) (hacts.congr fun _ => at_cancel)
      ((hs none fun _ _ _ => nofun).halting hh) fun hst => (hb hst).mono at_cancel.mpr
    refine ⟨hk.halting, fun stop hne hs' => hk.stops stop hne ((hs _ fun t ht hid he => ?_).stops hs'),
      fun hr => hk.rested ((hs none fun _ _ _ => nofun).rested hr)⟩
    -- the last quiet time is not the task that stops the scheduler
    obtain rfl := Option.some.inj he
    have hrole := (hc.quiet q hq).2 _ ⟨t, ht, hid, rfl⟩
    rcases hs'.waits t ht hid with hst | ⟨hst, -⟩ <;>
    · rw [hst] at hrole
      cases hrole
  | begins scan w _ hst _ _ _ =>
    -- no cycle is accepted any more, and there is no rebuild
    rcases hst with ⟨-, ha⟩ | rfl
    · rw [not_accepts_of_isHalted hh.phase] at ha
      cases ha
    · obtain ⟨st, hat⟩ := hacts.1
      exact absurd (hacts.2 st hat) (hh.rebuild id st hat)
  | @fails m m' scan t w _ _ ih =>
    have hs : ∀ only, Spares only m { m with world := w } :=
      fun only => .same rfl rfl rfl
    refine (ih (hc.congr rfl rfl rfl rfl rfl rfl) ?_ ((hs none).halting hh) fun _ => ?_).after hs
    · rw [role_storing]
      exact hacts
    · exact hb (isBegun_asking scan)
  | @retires st m m' _ hr _ ih =>
    have hs : ∀ only, Spares only m (m.retire b) := fun _ => spares_retire hc
    refine (ih (hc.retire fun hw => ?_) (hacts.congr fun _ => at_retire) ((hs none).halting hh)
      fun hst => (hb hst).mono at_retire.mpr).after hs
    rw [hr hw]
    rfl
  | hands scan records w _ =>
    refine leaves_rests hh rfl rfl rfl ?_ fun _ => hb (isBegun_asking scan)
    rw [role_storing]
    exact hacts
  | purges next path _ hnext _ =>
    exact leaves_rests hh rfl rfl rfl (hnext.role ▸ hacts) (hb ∘ hnext.begun)
  | waits next wait timers hnext _ _ =>
    exact leaves_rests hh rfl rfl rfl (hnext.role ▸ hacts) (hb ∘ hnext.begun)
  | yields next hnext =>
    exact leaves_rests hh rfl rfl rfl (hnext.role ▸ hacts) (hb ∘ hnext.begun)
  | hatches hlive =>
    -- only a quiet time that was not cancelled ends in a cycle
    obtain ⟨t, ht, -, hst, hn⟩ := hlive
    rw [hh.cancelled t ht (by rw [hst]; rfl)] at hn
    cases hn
  | @ends st m outcome _ =>
    have hs : Spares none m (m.finish id outcome) := spares_finish hc.numbered nofun
    exact ⟨hs.halting hh,
      fun stop hne => (spares_finish hc.numbered fun he => hne (Option.some.inj he)).stops, hs.rested⟩

end Machine

end CodeIndex.Scheduler
