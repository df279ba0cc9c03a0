import CodeIndex.Proofs.Scheduler.Holder

/-!
# What tasks wait for, and what paths wait for

A live task has what it waits for: its turn is among the turns, its timer among the timers, its job with
the worker or among the jobs, and the tasks whose end it waits for are live.  And while paths are
collected, some task is going to take them, or is going to see to it when it ends: a quiet time that was
not cancelled, a cycle that is to begin, a cycle or a rebuild under way, or a drain.  The last thing that a
task does in its turn is to wait or to end; until then it is left out of what is said of the others.
-/

namespace CodeIndex.Scheduler

def Task.rouses (t : Task) : Bool :=
  match t.stage with
  | .quiet => !t.isCancelled
  | .quietOver => !t.isCancelled
  | .cycle => true
  | .drained _ _ _ => true
  | stage => stage.isUnderWay

theorem Task.rouses_of_isUnderWay {t : Task} (h : t.stage.isUnderWay = true) : t.rouses = true := by
  unfold Task.rouses
  split <;> first | rfl | exact h | (rename_i hst; rw [hst] at h; cases h)

namespace Machine

variable {σ : Type} {b : Backend σ} {m m' : Machine σ} {r : Option Job} {turn : Option TaskId}
  {id i : TaskId} {t : Task}

/-- What a task waits for is there; the worker is doing a job or none. -/
def Tends (m : Machine σ) (running : Option Job) (t : Task) : Prop :=
  match t.wait with
  | .turn => ∃ turn ∈ m.turns, turn.task = t.id
  | .timer => ∃ timer ∈ m.timers, timer.task = t.id
  | .job => ∃ job ∈ running.toList ++ m.jobs, job.task = t.id
  | .ends ids => ids ≠ [] ∧ ids ⊆ m.ids
  | .answer => True
  | .message => True

/-- All tasks have what they wait for, but for the one whose turn it is. -/
def Tended (m : Machine σ) (running : Option Job) (turn : Option TaskId) : Prop :=
  ∀ t ∈ m.tasks, some t.id ≠ turn → m.Tends running t

/-- A task other than the one whose turn it is sees to the collected paths. -/
def Rouses (m : Machine σ) (turn : Option TaskId) : Prop :=
  ∃ t ∈ m.tasks, some t.id ≠ turn ∧ t.rouses = true

/-- The collected paths are seen to, unless there are none. -/
def Roused (m : Machine σ) (turn : Option TaskId) : Prop :=
  m.scheduler.pending ≠ [] → m.scheduler.isBusy = true ∨ m.Rouses turn

/-- No task is forgotten, and no path. -/
structure Watched (m : Machine σ) (running : Option Job) (turn : Option TaskId) : Prop where
  tended : m.Tended running turn
  roused : m.Roused turn

/-- A task is still tended where there is more of everything. -/
theorem Tends.mono {r' : Option Job} (h : m.Tends r t) (hids : m.ids ⊆ m'.ids)
    (hturns : ∀ x ∈ m.turns, x.task = t.id → x ∈ m'.turns)
    (htimers : ∀ x ∈ m.timers, x.task = t.id → x ∈ m'.timers)
    (hjobs : ∀ x ∈ r.toList ++ m.jobs, x.task = t.id → x ∈ r'.toList ++ m'.jobs) :
    m'.Tends r' t := by
  unfold Tends at h ⊢
  cases hw : t.wait with
  | turn =>
    rw [hw] at h
    obtain ⟨x, hx, he⟩ := h
    exact ⟨x, hturns x hx he, he⟩
  | timer =>
    rw [hw] at h
    obtain ⟨x, hx, he⟩ := h
    exact ⟨x, htimers x hx he, he⟩
  | job =>
    rw [hw] at h
    obtain ⟨x, hx, he⟩ := h
    exact ⟨x, hjobs x hx he, he⟩
  | ends ids =>
    rw [hw] at h
    exact ⟨h.1, List.Subset.trans h.2 hids⟩
  | answer => trivial
  | message => trivial

/-! ## Waking, cancelling and starting tasks -/

theorem Tends.wake {result : Option (Except Trouble Nat)} (h : m.Tends r t) (hi : t.id ≠ i) :
    (m.wake i result).Tends r t := by
  refine h.mono (fun _ hx => by rwa [ids_wake]) (fun x hx _ => List.mem_append_left _ hx) ?_
    fun x hx _ => hx
  intro x hx he
  refine List.mem_filter.mpr ⟨hx, ?_⟩
  rw [he, bne_iff_ne]
  exact hi

/-- A task that is woken has its turn, whatever it has waited for. -/
theorem tends_or_mem_of_wake {result : Option (Except Trouble Nat)}
    (ht : t ∈ (m.wake i result).tasks) :
    (m.wake i result).Tends r t ∨ t ∈ m.tasks ∧ t.id ≠ i := by
  obtain ⟨u, hu, rfl⟩ := List.mem_map.mp ht
  by_cases hi : u.id = i
  · rw [if_pos (beq_iff_eq.mpr hi)]
    exact .inl ⟨{ task := i, result }, List.mem_append_right _ List.mem_cons_self, hi.symm⟩
  · rw [if_neg (by simpa using hi)]
    exact .inr ⟨hu, hi⟩

theorem tended_wake {result : Option (Except Trouble Nat)}
    (h : ∀ t ∈ m.tasks, t.id ≠ i → some t.id ≠ turn → m.Tends r t) :
    (m.wake i result).Tended r turn := by
  intro t ht hne
  rcases tends_or_mem_of_wake ht with htends | ⟨ht, hi⟩
  · exact htends
  · exact (h t ht hi hne).wake hi

theorem Rouses.of_map {f : Task → Task} (hid : ∀ t, (f t).id = t.id)
    (hrouses : ∀ t, (f t).rouses = t.rouses) (htasks : m'.tasks = m.tasks.map f)
    (h : m.Rouses turn) : m'.Rouses turn := by
  obtain ⟨t, ht, hne, hr⟩ := h
  refine ⟨f t, ?_, ?_, ?_⟩
  · rw [htasks]
    exact List.mem_map_of_mem ht
  · rw [hid]
    exact hne
  · rw [hrouses]
    exact hr

theorem Rouses.wake {result : Option (Except Trouble Nat)} (h : m.Rouses turn) :
    (m.wake i result).Rouses turn :=
  h.of_map (fun t => by split <;> rfl) (fun t => by split <;> rfl) rfl

theorem Watched.wake {result : Option (Except Trouble Nat)} (h : m.Watched r turn) :
    (m.wake i result).Watched r turn where
  tended := tended_wake fun t ht _ => h.tended t ht
  roused hp := (h.roused hp).imp_right .wake

theorem Tended.map {f : Task → Task} (hid : ∀ t, (f t).id = t.id) (hwait : ∀ t, (f t).wait = t.wait)
    (h : m.Tended r turn) : ({ m with tasks := m.tasks.map f } : Machine σ).Tended r turn := by
  intro t ht hne
  obtain ⟨u, hu, rfl⟩ := List.mem_map.mp ht
  rw [hid] at hne
  have hids : ({ m with tasks := m.tasks.map f } : Machine σ).ids = m.ids := ids_of_map hid m.tasks
  have htends : ({ m with tasks := m.tasks.map f } : Machine σ).Tends r u :=
    (h u hu hne).mono (fun _ hx => by rwa [hids]) (fun _ hx _ => hx) (fun _ hx _ => hx)
      fun _ hx _ => hx
  unfold Tends at htends ⊢
  rwa [hid, hwait]

theorem Tended.cancel (h : m.Tended r turn) : (m.cancel i).Tended r turn := by
  have hmarked := h.map (f := fun t => if t.id == i then { t with isCancelled := true } else t)
    (fun t => by split <;> rfl) fun t => by split <;> rfl
  unfold Machine.cancel
  split
  · exact h
  · dsimp only
    split
    · exact hmarked
    · exact tended_wake fun t ht _ => hmarked t ht

theorem Tended.spawn {stage : Stage} (h : m.Tended r turn) : (m.spawn stage).Tended r turn := by
  intro t ht hne
  rcases List.mem_append.mp ht with ht | ht
  · refine (h t ht hne).mono ?_ (fun x hx _ => List.mem_append_left _ hx) (fun x hx _ => hx)
      fun x hx _ => hx
    exact List.map_subset _ (List.subset_append_left _ _)
  · obtain rfl := List.mem_singleton.mp ht
    exact ⟨_, List.mem_append_right _ List.mem_cons_self, rfl⟩

theorem Rouses.spawn {stage : Stage} (h : m.Rouses turn) : (m.spawn stage).Rouses turn := by
  obtain ⟨t, ht, hne, hr⟩ := h
  exact ⟨t, List.mem_append_left _ ht, hne, hr⟩

theorem Watched.spawn {stage : Stage} (h : m.Watched r turn) : (m.spawn stage).Watched r turn :=
  ⟨h.tended.spawn, fun hp => (h.roused hp).imp_right .spawn⟩

/-- A task that is started rouses if its stage does. -/
theorem rouses_spawn {stage : Stage} (hst : Task.rouses { id := m.created, stage, wait := .turn } = true)
    (hturn : ∀ id ∈ turn, id < m.created) : (m.spawn stage).Rouses turn :=
  ⟨_, List.mem_append_right _ List.mem_cons_self, fun he => Nat.lt_irrefl _ (hturn _ he.symm), hst⟩

/-! ## The quiet time -/

theorem Tended.restartQuiet (h : m.Tended r turn) : m.restartQuiet.Tended r turn := by
  unfold Machine.restartQuiet
  split
  · exact h
  · dsimp only
    split
    · exact Tended.spawn h.cancel
    · exact Tended.spawn h

theorem created_cancel : (m.cancel i).created = m.created := by
  unfold cancel
  split
  · rfl
  · dsimp only
    split <;> rfl

/-- Whatever quiet time was cancelled, another one begins. -/
theorem rouses_restartQuiet (ha : m.scheduler.accepts = true) (hturn : ∀ id ∈ turn, id < m.created) :
    m.restartQuiet.Rouses turn := by
  unfold restartQuiet
  rw [if_neg (by rw [ha]; decide)]
  dsimp only
  split
  · exact rouses_spawn rfl (by rw [created_cancel]; exact hturn)
  · exact rouses_spawn rfl hturn

theorem Tended.noteChange (h : m.Tended r turn) (path : String) :
    (m.noteChange b path).Tended r turn := by
  unfold Machine.noteChange
  dsimp only
  split
  · exact h
  · exact Tended.restartQuiet h

theorem roused_noteChange (ha : m.scheduler.accepts = true)
    (hturn : ∀ id ∈ turn, id < m.created) (path : String) :
    (m.noteChange b path).Roused turn := by
  intro _
  unfold noteChange
  dsimp only
  split
  · rename_i hbusy
    exact .inl hbusy
  · exact .inr (rouses_restartQuiet ha hturn)

/-! ## The end of a turn -/

theorem foldl_wake_tended (tasks : List Task)
    (h : ∀ t ∈ m.tasks, some t.id ≠ turn → t.id ∈ tasks.map Task.id ∨ m.Tends r t) :
    (tasks.foldl (fun m t => m.wake t.id none) m).Tended r turn := by
  induction tasks generalizing m with
  | nil => exact fun t ht hne => (h t ht hne).resolve_left nofun
  | cons u rest ih =>
    refine ih fun t ht hne => ?_
    rcases tends_or_mem_of_wake ht with htends | ⟨ht, hi⟩
    · exact .inr htends
    · refine (h t ht hne).imp (fun hmem => ?_) fun htends => htends.wake hi
      exact (List.mem_cons.mp hmem).resolve_left hi

theorem foldl_wake_rouses (tasks : List Task) (h : m.Rouses turn) :
    (tasks.foldl (fun m t => m.wake t.id none) m).Rouses turn := by
  induction tasks generalizing m with
  | nil => exact h
  | cons t rest ih => exact ih h.wake

theorem told_id (ended : TaskId) (t : Task) : (t.told ended).id = t.id := by
  unfold Task.told
  split <;> rfl

theorem told_rouses (ended : TaskId) (t : Task) : (t.told ended).rouses = t.rouses := by
  unfold Task.told
  split <;> rfl

/-- A task that is told of another's end has nothing left to wait for, or it waits as before. -/
theorem tends_told {outcomes : List (TaskId × Outcome)} (h : m.Tends r t) (hmem : t ∈ m.tasks)
    (hne : t.id ≠ id) :
    let rest := (m.tasks.filter (·.id != id)).map (Task.told id)
    (t.told id).id ∈ (rest.filter Task.isFree).map Task.id ∨
      ({ m with tasks := rest, outcomes } : Machine σ).Tends r (t.told id) := by
  intro rest
  have hids : ∀ i ∈ m.ids, i ≠ id → i ∈ ({ m with tasks := rest, outcomes } : Machine σ).ids := by
    intro i hi hne
    obtain ⟨u, hu, rfl⟩ := List.mem_map.mp hi
    rw [ids, ids_of_map (told_id id)]
    exact List.mem_map_of_mem (List.mem_filter.mpr ⟨hu, bne_iff_ne.mpr hne⟩)
  have htold : t.told id ∈ rest :=
    List.mem_map_of_mem (List.mem_filter.mpr ⟨hmem, bne_iff_ne.mpr hne⟩)
  unfold Tends at h
  cases hw : t.wait with
  | ends ids =>
    rw [hw] at h
    have he : t.told id = { t with wait := .ends (ids.filter (· != id)) } := by
      unfold Task.told
      rw [hw]
    by_cases hfree : ids.filter (· != id) = []
    · refine .inl (List.mem_map_of_mem (List.mem_filter.mpr ⟨htold, ?_⟩))
      rw [he, hfree]
      rfl
    · refine .inr ?_
      rw [he]
      refine ⟨hfree, fun i hi => ?_⟩
      rw [List.mem_filter, bne_iff_ne] at hi
      exact hids i (h.2 hi.1) hi.2
  | _ =>
    have he : t.told id = t := by
      unfold Task.told
      rw [hw]
    rw [hw] at h
    refine .inr ?_
    rw [he]
    unfold Tends
    rw [hw]
    exact h

/-- When its turn ends a task, the others are all there are. -/
theorem watched_finish {outcome : Outcome} (ht : m.Tended r (some id)) (hr : m.Roused (some id)) :
    (m.finish id outcome).Watched r none := by
  constructor
  · unfold finish
    refine foldl_wake_tended _ fun t htask _ => ?_
    obtain ⟨u, hu, rfl⟩ := List.mem_map.mp htask
    rw [List.mem_filter, bne_iff_ne] at hu
    exact tends_told (ht u hu.1 fun he => hu.2 (Option.some.inj he)) hu.1 hu.2
  · intro hp
    rw [scheduler_finish] at hp ⊢
    refine (hr hp).imp_right fun h => ?_
    unfold finish
    refine foldl_wake_rouses _ ?_
    obtain ⟨t, htask, hne, hrouses⟩ := h
    refine ⟨t.told id, List.mem_map_of_mem (List.mem_filter.mpr ⟨htask, ?_⟩), nofun, ?_⟩
    · rw [bne_iff_ne]
      exact fun he => hne (congrArg some he)
    · rw [told_rouses]
      exact hrouses

/-- A task waits from now on, and for the rest there is only more to wait for. -/
structure Enters (t : Task) (m m' : Machine σ) : Prop where
  tasks : m'.tasks = m.tasks.filter (·.id != t.id) ++ [t]
  turns : m.turns ⊆ m'.turns
  timers : m.timers ⊆ m'.timers
  jobs : m.jobs ⊆ m'.jobs
  scheduler : m'.scheduler = m.scheduler

theorem Enters.ids_subset (h : Enters t m m') : m.ids ⊆ m'.ids := by
  intro i hi
  obtain ⟨u, hu, rfl⟩ := List.mem_map.mp hi
  rw [ids, h.tasks, List.map_append, List.mem_append]
  by_cases he : u.id = t.id
  · exact .inr (by rw [he]; exact List.mem_cons_self)
  · exact .inl (List.mem_map_of_mem (List.mem_filter.mpr ⟨hu, bne_iff_ne.mpr he⟩))

theorem Enters.watched (h : Enters t m m') (ht : m.Tended r (some t.id))
    (hr : m.Roused (some t.id) ∨ t.rouses = true) (htends : m'.Tends r t) : m'.Watched r none := by
  constructor
  · intro u hu _
    rw [h.tasks, List.mem_append, List.mem_filter, bne_iff_ne, List.mem_singleton] at hu
    rcases hu with ⟨hu, hne⟩ | rfl
    · refine (ht u hu fun he => hne (Option.some.inj he)).mono h.ids_subset
        (fun x hx _ => h.turns hx) (fun x hx _ => h.timers hx) fun x hx _ => ?_
      exact (List.append_subset.mpr ⟨List.subset_append_left _ _,
        fun _ hj => List.mem_append_right _ (h.jobs hj)⟩) hx
    · exact htends
  · intro hp
    rw [h.scheduler] at hp ⊢
    rcases hr with hr | hr
    · refine (hr hp).imp_right fun ⟨u, hu, hne, hrouses⟩ => ⟨u, ?_, nofun, hrouses⟩
      rw [h.tasks, List.mem_append, List.mem_filter, bne_iff_ne]
      exact .inl ⟨hu, fun he => hne (congrArg some he)⟩
    · refine .inr ⟨t, ?_, nofun, hr⟩
      rw [h.tasks]
      exact List.mem_append_right _ List.mem_cons_self

theorem mem_ids_of_liveOf {x : Option TaskId} (h : m.liveOf x = some i) : i ∈ m.ids := by
  obtain ⟨-, hlive⟩ := Option.filter_eq_some_iff.mp h
  obtain ⟨t, ht⟩ := Option.isSome_iff_exists.mp hlive
  have hid : t.id = i := by simpa using List.find?_some ht
  exact hid ▸ List.mem_map_of_mem (List.mem_of_find?_eq_some ht)

section Enter

variable {stage : Stage}

/-- The task that waits at a stage after its turn, cancelled if it was. -/
def waiting (m : Machine σ) (id : TaskId) (stage : Stage) (wait : Wait) : Task :=
  { id, stage, wait, isCancelled := (m.task? id).any (·.isCancelled) }

theorem enters_suspend (m : Machine σ) (id : TaskId) (stage : Stage) (wait : Wait) :
    Enters (m.waiting id stage wait) m (m.suspend id stage wait) :=
  ⟨rfl, fun _ h => h, fun _ h => h, fun _ h => h, rfl⟩

theorem watched_answer (ht : m.Tended r (some id))
    (hr : m.Roused (some id) ∨ (m.waiting id stage .answer).rouses = true) :
    (m.suspend id stage .answer).Watched r none :=
  (enters_suspend m id stage .answer).watched ht hr trivial

theorem watched_awaitEnds {ids : List TaskId} (hids : ids ≠ []) (hlive : ids ⊆ m.ids)
    (ht : m.Tended r (some id))
    (hr : m.Roused (some id) ∨ (m.waiting id stage (.ends ids)).rouses = true) :
    (m.awaitEnds id stage ids).Watched r none :=
  have h := enters_suspend m id stage (.ends ids)
  h.watched ht hr ⟨hids, List.Subset.trans hlive h.ids_subset⟩

theorem watched_sleep {time : Nat} (ht : m.Tended r (some id))
    (hr : m.Roused (some id) ∨ (m.waiting id stage .timer).rouses = true) :
    (m.sleep id stage time).Watched r none :=
  Enters.watched (t := m.waiting id stage .timer)
    ⟨rfl, fun _ h => h, List.subset_append_left _ _, fun _ h => h, rfl⟩ ht hr
    ⟨_, List.mem_append_right _ List.mem_cons_self, rfl⟩

theorem watched_yield (ht : m.Tended r (some id))
    (hr : m.Roused (some id) ∨ (m.waiting id stage .turn).rouses = true) :
    (m.yield id stage).Watched r none :=
  Enters.watched (t := m.waiting id stage .turn)
    ⟨rfl, List.subset_append_left _ _, fun _ h => h, fun _ h => h, rfl⟩ ht hr
    ⟨_, List.mem_append_right _ List.mem_cons_self, rfl⟩

theorem watched_submit {work : Work} (ht : m.Tended r (some id))
    (hr : m.Roused (some id) ∨ (m.waiting id stage .job).rouses = true) :
    (m.submit id stage work).Watched r none :=
  Enters.watched (t := m.waiting id stage .job)
    ⟨rfl, fun _ h => h, fun _ h => h, List.subset_append_left _ _, rfl⟩ ht hr
    ⟨_, List.mem_append_right _ (List.mem_append_right _ List.mem_cons_self), rfl⟩

end Enter

end Machine

end CodeIndex.Scheduler
