import CodeIndex.Proofs.Scheduler.Roles
import CodeIndex.Proofs.Scheduler.Tending
import Mathlib.Data.List.Perm.Basic

/-!
# What is to come for a task

Tasks come by what they wait for once and for nothing else: a live task has at most one turn or job to
come, and none while it waits for anything else.  So no task goes on before its job is done, or before the
tasks have ended whose end it waits for.  Together with this it is kept that only the last quiet time is
not cancelled.
-/

namespace CodeIndex.Scheduler.Machine

variable {σ : Type} {b : Backend σ} {m m' : Machine σ} {r : Option Job} {rs : List Job}
  {turn : Option TaskId} {id i : TaskId} {t : Task} {st stage : Stage}

/-- The tasks that have their turn now or to come, or a job: those that the worker has taken and the others
that were handed in. -/
def callers (m : Machine σ) (rs : List Job) (turn : Option TaskId) : List TaskId :=
  turn.toList ++ (m.turns.map Turn.task ++ (rs ++ m.jobs).map Job.task)

/-- A task fits what is to come for it. -/
structure Fits (m : Machine σ) (rs : List Job) (turn : Option TaskId) (t : Task) : Prop where
  role : t.stage.role ≠ .watch
  calls : (m.callers rs turn).count t.id ≤ t.wait.calls
  timers : ∀ x ∈ m.timers, x.task = t.id → t.wait.calls = 0 ∧ t.stage.role ≠ .stop
  current : t.stage.role = .quiet → t.isCancelled = false → m.quiet = some t.id
  jobless : t.stage.role = .quiet → t.wait ≠ .job

/-- No task has more to come than it waits for. -/
structure Called (m : Machine σ) (rs : List Job) (turn : Option TaskId) : Prop where
  numbered : m.Numbered
  known : ∀ i, 0 < (m.callers rs turn).count i → i < m.created
  timers_lt : ∀ x ∈ m.timers, x.task < m.created
  quiet : ∀ q, m.quiet = some q → q < m.created ∧ ∀ st, m.At q st → st.role = .quiet
  fits : ∀ t ∈ m.tasks, m.Fits rs turn t

theorem calls_le_one (w : Wait) : w.calls ≤ 1 := by
  cases w <;> first | exact Nat.zero_le 1 | exact Nat.le_refl 1

theorem Called.congr (h : m.Called rs turn) (htasks : m'.tasks = m.tasks)
    (hturns : m'.turns = m.turns) (hjobs : m'.jobs = m.jobs) (htimers : m'.timers = m.timers)
    (hcreated : m'.created = m.created) (hquiet : m'.quiet = m.quiet) : m'.Called rs turn := by
  have hcallers : m'.callers rs turn = m.callers rs turn := by
    rw [callers, hturns, hjobs]
    rfl
  refine ⟨h.numbered.congr htasks hcreated, ?_, ?_, ?_, fun t ht => ?_⟩
  · rw [hcallers, hcreated]
    exact h.known
  · rw [htimers, hcreated]
    exact h.timers_lt
  · unfold At
    rw [hquiet, hcreated, htasks]
    exact h.quiet
  · rw [htasks] at ht
    obtain ⟨hrole, hcalls, hx, hcurrent, hjobless⟩ := h.fits t ht
    exact ⟨hrole, hcallers ▸ hcalls, htimers ▸ hx, hquiet ▸ hcurrent, hjobless⟩

/-- It makes no difference which of the jobs the worker has taken. -/
theorem Called.handed {rs' jobs : List Job} (h : m.Called rs turn)
    (hjobs : rs' ++ jobs = rs ++ m.jobs) :
    ({ m with jobs } : Machine σ).Called rs' turn := by
  have hcallers : ({ m with jobs } : Machine σ).callers rs' turn = m.callers rs turn := by
    unfold callers
    rw [hjobs]
  refine ⟨h.numbered.congr rfl rfl, ?_, h.timers_lt, h.quiet, fun t ht => ?_⟩
  · rw [hcallers]
    exact h.known
  · obtain ⟨hrole, hcalls, htimers, hcurrent, hjobless⟩ := h.fits t ht
    exact ⟨hrole, hcallers ▸ hcalls, htimers, hcurrent, hjobless⟩

/-! ## Counting -/

theorem count_callers_some (m : Machine σ) (rs : List Job) (id i : TaskId) :
    (m.callers rs (some id)).count i = (m.callers rs none).count i + if id = i then 1 else 0 := by
  simp [callers, List.count_cons]

theorem count_callers_wake (m : Machine σ) (rs : List Job) (turn : Option TaskId) (id i : TaskId)
    (result : Option (Except Trouble Nat)) :
    ((m.wake id result).callers rs turn).count i =
      (m.callers rs turn).count i + if id = i then 1 else 0 := by
  simp [callers, wake, List.count_cons]
  omega

theorem count_callers_cons (m : Machine σ) (job : Job) (rs : List Job) (turn : Option TaskId)
    (i : TaskId) :
    (m.callers (job :: rs) turn).count i =
      (m.callers rs turn).count i + if job.task = i then 1 else 0 := by
  simp [callers, List.count_cons]
  omega

theorem count_callers_erase {n : Nat} {x : Turn} (hx : m.turns[n]? = some x) (i : TaskId) :
    (({ m with turns := m.turns.eraseIdx n } : Machine σ).callers rs (some x.task)).count i =
      (m.callers rs none).count i := by
  obtain ⟨hn, rfl⟩ := List.getElem?_eq_some_iff.mp hx
  have hperm := (List.getElem_cons_eraseIdx_perm hn).map Turn.task
  -- taking a turn out of the list and having it is the list in another order
  have hcount := hperm.count_eq i
  rw [List.map_cons, List.count_cons] at hcount
  simp only [callers, List.count_append, Option.toList_some, Option.toList_none, List.count_nil,
    List.count_singleton, ← hcount]
  omega

/-! ## The task whose turn it is -/

def Acts (m : Machine σ) (id : TaskId) (role : Role) : Prop :=
  (∃ st, m.At id st) ∧ ∀ st, m.At id st → st.role = role

theorem At.of_mem_ids (h : i ∈ m.ids) : ∃ st, m.At i st := by
  obtain ⟨t, ht, rfl⟩ := List.mem_map.mp h
  exact ⟨t.stage, t, ht, rfl, rfl⟩

theorem Acts.of_task? (hn : m.Numbered) (ht : m.task? i = some t) : m.Acts t.id t.stage.role :=
  ⟨⟨_, .of_task? ht⟩, fun _ hat => congrArg _ (hn.stage_unique hat (.of_task? ht))⟩

theorem Acts.mem_ids {role : Role} (h : m.Acts id role) : id ∈ m.ids := by
  obtain ⟨_, hat⟩ := h.1
  exact hat.mem_ids

theorem Acts.congr {role : Role} (h : m.Acts id role) (hat : ∀ st, m'.At id st ↔ m.At id st) :
    m'.Acts id role := by
  unfold Acts
  simp only [hat]
  exact h

/-- Its turn is all that there is for it. -/
theorem Called.own (h : m.Called rs (some id)) (hid : id ∈ m.ids) :
    (m.callers rs none).count id = 0 ∧ ∀ x ∈ m.timers, x.task ≠ id := by
  obtain ⟨t, ht, rfl⟩ := List.mem_map.mp hid
  obtain ⟨-, hcalls, htimers, -, -⟩ := h.fits t ht
  have hone := calls_le_one t.wait
  rw [count_callers_some, if_pos rfl] at hcalls
  refine ⟨by omega, fun x hx he => ?_⟩
  have := (htimers x hx he).1
  omega

theorem Called.own_jobs (h : m.Called rs (some id)) (hid : id ∈ m.ids) :
    ∀ job ∈ rs ++ m.jobs, job.task ≠ id := by
  rintro job hjob rfl
  have hzero := (h.own hid).1
  rw [callers, List.count_append, List.count_append] at hzero
  have hpos := List.count_pos_iff.mpr (List.mem_map_of_mem (f := Job.task) hjob)
  omega

theorem Called.forget (h : m.Called rs (some id)) : m.Called rs none := by
  have hle : ∀ i, (m.callers rs none).count i ≤ (m.callers rs (some id)).count i := fun i => by
    rw [count_callers_some]
    omega
  refine ⟨h.numbered, fun i hi => h.known i (Nat.lt_of_lt_of_le hi (hle i)), h.timers_lt, h.quiet,
    fun t ht => ?_⟩
  obtain ⟨hr, hc, hx, hcurrent, hjobless⟩ := h.fits t ht
  exact ⟨hr, Nat.le_trans (hle _) hc, hx, hcurrent, hjobless⟩

theorem Called.lt (h : m.Called rs (some id)) : id < m.created :=
  h.known id (by rw [count_callers_some, if_pos rfl]; omega)

/-! ## Waking -/

/-- A task may be woken when nothing else calls it. -/
theorem Called.woken {rs' : List Job} {result : Option (Except Trouble Nat)}
    (h : m.Called rs turn) (hi : i < m.created)
    (hother : ∀ j ≠ i, ((m.wake i result).callers rs' turn).count j = (m.callers rs turn).count j)
    (hself : i ∈ m.ids → ((m.wake i result).callers rs' turn).count i ≤ 1) :
    (m.wake i result).Called rs' turn where
  numbered := h.numbered.wake
  known j hj := by
    by_cases hne : j = i
    · exact hne ▸ hi
    · exact h.known j (hother j hne ▸ hj)
  timers_lt x hx := h.timers_lt x (List.mem_filter.mp hx).1
  quiet q hq := ⟨(h.quiet q hq).1, fun st hat => (h.quiet q hq).2 st (at_wake.mp hat)⟩
  fits t ht := by
    obtain ⟨u, hu, rfl⟩ := List.mem_map.mp ht
    obtain ⟨hrole, hcalls, htimers, hcurrent, hjobless⟩ := h.fits u hu
    have hrest : ∀ x ∈ (m.wake i result).timers, x ∈ m.timers ∧ x.task ≠ i := fun x hx => by
      rw [wake, List.mem_filter, bne_iff_ne] at hx
      exact hx
    by_cases he : u.id = i
    · rw [if_pos (beq_iff_eq.mpr he)]
      refine ⟨hrole, ?_, fun x hx hxi => absurd (hxi.trans he) (hrest x hx).2, hcurrent, nofun⟩
      rw [he]
      exact hself (he ▸ List.mem_map_of_mem hu)
    · rw [if_neg (by simpa using he)]
      refine ⟨hrole, ?_, fun x hx => htimers x (hrest x hx).1, hcurrent, hjobless⟩
      rw [hother _ he]
      exact hcalls

/-- A task that waits for neither a turn nor a job may be woken. -/
theorem Called.wake {result : Option (Except Trouble Nat)} (h : m.Called rs turn)
    (hi : i < m.created) (hfree : ∀ t ∈ m.tasks, t.id = i → t.wait.calls = 0) :
    (m.wake i result).Called rs turn := by
  refine h.woken hi (fun j hj => ?_) fun hmem => ?_
  · rw [count_callers_wake, if_neg (Ne.symm hj), Nat.add_zero]
  · obtain ⟨t, ht, rfl⟩ := List.mem_map.mp hmem
    have hcalls := (h.fits t ht).calls
    rw [hfree t ht rfl] at hcalls
    rw [count_callers_wake, if_pos rfl]
    omega

/-- A job that is done is a turn that is to come. -/
theorem Called.perform {job : Job} (h : m.Called (job :: rs) turn) :
    (m.perform b job).Called rs turn := by
  have hcount : ∀ (w : σ) result j,
      ((({ m with world := w } : Machine σ).wake job.task result).callers rs turn).count j =
        (m.callers (job :: rs) turn).count j := by
    intro w result j
    rw [count_callers_wake, count_callers_cons]
    rfl
  have h' : ∀ w : σ, ({ m with world := w } : Machine σ).Called (job :: rs) turn :=
    fun w => h.congr rfl rfl rfl rfl rfl rfl
  refine (h' _).woken (h.known _ ?_) (fun j _ => hcount _ _ j) fun hmem => ?_
  · rw [count_callers_cons, if_pos rfl]
    omega
  · obtain ⟨t, ht, he⟩ := List.mem_map.mp hmem
    have hcalls := (h.fits t ht).calls
    rw [hcount, ← he]
    exact Nat.le_trans hcalls (calls_le_one _)

theorem Called.foldl_perform (h : m.Called rs turn) :
    (rs.foldl (fun m job => m.perform b job) m).Called [] turn := by
  induction rs generalizing m with
  | nil => exact h
  | cons job rest ih => exact ih h.perform

theorem Called.retire (h : m.Called rs turn) (hrs : m.scheduler.hasWorker = true → rs = []) :
    (m.retire b).Called rs turn := by
  unfold Machine.retire
  split
  · rename_i hw
    obtain rfl := hrs hw
    have htaken : ({ m with jobs := [] } : Machine σ).Called m.jobs turn :=
      h.handed (List.append_nil _)
    exact Called.congr (m := m.performAll b) htaken.foldl_perform rfl rfl rfl rfl rfl rfl
  · exact h.congr rfl rfl rfl rfl rfl rfl

/-! ## Changing what tasks wait for, and cancelling -/

theorem Called.map (outcomes : List (TaskId × Outcome)) {f : Task → Task} (h : m.Called rs turn)
    (hid : ∀ t, (f t).id = t.id) (hstage : ∀ t, (f t).stage = t.stage)
    (hcalls : ∀ t, (f t).wait.calls = t.wait.calls)
    (hjob : ∀ t, (f t).wait = .job → t.wait = .job)
    (hcancelled : ∀ t, (f t).isCancelled = false → t.isCancelled = false) :
    ({ m with tasks := m.tasks.map f, outcomes } : Machine σ).Called rs turn where
  numbered := h.numbered.of_ids (by rw [ids, ids_of_map hid, ids]) rfl
  known := h.known
  timers_lt := h.timers_lt
  quiet q hq := ⟨(h.quiet q hq).1, fun st hat => (h.quiet q hq).2 st ((at_of_map hid hstage).mp hat)⟩
  fits t ht := by
    obtain ⟨u, hu, rfl⟩ := List.mem_map.mp ht
    obtain ⟨hr, hc, hx, hcurrent, hjobless⟩ := h.fits u hu
    refine ⟨?_, ?_, ?_, ?_, ?_⟩
    · rw [hstage]
      exact hr
    · rw [hid, hcalls]
      exact hc
    · rw [hid, hcalls, hstage]
      exact hx
    · rw [hid, hstage]
      exact fun hq hn => hcurrent hq (hcancelled u hn)
    · rw [hstage]
      exact fun hq hj => hjobless hq (hjob u hj)

/-- The last quiet time may be cancelled: if it waits for anything but its turn, then not for a job. -/
theorem Called.cancel (h : m.Called rs turn) (hq : m.quiet = some i) : (m.cancel i).Called rs turn := by
  have hmarked := h.map m.outcomes
    (f := fun t => if t.id == i then { t with isCancelled := true } else t)
    (fun t => by split <;> rfl) (fun t => by split <;> rfl) (fun t => by split <;> rfl)
    (fun t => by split <;> exact id) fun t hn => by
      split at hn
      · cases hn
      · exact hn
  unfold Machine.cancel
  split
  · exact h
  · rename_i t htask
    dsimp only
    split
    · exact hmarked
    · rename_i hturn
      -- it sleeps: a quiet time never has a job
      refine hmarked.wake (h.quiet i hq).1 fun v hv he => ?_
      obtain ⟨u, hu, rfl⟩ := List.mem_map.mp hv
      have hui : u.id = i := by
        rw [← he]
        split <;> rfl
      obtain rfl : u = t :=
        h.numbered.eq_of_id hu (List.mem_of_find?_eq_some htask) (hui.trans (task?_id htask).symm)
      have hrole := (h.quiet i hq).2 _ ⟨u, hu, hui, rfl⟩
      have hjob := (h.fits u hu).jobless hrole
      rw [if_pos (beq_iff_eq.mpr hui)]
      cases hw : u.wait with
      | turn => exact absurd (beq_iff_eq.mpr hw) hturn
      | job => exact absurd hw hjob
      | _ => rfl

/-! ## Starting tasks -/

/-- A new task is called by its first turn, and a new quiet time supersedes all others. -/
theorem Called.spawns {q c : Option TaskId} (h : m.Called rs turn) (hrole : stage.role ≠ .watch)
    (hq : q = m.quiet ∧ stage.role ≠ .quiet ∨ q = some m.created ∧ stage.role = .quiet ∧
      ∀ t ∈ m.tasks, t.stage.role = .quiet → t.isCancelled = true) :
    ({ m.spawn stage with quiet := q, cycle := c } : Machine σ).Called rs turn := by
  have hcount : ∀ i,
      (({ m.spawn stage with quiet := q, cycle := c } : Machine σ).callers rs turn).count i =
        (m.callers rs turn).count i + if m.created = i then 1 else 0 := by
    intro i
    simp [callers, spawn, List.count_cons]
    omega
  -- the new number is not known to anyone yet
  have hnone : (m.callers rs turn).count m.created = 0 := by
    by_contra hne
    exact Nat.lt_irrefl _ (h.known _ (Nat.pos_of_ne_zero hne))
  refine ⟨h.numbered.spawn.congr rfl rfl, fun i hi => ?_, fun x hx => ?_, fun i hi => ?_,
    fun t ht => ?_⟩
  · rw [hcount] at hi
    change i < m.created + 1
    by_cases he : m.created = i
    · exact he ▸ Nat.lt_succ_self _
    · rw [if_neg he, Nat.add_zero] at hi
      exact Nat.lt_succ_of_lt (h.known i hi)
  · exact Nat.lt_succ_of_lt (h.timers_lt x hx)
  · change q = some i at hi
    have hat : ∀ st, ({ m.spawn stage with quiet := q, cycle := c } : Machine σ).At i st →
        m.At i st ∨ i = m.created ∧ st = stage := fun st => at_spawn.mp
    rcases hq with ⟨rfl, -⟩ | ⟨rfl, hquiet, -⟩
    · obtain ⟨hlt, hst⟩ := h.quiet i hi
      refine ⟨Nat.lt_succ_of_lt hlt, fun st hs => ?_⟩
      rcases hat st hs with hs | ⟨he, -⟩
      · exact hst st hs
      · exact absurd hlt (he ▸ Nat.lt_irrefl _)
    · obtain rfl := Option.some.inj hi
      refine ⟨Nat.lt_succ_self _, fun st hs => ?_⟩
      rcases hat st hs with hs | ⟨-, rfl⟩
      · exact absurd (h.numbered.at_lt hs) (Nat.lt_irrefl _)
      · exact hquiet
  · rcases List.mem_append.mp ht with ht | ht
    · have hlt := h.numbered.lt _ (List.mem_map_of_mem ht)
      obtain ⟨hr, hc, hx, hcurrent, hjobless⟩ := h.fits t ht
      refine ⟨hr, ?_, hx, fun hst hn => ?_, hjobless⟩
      · rw [hcount, if_neg (Nat.ne_of_gt hlt), Nat.add_zero]
        exact hc
      · rcases hq with ⟨rfl, -⟩ | ⟨-, -, hall⟩
        · exact hcurrent hst hn
        · rw [hall t ht hst] at hn
          cases hn
    · obtain rfl := List.mem_singleton.mp ht
      refine ⟨hrole, ?_, fun x hx he => ?_, fun hst _ => ?_, fun _ hw => by cases hw⟩
      · have hone := hcount m.created
        rw [if_pos rfl, hnone] at hone
        exact Nat.le_of_eq hone
      · have := h.timers_lt x hx
        rw [he] at this
        exact absurd this (Nat.lt_irrefl _)
      · rcases hq with ⟨-, hne⟩ | ⟨rfl, -, -⟩
        · exact absurd hst hne
        · rfl

theorem Called.spawn (h : m.Called rs turn) (hrole : stage.role ≠ .watch)
    (hquiet : stage.role ≠ .quiet) : (m.spawn stage).Called rs turn :=
  h.spawns (q := m.quiet) (c := m.cycle) hrole (.inl ⟨rfl, hquiet⟩)

theorem isCancelled_cancel (ht : t ∈ (m.cancel i).tasks) (hid : t.id = i) :
    t.isCancelled = true := by
  unfold cancel at ht
  split at ht
  · rename_i hnone
    refine absurd (beq_iff_eq.mpr hid) (List.find?_eq_none.mp hnone t ht)
  · -- marked first, and woken then or not
    have hmarked : ∀ v ∈ m.tasks.map fun u => if u.id == i then { u with isCancelled := true } else u,
        v.id = i → v.isCancelled = true := by
      intro v hv hvi
      obtain ⟨u, -, rfl⟩ := List.mem_map.mp hv
      split at hvi
      · rename_i hui
        rw [if_pos hui]
      · rename_i hui
        exact absurd (beq_iff_eq.mpr hvi) hui
    dsimp only at ht
    split at ht
    · exact hmarked t ht hid
    · obtain ⟨v, hv, rfl⟩ := List.mem_map.mp ht
      have hvi : v.id = i := by
        rw [← hid]
        split <;> rfl
      rw [if_pos (beq_iff_eq.mpr hvi)]
      exact hmarked v hv hvi

theorem liveOf_of_mem (h : i ∈ m.ids) : m.liveOf (some i) = some i := by
  obtain ⟨t, ht⟩ := exists_task? h
  refine Option.filter_eq_some_iff.mpr ⟨rfl, ?_⟩
  rw [isLive, ht]
  rfl

/-- When the last quiet time is over, any other one was cancelled. -/
theorem Called.cancelled_of_quiet (h : m.Called rs turn) (hnone : m.liveOf m.quiet = none) :
    ∀ t ∈ m.tasks, t.stage.role = .quiet → t.isCancelled = true := by
  intro t ht hst
  by_contra hn
  rw [Bool.not_eq_true] at hn
  rw [(h.fits t ht).current hst hn, liveOf_of_mem (List.mem_map_of_mem ht)] at hnone
  cases hnone

theorem quiet_cancel : (m.cancel i).quiet = m.quiet := by
  unfold cancel
  split
  · rfl
  · dsimp only
    split <;> rfl

theorem Called.restartQuiet (h : m.Called rs turn) : m.restartQuiet.Called rs turn := by
  unfold Machine.restartQuiet
  split
  · exact h
  · dsimp only
    split
    · rename_i q hq
      have hsome : m.quiet = some q := (Option.filter_eq_some_iff.mp hq).1
      have hc := h.cancel hsome
      -- any other quiet time was cancelled before, and now this one is
      refine hc.spawns (c := (m.cancel q).cycle) nofun (.inr ⟨rfl, rfl, fun t ht hst => ?_⟩)
      by_contra hn
      rw [Bool.not_eq_true] at hn
      have he := (hc.fits t ht).current hst hn
      rw [quiet_cancel, hsome] at he
      rw [isCancelled_cancel ht (Option.some.inj he).symm] at hn
      cases hn
    · rename_i hnone
      exact h.spawns (c := m.cycle) nofun (.inr ⟨rfl, rfl, h.cancelled_of_quiet hnone⟩)

/-! ## The end of a turn -/

theorem at_rests {next : Stage} {wait : Wait} (htasks : m'.tasks = (m.suspend id next wait).tasks) :
    m'.At i st ↔ i ≠ id ∧ m.At i st ∨ i = id ∧ st = next := by
  have he : m'.At i st ↔ (m.suspend id next wait).At i st := by
    unfold At
    rw [htasks]
  rw [he, at_suspend]

/-- A task that comes to rest is called by what it waits for, and by nothing else. -/
theorem Called.rests {next : Stage} {wait : Wait} (h : m.Called rs (some id))
    (hacts : m.Acts id next.role) (htasks : m'.tasks = (m.suspend id next wait).tasks)
    (hcreated : m'.created = m.created) (hquiet : m'.quiet = m.quiet)
    (hcount : ∀ i, (m'.callers rs none).count i =
      (m.callers rs none).count i + if id = i then wait.calls else 0)
    (htimers : ∀ x ∈ m'.timers,
      x ∈ m.timers ∨ x.task = id ∧ wait.calls = 0 ∧ next.role ≠ .stop)
    (hjob : next.role = .quiet → wait ≠ .job) : m'.Called rs none := by
  obtain ⟨hnone, hno⟩ := h.own hacts.mem_ids
  refine ⟨(h.numbered.suspend h.lt).congr htasks hcreated, fun i hi => ?_, fun x hx => ?_,
    fun q hq => ?_, fun t ht => ?_⟩
  · rw [hcreated]
    rw [hcount] at hi
    by_cases he : id = i
    · exact he ▸ h.lt
    · rw [if_neg he, Nat.add_zero] at hi
      exact h.known i (by rw [count_callers_some]; omega)
  · rw [hcreated]
    rcases htimers x hx with hx | ⟨he, -⟩
    · exact h.timers_lt x hx
    · exact he ▸ h.lt
  · rw [hquiet] at hq
    obtain ⟨hlt, hst⟩ := h.quiet q hq
    refine ⟨hcreated ▸ hlt, fun st hs => ?_⟩
    rcases (at_rests htasks).mp hs with ⟨-, hs⟩ | ⟨rfl, rfl⟩
    · exact hst st hs
    · -- the task itself has the role that it had
      obtain ⟨st', hs'⟩ := hacts.1
      rw [← hacts.2 st' hs']
      exact hst st' hs'
  · rw [htasks] at ht
    rcases List.mem_append.mp ht with ht | ht
    · rw [List.mem_filter, bne_iff_ne] at ht
      obtain ⟨ht, hne⟩ := ht
      obtain ⟨hr, hc, hx, hcurrent, hjobless⟩ := h.fits t ht
      rw [count_callers_some] at hc
      refine ⟨hr, ?_, fun x hm he => ?_, by rw [hquiet]; exact hcurrent, hjobless⟩
      · rw [hcount, if_neg (Ne.symm hne)]
        omega
      · rcases htimers x hm with hm | ⟨hxid, -⟩
        · exact hx x hm he
        · exact absurd (he.symm.trans hxid) hne
    · obtain rfl := List.mem_singleton.mp ht
      obtain ⟨u, hu, rfl⟩ := List.mem_map.mp hacts.mem_ids
      have hurole := hacts.2 _ ⟨u, hu, rfl, rfl⟩
      refine ⟨hurole ▸ (h.fits u hu).role, ?_, fun x hm he => ?_, fun hst hn => ?_, hjob⟩
      · dsimp only
        refine Nat.le_of_eq ?_
        rw [hcount, if_pos rfl, hnone, Nat.zero_add]
      · rcases htimers x hm with hm | ⟨-, hok⟩
        · exact absurd he (hno x hm)
        · exact hok
      · -- a task that goes on to wait is cancelled if it was
        dsimp only at hn ⊢
        rw [h.numbered.task?_of_mem hu] at hn
        rw [hquiet]
        exact (h.fits u hu).current (hurole.trans hst) hn

/-- Tasks that nothing calls may be woken one after another. -/
theorem Called.foldl_wake (tasks : List Task) (h : m.Called rs turn) (hsub : tasks.Sublist m.tasks)
    (hfree : ∀ t ∈ tasks, t.wait.calls = 0) :
    (tasks.foldl (fun m t => m.wake t.id none) m).Called rs turn := by
  have hnodup : (tasks.map Task.id).Nodup := h.numbered.nodup.sublist (hsub.map _)
  have hwaits : ∀ u ∈ tasks, ∀ t ∈ m.tasks, t.id = u.id → t.wait.calls = 0 := by
    intro u hu t ht he
    rw [h.numbered.eq_of_id ht (hsub.subset hu) he]
    exact hfree u hu
  have hids : ∀ u ∈ tasks, u.id ∈ m.ids := fun u hu => List.mem_map_of_mem (hsub.subset hu)
  clear hsub hfree
  induction tasks generalizing m with
  | nil => exact h
  | cons u rest ih =>
    rw [List.map_cons, List.nodup_cons] at hnodup
    have hu := hids u List.mem_cons_self
    refine ih (h.wake (h.numbered.lt _ hu) (hwaits u List.mem_cons_self)) hnodup.2 ?_ ?_
    · -- the tasks that are still to be woken wait as before
      intro v hv t ht he
      obtain ⟨w, hw, rfl⟩ := List.mem_map.mp ht
      have hne : w.id ≠ u.id := by
        intro hwu
        rw [if_pos (beq_iff_eq.mpr hwu)] at he
        exact hnodup.1 (hwu ▸ he ▸ List.mem_map_of_mem hv)
      rw [if_neg (by simpa using hne)] at he ⊢
      exact hwaits v (List.mem_cons_of_mem _ hv) w hw he
    · intro v hv
      rw [ids_wake]
      exact hids v (List.mem_cons_of_mem _ hv)

theorem told_stage (ended : TaskId) (t : Task) : (t.told ended).stage = t.stage := by
  unfold Task.told
  split <;> rfl

theorem told_isCancelled (ended : TaskId) (t : Task) :
    (t.told ended).isCancelled = t.isCancelled := by
  unfold Task.told
  split <;> rfl

theorem wait_of_told_job {ended : TaskId} (h : (t.told ended).wait = .job) : t.wait = .job := by
  unfold Task.told at h
  split at h
  · cases h
  · exact h

theorem calls_told (ended : TaskId) (t : Task) : (t.told ended).wait.calls = t.wait.calls := by
  unfold Task.told
  split
  · rename_i hw
    rw [hw]
    rfl
  · rfl

theorem Called.finish (outcome : Outcome) (h : m.Called rs (some id)) :
    (m.finish id outcome).Called rs none := by
  have hforget := h.forget
  have hothers : ({ m with tasks := m.tasks.filter (·.id != id) } : Machine σ).Called rs none := by
    refine ⟨h.numbered.of_ids (List.filter_sublist.map _) rfl, hforget.known, h.timers_lt,
      fun q hq => ⟨(h.quiet q hq).1, fun st hat => (h.quiet q hq).2 st ?_⟩, fun t ht => ?_⟩
    · obtain ⟨t, ht, he⟩ := hat
      exact ⟨t, (List.mem_filter.mp ht).1, he⟩
    · obtain ⟨hr, hc, hx, hcurrent, hjobless⟩ := hforget.fits t (List.mem_filter.mp ht).1
      exact ⟨hr, hc, hx, hcurrent, hjobless⟩
  have htold := hothers.map (m.outcomes ++ [(id, outcome)]) (f := Task.told id) (told_id id)
    (told_stage id) (calls_told id) (fun _ => wait_of_told_job)
    fun t hn => (told_isCancelled id t).symm.trans hn
  unfold Machine.finish
  -- woken are those that wait for no other task any more, and who waits for tasks is not called
  refine htold.foldl_wake _ List.filter_sublist fun t ht => ?_
  rw [beq_iff_eq.mp (List.mem_filter.mp ht).2]
  rfl

theorem Called.submit {next : Stage} (work : Work) (h : m.Called rs (some id))
    (hacts : m.Acts id next.role) (hne : next.role ≠ .quiet) :
    (m.submit id next work).Called rs none := by
  refine h.rests hacts rfl rfl rfl (fun i => ?_) (fun x hx => .inl hx) fun hq => absurd hq hne
  simp [callers, Machine.submit, suspend, List.count_cons, Wait.calls]
  omega

/-! ## Turns -/

theorem at_restartQuiet (hi : i < m.created) : m.restartQuiet.At i st ↔ m.At i st := by
  have hspawn : ∀ (m : Machine σ) (q : Option TaskId), i < m.created →
      (({ m.spawn .quiet with quiet := q } : Machine σ).At i st ↔ m.At i st) := by
    intro m q hi
    refine at_spawn.trans (or_iff_left ?_)
    rintro ⟨rfl, -⟩
    exact Nat.lt_irrefl _ hi
  unfold restartQuiet
  split
  · exact Iff.rfl
  · dsimp only
    split
    · rw [hspawn _ _ (created_cancel.symm ▸ hi), at_cancel]
    · exact hspawn _ _ hi

theorem at_perform {job : Job} : (m.perform b job).At i st ↔ m.At i st :=
  at_wake (m := { m with world := (b.perform job.work m.world).2 })

theorem at_foldl_perform (jobs : List Job) :
    (jobs.foldl (fun m job => m.perform b job) m).At i st ↔ m.At i st := by
  induction jobs generalizing m with
  | nil => exact Iff.rfl
  | cons job rest ih => rw [List.foldl_cons, ih, at_perform]

theorem at_retire : (m.retire b).At i st ↔ m.At i st := by
  unfold retire
  split
  · exact at_foldl_perform (m := { m with jobs := [] }) m.jobs
  · exact Iff.rfl

/-- A turn leaves every task with at most one thing that calls it. -/
theorem Plays.called (h : Plays b r id st m m') (hc : m.Called r.toList (some id))
    (hacts : m.Acts id st.role) : m'.Called r.toList none := by
  induction h with
  | notes f _ _ _ ih => exact ih (hc.congr rfl rfl rfl rfl rfl rfl) hacts
  | logs level name members _ ih => exact ih (hc.congr rfl rfl rfl rfl rfl rfl) hacts
  | rearms _ ih => exact ih hc.restartQuiet (hacts.congr fun _ => at_restartQuiet hc.lt)
  | cancels q hq _ ih => exact ih (hc.cancel hq) (hacts.congr fun _ => at_cancel)
  | begins scan w _ _ hrole _ ih =>
    refine ih (hc.congr rfl rfl rfl rfl rfl rfl) ?_
    rw [hrole]
    exact hacts
  | fails scan t w _ _ ih =>
    refine ih (hc.congr rfl rfl rfl rfl rfl rfl) ?_
    rw [role_storing]
    exact hacts
  | retires _ hr _ ih =>
    refine ih (hc.retire fun hw => ?_) (hacts.congr fun _ => at_retire)
    rw [hr hw]
    rfl
  | hands scan records w _ =>
    refine Called.submit _ (hc.congr rfl rfl rfl rfl rfl rfl) ?_ fun hq => ?_
    · rw [role_storing]
      exact hacts
    · cases scan <;> cases hq
  | purges next path _ hnext hne => exact hc.submit _ (hnext.role ▸ hacts) hne
  | waits next wait timers hnext hwait htimers =>
    refine hc.rests (hnext.role ▸ hacts) rfl rfl rfl (fun i => ?_) (fun x hx => ?_) ?_
    · rw [hwait, ite_self, Nat.add_zero]
      rfl
    · rcases List.mem_append.mp hx with hx | hx
      · exact .inl hx
      · exact .inr ⟨(htimers x hx).1, hwait, (htimers x hx).2⟩
    · rintro - rfl
      cases hwait
  | yields next hnext =>
    refine hc.rests (hnext.role ▸ hacts) rfl rfl rfl (fun i => ?_) (fun x hx => .inl hx)
      fun _ hw => by cases hw
    simp [callers, yield, suspend, List.count_cons, Wait.calls]
    omega
  | @hatches m _ =>
    exact Called.finish _ (hc.spawns (q := m.quiet) (c := some m.created) (fun hw => by cases hw)
      (.inl ⟨rfl, fun hq => by cases hq⟩))
  | ends outcome _ => exact hc.finish outcome

theorem Called.erase {n : Nat} {x : Turn} (h : m.Called rs none) (hx : m.turns[n]? = some x) :
    ({ m with turns := m.turns.eraseIdx n } : Machine σ).Called rs (some x.task) := by
  refine ⟨h.numbered.congr rfl rfl, fun i hi => ?_, h.timers_lt, h.quiet, fun t ht => ?_⟩
  · rw [count_callers_erase hx] at hi
    exact h.known i hi
  · obtain ⟨hr, hc, htimers, hcurrent, hjobless⟩ := h.fits t ht
    exact ⟨hr, by rw [count_callers_erase hx]; exact hc, htimers, hcurrent, hjobless⟩

theorem Called.noteChange (h : m.Called rs turn) (path : String) :
    (m.noteChange b path).Called rs turn := by
  unfold Machine.noteChange
  dsimp only
  split
  · exact h.congr rfl rfl rfl rfl rfl rfl
  · refine Called.restartQuiet ?_
    exact h.congr rfl rfl rfl rfl rfl rfl

end CodeIndex.Scheduler.Machine
