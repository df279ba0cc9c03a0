import CodeIndex.Proofs.Scheduler.Calling

/-!
# The end of the worker

A worker that is told to end first does the job that it has taken and those that were handed in, and who
tells it to waits for that.  In scenes in which this is so, the jobs that are left without a worker belong
to cycles and rebuilds that have begun: those are the only ones to hand in anything then.
-/

namespace CodeIndex.Scheduler

namespace Scene

variable {σ : Type} {b : Backend σ} {s : Scene σ}

def endsWorker (b : Backend σ) (s : Scene σ) (e : Event σ) : Bool :=
  s.machine.scheduler.hasWorker && !(s.step b e).machine.scheduler.hasWorker

/-- The scene after an event; a worker that ends has done the job that it had taken. -/
def stepJoined (b : Backend σ) (s : Scene σ) (e : Event σ) : Scene σ :=
  if s.endsWorker b e then (s.step b .done).step b e else s.step b e

def runJoined (b : Backend σ) (s : Scene σ) (events : List (Event σ)) : Scene σ :=
  events.foldl (stepJoined b) s

theorem not_endsWorker_done : s.endsWorker b .done = false := by
  rw [endsWorker, step]
  split <;> exact Bool.and_not_self _

/-- What events keep when no worker ends with a job in hand is kept when it does the job first. -/
theorem stepJoined_keeps {P : Scene σ → Prop} {e : Event σ}
    (hkeeps : ∀ s e', e' = .done ∨ e' = e → (s.endsWorker b e' = true → s.running = none) → P s →
      P (s.step b e'))
    (h : P s) : P (s.stepJoined b e) := by
  unfold stepJoined
  split
  · -- the job is done first, so that none is in hand when the event comes
    refine hkeeps _ e (.inr rfl) (fun _ => ?_)
      (hkeeps s .done (.inl rfl) (fun hends => ?_) h)
    · rw [step]
      split
      · rfl
      · assumption
    · rw [not_endsWorker_done] at hends
      cases hends
  · rename_i hends
    exact hkeeps s e (.inr rfl) (fun h => absurd h hends) h

theorem runJoined_keeps {P : Scene σ → Prop} {events : List (Event σ)}
    (hkeeps : ∀ s e, e = .done ∨ e ∈ events → (s.endsWorker b e = true → s.running = none) → P s →
      P (s.step b e))
    (h : P s) : P (s.runJoined b events) := by
  unfold runJoined
  induction events generalizing s with
  | nil => exact h
  | cons e rest ih =>
    refine ih (fun s e' he => hkeeps s e' (he.imp_right (List.mem_cons_of_mem _))) ?_
    refine stepJoined_keeps (fun s e' he => hkeeps s e' ?_) h
    exact he.imp_right fun he => List.mem_cons.mpr (.inl he)

end Scene

namespace Machine

variable {σ : Type} {b : Backend σ} {m m' : Machine σ} {r : Option Job} {rs : List Job}
  {id i : TaskId} {st : Stage}

/-- A task is a cycle or a rebuild that has begun and is not over yet. -/
def IsBegun (m : Machine σ) (id : TaskId) : Prop :=
  ∃ st, m.At id st ∧ st.isBegun = true

/-- Without a worker all jobs are those of cycles and rebuilds. -/
def Owned (m : Machine σ) (rs : List Job) : Prop :=
  m.scheduler.hasWorker = false → ∀ job ∈ rs ++ m.jobs, m.IsBegun job.task

theorem IsBegun.mono (hkept : ∀ {st}, m.At i st → m'.At i st) (h : m.IsBegun i) : m'.IsBegun i := by
  obtain ⟨st, hat, hst⟩ := h
  exact ⟨st, hkept hat, hst⟩

theorem Owned.mono (h : m.Owned rs) (hworker : m'.scheduler.hasWorker = m.scheduler.hasWorker)
    (hjobs : m'.jobs = m.jobs)
    (hkept : ∀ job ∈ rs ++ m.jobs, ∀ {st}, m.At job.task st → m'.At job.task st) : m'.Owned rs := by
  intro hw job hjob
  rw [hjobs] at hjob
  exact (h (hworker ▸ hw) job hjob).mono (hkept job hjob)

theorem jobs_finish {outcome : Outcome} : (m.finish id outcome).jobs = m.jobs :=
  (foldl_wake_frame _ _).2.1

theorem jobs_foldl_perform (jobs : List Job) :
    (jobs.foldl (fun m job => m.perform b job) m).jobs = m.jobs := by
  induction jobs generalizing m with
  | nil => rfl
  | cons job rest ih => exact ih

theorem jobs_retire (hr : m.scheduler.hasWorker = true → r = none) :
    (m.retire b).scheduler.hasWorker = false ∧ (r.toList ++ (m.retire b).jobs = [] ∨
      m.scheduler.hasWorker = false ∧ (m.retire b).jobs = m.jobs) := by
  refine ⟨rfl, ?_⟩
  unfold retire
  split
  · rename_i hw
    rw [hr hw]
    exact .inl (jobs_foldl_perform (m := { m with jobs := [] }) m.jobs)
  · rename_i hw
    exact .inr ⟨Bool.eq_false_iff.mpr hw, rfl⟩

/-- A task that has no job leaves the others' alone, and hands one in only to a worker unless it has
begun. -/
theorem Plays.owned (h : Plays b r id st m m') (ho : m.Owned r.toList)
    (hno : ∀ job ∈ r.toList ++ m.jobs, job.task ≠ id) : m'.Owned r.toList := by
  induction h with
  | notes f hworker _ _ ih => exact ih (ho.mono hworker rfl fun _ _ _ hat => hat) hno
  | logs level name members _ ih => exact ih (ho.mono rfl rfl fun _ _ _ hat => hat) hno
  | @rearms st m m' _ ih =>
    have hx := Extends.restartQuiet b m
    refine ih (ho.mono ?_ hx.jobs fun _ _ _ hat => hx.kept hat) ?_
    · rw [scheduler_restartQuiet]
    · rw [hx.jobs]
      exact hno
  | @cancels st m m' q _ _ ih =>
    have hx := Extends.cancel b q m
    refine ih (ho.mono ?_ hx.jobs fun _ _ _ hat => hx.kept hat) ?_
    · rw [scheduler_cancel]
    · rw [hx.jobs]
      exact hno
  | begins scan w _ _ _ _ ih => exact ih (ho.mono rfl rfl fun _ _ _ hat => hat) hno
  | fails scan t w _ _ ih => exact ih (ho.mono rfl rfl fun _ _ _ hat => hat) hno
  | @retires st m m' _ hr _ ih =>
    obtain ⟨-, hnil | ⟨hw, hjobs⟩⟩ := jobs_retire (b := b) hr
    · -- the worker has done all jobs
      refine ih (fun _ => ?_) ?_ <;> rw [hnil] <;> exact nofun
    · refine ih (ho.mono hw.symm hjobs fun _ _ _ hat => at_retire.mpr hat) ?_
      rw [hjobs]
      exact hno
  | hands scan records w _ =>
    intro hw job hjob
    change job ∈ r.toList ++ (_ ++ [{ task := id, work := scan.work records }]) at hjob
    rw [← List.append_assoc, List.mem_append, List.mem_singleton] at hjob
    rcases hjob with hjob | rfl
    · exact (ho hw job hjob).mono fun hat => at_suspend.mpr (.inl ⟨hno job hjob, hat⟩)
    · exact ⟨scan.storing, at_suspend.mpr (.inr ⟨rfl, rfl⟩), isBegun_storing scan⟩
  | purges next path hw _ _ => exact fun hnone => absurd (hw.symm.trans hnone) nofun
  | waits next wait timers _ _ _ =>
    exact ho.mono rfl rfl fun job hjob _ hat => at_suspend.mpr (.inl ⟨hno job hjob, hat⟩)
  | yields next _ =>
    exact ho.mono rfl rfl fun job hjob _ hat => at_suspend.mpr (.inl ⟨hno job hjob, hat⟩)
  | @hatches m _ =>
    refine ho.mono (congrArg Scheduler.hasWorker scheduler_finish) jobs_finish ?_
    exact fun job hjob _ hat => at_finish.mpr ⟨hno job hjob, at_spawn.mpr (.inl hat)⟩
  | ends outcome _ =>
    exact ho.mono (congrArg Scheduler.hasWorker scheduler_finish) jobs_finish fun job hjob _ hat =>
      at_finish.mpr ⟨hno job hjob, hat⟩

theorem hasWorker_noteChange (path : String) :
    (m.noteChange b path).scheduler.hasWorker = m.scheduler.hasWorker := by
  unfold noteChange
  dsimp only
  split
  · rfl
  · rw [scheduler_restartQuiet]
    rfl

/-- A machine that was never used. -/
structure IsNew (m : Machine σ) : Prop extends m.IsFresh where
  quiet : m.quiet = none

theorem IsNew.called (h : m.IsNew) : m.Called [] none := by
  have hnil : m.callers [] none = [] := by
    rw [callers, h.turns, h.jobs]
    rfl
  refine ⟨⟨?_, ?_⟩, ?_, ?_, ?_, ?_⟩
  · rw [ids, h.tasks]
    exact List.nodup_nil
  · rw [ids, h.tasks]
    intro i hi
    cases hi
  · rw [hnil]
    intro i hi
    cases hi
  · rw [h.timers]
    intro x hx
    cases hx
  · rw [h.quiet]
    intro i hi
    cases hi
  · rw [h.tasks]
    intro t ht
    cases ht

end Machine

open Machine

/-! ## Events -/

namespace Scene

variable {σ : Type} {b : Backend σ} {s s' : Scene σ}

/-- What holds of a scene at any time: each task has what is to come for it, and each job its task. -/
structure Attended (s : Scene σ) : Prop where
  called : s.machine.Called s.running.toList none
  owned : s.machine.Owned s.running.toList

/-- What may come of a turn: nothing, if its task is gone, or what the task does. -/
inductive Takes (b : Backend σ) (s s' : Scene σ) : Prop where
  | idles (turns : List Turn) (hm : s'.machine = { s.machine with turns })
      (hc : s'.machine.Called s.running.toList none) (hr : s'.running = s.running)
  | plays (turns : List Turn) (x : Turn) (t : Task) (m : Machine σ)
      (hm : m = { s.machine with turns }) (ht : m.task? x.task = some t) (hid : t.id = x.task)
      (hc : m.Called s.running.toList (some t.id)) (htake : s'.machine = m.take b x)
      (h : Plays b s.running t.id t.stage m s'.machine) (hr : s'.running = s.running)

/-- A turn comes to nothing, if its task is gone, or to what its task does. -/
theorem Attended.takes (h : s.Attended) (n : Nat)
    (hends : s.endsWorker b (.turn n) = true → s.running = none) :
    Takes b s (s.step b (.turn n)) := by
  unfold endsWorker at hends
  rw [step] at hends ⊢
  cases hx : s.machine.turns[n]? with
  | none => exact .idles s.machine.turns rfl h.called rfl
  | some x =>
    rw [hx] at hends
    have hc := h.called.erase hx
    have hroles : ∀ i st, ({ s.machine with turns := s.machine.turns.eraseIdx n } : Machine σ).At i st →
        st.role ≠ .watch := by
      rintro i st ⟨t, ht, -, rfl⟩
      exact (hc.fits t ht).role
    have hr : s.machine.scheduler.hasWorker = true →
        (Machine.take b x { s.machine with turns := s.machine.turns.eraseIdx n }).scheduler.hasWorker =
          false → s.running = none := by
      intro hw hgone
      rw [hw] at hends
      exact hends (congrArg (!·) hgone)
    obtain ⟨-, htake⟩ | ⟨t, ht, hplays⟩ := plays_of_take (b := b) hroles x hr
    · refine .idles _ htake ?_ rfl
      change (Machine.take b x _).Called _ _
      rw [htake]
      exact hc.forget
    · have hid := task?_id ht
      rw [← hid] at hc
      exact .plays _ x t _ rfl ht hid hc rfl hplays rfl

/-- Who is woken by a timer or an answer waits for neither a turn nor a job, and is not about to stop the
scheduler unless it waits for an answer. -/
theorem Attended.timer_calls (h : s.Attended) {x : Timer} (hx : x ∈ s.machine.timers) :
    ∀ t ∈ s.machine.tasks, t.id = x.task → t.wait.calls = 0 ∧ t.stage.role ≠ .stop :=
  fun t ht he => (h.called.fits t ht).timers x hx he.symm

theorem Attended.answer_waits (h : s.Attended) {id : TaskId}
    (hid : (s.machine.task? id).any (·.wait == .answer) = true) :
    id < s.machine.created ∧ ∀ t ∈ s.machine.tasks, t.id = id → t.wait = .answer := by
  rw [Option.any_eq_true] at hid
  obtain ⟨t, ht, hw⟩ := hid
  have hmem := List.mem_of_find?_eq_some ht
  obtain rfl := task?_id ht
  refine ⟨h.called.numbered.lt _ (List.mem_map_of_mem hmem), fun u hu he => ?_⟩
  rw [h.called.numbered.eq_of_id hu hmem he]
  exact beq_iff_eq.mp hw

/-- Every event leaves each task what is to come for it, and each job its task. -/
theorem Attended.step {e : Event σ} (h : s.Attended)
    (hends : s.endsWorker b e = true → s.running = none) : (s.step b e).Attended := by
  have hspawn : ∀ stage : Stage, stage.role ≠ .watch → stage.role ≠ .quiet →
      (s.on (·.spawn stage)).Attended := fun stage hwatch hquiet =>
    ⟨h.called.spawn hwatch hquiet, h.owned.mono rfl rfl fun _ _ _ hat => at_spawn.mpr (.inl hat)⟩
  have hwake : ∀ i, i < s.machine.created →
      (∀ t ∈ s.machine.tasks, t.id = i → t.wait.calls = 0) → (s.on (·.wake i none)).Attended :=
    fun i hi hfree =>
      ⟨h.called.wake hi hfree, h.owned.mono rfl rfl fun _ _ _ hat => at_wake.mpr hat⟩
  cases e with
  | change path =>
    have hx := Extends.noteChange b path s.machine
    refine ⟨h.called.noteChange path, h.owned.mono ?_ hx.jobs fun _ _ _ hat => hx.kept hat⟩
    exact hasWorker_noteChange path
  | notices todo => exact hspawn _ nofun nofun
  | rebuild => exact hspawn _ nofun nofun
  | idle deadline => exact hspawn _ nofun nofun
  | stop => exact hspawn _ nofun nofun
  | start =>
    change Attended { s with machine := s.machine.start b }
    unfold Machine.start
    split
    · exact h
    · exact ⟨h.called.congr rfl rfl rfl rfl rfl rfl, fun hnone => absurd hnone nofun⟩
  | turn n =>
    cases h.takes n hends with
    | idles turns hm hc hr => exact ⟨hr ▸ hc, by rw [hr, hm]; exact h.owned⟩
    | plays turns x t m hm ht hid hc htake hp hr =>
      have hacts := Acts.of_task? hc.numbered ht
      refine ⟨hr ▸ hp.called hc hacts, hr ▸ hp.owned ?_ (hc.own_jobs hacts.mem_ids)⟩
      rw [hm]
      exact h.owned
  | pick =>
    rw [Scene.step]
    split
    · rename_i job rest hr hjobs
      have hsame : [job] ++ rest = s.running.toList ++ s.machine.jobs := by
        rw [hr, hjobs]
        rfl
      exact ⟨h.called.handed hsame, fun hw x hx => h.owned hw x (hsame ▸ hx)⟩
    · exact h
  | done =>
    rw [Scene.step]
    split
    · rename_i job hr
      have hc := h.called
      have ho := h.owned
      rw [hr] at hc ho
      refine ⟨Called.perform hc, fun hw x hx => ?_⟩
      exact (ho hw x (List.mem_cons_of_mem _ hx)).mono at_perform.mpr
    · exact h
  | timer n =>
    rw [Scene.step]
    split
    · rename_i x hx
      have hmem := List.mem_of_getElem? hx
      exact hwake _ (h.called.timers_lt x hmem) fun t ht he => (h.timer_calls hmem t ht he).1
    · exact h
  | answer id =>
    rw [Scene.step]
    split
    · rename_i hid
      obtain ⟨hlt, hwait⟩ := h.answer_waits hid
      exact hwake id hlt fun t ht he => by rw [hwait t ht he]; rfl
    · exact h
  | clock now => exact ⟨h.called.congr rfl rfl rfl rfl rfl rfl, h.owned⟩
  | outside f => exact ⟨h.called.congr rfl rfl rfl rfl rfl rfl, h.owned⟩

theorem Attended.runJoined (h : s.Attended) (events : List (Event σ)) :
    (s.runJoined b events).Attended :=
  runJoined_keeps (fun _ _ _ hends h => h.step hends) h

theorem attended_new {m : Machine σ} (hm : m.IsNew) : Attended { machine := m } where
  called := hm.called
  owned _ job hjob := by
    change job ∈ m.jobs at hjob
    rw [hm.jobs] at hjob
    cases hjob

end Scene

end CodeIndex.Scheduler
