import CodeIndex.Proofs.Scheduler.Holder

/-!
# What a turn is made of

A task has a role that it keeps as long as it lives.  Whatever it does in its turn is a sequence of a few
steps: `Plays` lists them, for tasks of every role but the watcher's, also while the scheduler stops or has
stopped.  What each of these steps keeps, every turn keeps.
-/

namespace CodeIndex.Scheduler

inductive Role where
  | quiet
  | cycle
  | rebuild
  | notices
  | stop
  | idle
  | watch
  deriving Repr, DecidableEq

def Ending.role : Ending → Role
  | .cycle => .cycle
  | .rebuild _ => .rebuild

theorem Ending.role_ne_quiet (ending : Ending) : ending.role ≠ .quiet := by
  cases ending <;> exact nofun

def Stage.role : Stage → Role
  | .quiet => .quiet
  | .quietOver => .quiet
  | .cycle => .cycle
  | .cycleAnswered _ => .cycle
  | .cycleMerged _ => .cycle
  | .rebuild => .rebuild
  | .rebuildAnswered => .rebuild
  | .rebuildStored => .rebuild
  | .drained _ _ ending => ending.role
  | .notices _ .finish => .notices
  | .purged _ _ .finish => .notices
  | .stop => .stop
  | .stopQuiet => .stop
  | .stopCycle => .stop
  | .idle _ => .idle
  | _ => .watch

/-- Whether a cycle or a rebuild has begun and is not over yet: unlike one under way, it may be draining. -/
def Stage.isBegun : Stage → Bool
  | .drained _ _ _ => true
  | stage => stage.isUnderWay

/-- Whether no cycle may begin any more. -/
def Phase.isHalted : Phase → Bool
  | .stopping => true
  | .stopped => true
  | _ => false

theorem not_accepts_of_isHalted {s : Scheduler} (h : s.phase.isHalted = true) :
    s.accepts = false := by
  unfold accepts
  cases hp : s.phase with
  | idle => rw [hp] at h; cases h
  | rebuilding => rw [hp] at h; cases h
  | stopping => simp
  | stopped => simp

theorem isHalted_conclude {s : Scheduler} (h : s.phase.isHalted = true) :
    s.conclude.phase.isHalted = true := by
  unfold conclude
  dsimp only
  split
  · rename_i hphase
    rw [beq_iff_eq.mp hphase] at h
    cases h
  · exact h

theorem role_storing (scan : Scan) : scan.storing.role = scan.asking.role := by
  cases scan <;> rfl

theorem isBegun_asking (scan : Scan) : scan.asking.isBegun = true := by cases scan <;> rfl

theorem isBegun_storing (scan : Scan) : scan.storing.isBegun = true := by cases scan <;> rfl

theorem isAsking_of_role {stage : Stage} (h : stage.role = .stop) : stage.isAsking = false := by
  cases stage <;> first | rfl | cases h

/-- A stage to which a task may go on without beginning anything and without asking. -/
structure Stage.Becomes (stage next : Stage) : Prop where
  role : next.role = stage.role
  begun : next.isBegun = true → stage.isBegun = true
  asking : next.isAsking = stage.isAsking

/-- The number of turns and jobs that a waiting task is to come by. -/
def Wait.calls : Wait → Nat
  | .turn => 1
  | .job => 1
  | _ => 0

namespace Machine

variable {σ : Type}

def retire (b : Backend σ) (m : Machine σ) : Machine σ :=
  (if m.scheduler.hasWorker then m.performAll b else m).update fun s =>
    { s with hasWorker := false, phase := .stopped }

/-- What a task's turn is made of while the worker is doing a job or none.  The task is at some stage; it
is at another one when it has begun, asked or heard, although it does not wait there. -/
inductive Plays (b : Backend σ) (r : Option Job) (id : TaskId) :
    Stage → Machine σ → Machine σ → Prop where
  | notes {st m m'} (f : Scheduler → Scheduler)
      (hworker : (f m.scheduler).hasWorker = m.scheduler.hasWorker)
      (hphase : m.scheduler.phase.isHalted = true → (f m.scheduler).phase.isHalted = true)
      (h : Plays b r id st (m.update f) m') : Plays b r id st m m'
  | logs {st m m'} (level : Log.Level) (name : String) (members : Value.Members)
      (h : Plays b r id st (m.log b level name members) m') : Plays b r id st m m'
  | rearms {st m m'} (h : Plays b r id st m.restartQuiet m') : Plays b r id st m m'
  | cancels {st m m'} (q : TaskId) (hq : m.quiet = some q) (h : Plays b r id st (m.cancel q) m') :
      Plays b r id st m m'
  | begins {st m m'} (scan : Scan) (w : σ) (hw : Logged b m.world w)
      (hst : st = .cycle ∧ m.scheduler.accepts = true ∨ st = .rebuild)
      (hrole : scan.asking.role = st.role)
      (h : Plays b r id scan.asking (m.begun b scan w) m') : Plays b r id st m m'
  | fails {m m'} (scan : Scan) (t : Trouble) (w : σ) (ha : b.answer scan m.world = (.error t, w))
      (h : Plays b r id scan.storing { m with world := w } m') : Plays b r id scan.asking m m'
  | retires {st m m'} (hst : st.role = .stop) (hr : m.scheduler.hasWorker = true → r = none)
      (h : Plays b r id st (m.retire b) m') : Plays b r id st m m'
  | hands {m} (scan : Scan) (records : List Record) (w : σ)
      (ha : b.answer scan m.world = (.ok records, w)) :
      Plays b r id scan.asking m
        (submit id scan.storing (scan.work records) { m with world := w })
  | purges {st m} (next : Stage) (path : String) (hw : m.scheduler.hasWorker = true)
      (hnext : st.Becomes next) (hrole : next.role ≠ .quiet) :
      Plays b r id st m (m.submit id next (.purge path))
  | waits {st m} (next : Stage) (wait : Wait) (timers : List Timer) (hnext : st.Becomes next)
      (hwait : wait.calls = 0) (htimers : ∀ x ∈ timers, x.task = id ∧ next.role ≠ .stop) :
      Plays b r id st m { m.suspend id next wait with timers := m.timers ++ timers }
  | yields {st m} (next : Stage) (hnext : st.Becomes next) : Plays b r id st m (m.yield id next)
  | hatches {m} (h : ∃ t ∈ m.tasks, t.id = id ∧ t.stage = .quietOver ∧ t.isCancelled = false) :
      Plays b r id .quietOver m (m.endQuiet id)
  | ends {st m} (outcome : Outcome) (hst : st.isAsking = false) :
      Plays b r id st m (m.finish id outcome)

variable {b : Backend σ} {m m' : Machine σ} {r : Option Job} {id : TaskId} {st : Stage}

/-! ## Ends of cycles and rebuilds -/

theorem plays_drain {ending : Ending} (hrole : st.role = ending.role) (hbegun : st.isBegun = true)
    (hasking : st.isAsking = false) (rest : List (String × Operation)) :
    Plays b r id st m (drain b id ending rest m) := by
  induction rest generalizing m with
  | nil =>
    rw [drain]
    -- what is left to be merged has to wait for a quiet time
    unfold requeue
    split
    · exact .ends _ hasking
    · exact .logs _ _ _ (.rearms (.ends _ hasking))
  | cons e rest ih =>
    obtain ⟨path, op⟩ := e
    rw [drain.eq_def]
    cases op with
    | change => exact .notes (·.collect path) rfl (fun h => h) ih
    | delete =>
      dsimp only
      split
      · rename_i hw
        exact .purges _ _ hw ⟨hrole.symm, fun _ => hbegun, hasking.symm⟩ ending.role_ne_quiet
      · -- a deletion is dropped when there is no worker
        exact ih

theorem plays_conclude {ending : Ending} (hrole : st.role = ending.role)
    (hbegun : st.isBegun = true) (hasking : st.isAsking = false) :
    Plays b r id st m (m.conclude b id ending) :=
  .notes Scheduler.conclude rfl isHalted_conclude (plays_drain hrole hbegun hasking _)

theorem plays_cycleFailed (batch : List String) (t : Trouble) :
    Plays b r id (.cycleMerged batch) m (m.cycleFailed b id batch t) := by
  have hlog : ∀ level name members, Plays b r id (.cycleMerged batch) m
      (conclude b id .cycle ((m.update (·.note t.toString)).log b level name members)) :=
    fun level name members =>
      .notes (·.note t.toString) rfl (fun h => h)
        (.logs level name members (plays_conclude rfl rfl rfl))
  unfold cycleFailed
  cases t with
  | mishap c => exact hlog ..
  | failure f =>
    dsimp only
    split <;> exact hlog ..

theorem plays_cycleMerged (batch : List String) (result : Option (Except Trouble Nat)) :
    Plays b r id (.cycleMerged batch) m (m.cycleMerged b id batch result) := by
  unfold cycleMerged
  split
  · exact .notes (·.succeed _) rfl (fun h => h) (.logs _ _ _ (plays_conclude rfl rfl rfl))
  · exact plays_cycleFailed batch _
  · exact plays_conclude rfl rfl rfl

theorem plays_rebuildStored (result : Option (Except Trouble Nat)) :
    Plays b r id .rebuildStored m (m.rebuildStored b id result) := by
  unfold rebuildStored
  split
  · exact .notes (·.succeed _) rfl (fun h => h) (plays_conclude rfl rfl rfl)
  · exact .notes (·.note _) rfl (fun h => h) (plays_conclude rfl rfl rfl)
  · exact plays_conclude rfl rfl rfl

/-! ## Beginnings and answers -/

theorem plays_cycleAnswered (batch : List String) :
    Plays b r id (.cycleAnswered batch) m (m.cycleAnswered b id batch) := by
  unfold cycleAnswered
  rcases ha : b.answer (.paths batch) m.world with ⟨answer, w⟩
  cases answer with
  | ok records => exact .hands (.paths batch) records w ha
  | error t => exact .fails (.paths batch) t w ha (plays_cycleFailed batch t)

theorem plays_rebuildAnswered : Plays b r id .rebuildAnswered m (m.rebuildAnswered b id) := by
  unfold rebuildAnswered
  rcases ha : b.answer .all m.world with ⟨answer, w⟩
  cases answer with
  | ok records => exact .hands .all records w ha
  | error t => exact .fails .all t w ha (plays_rebuildStored _)

theorem plays_answer (scan : Scan) :
    Plays b r id scan.asking m (m.suspend id scan.asking .answer) := by
  have h : Plays b r id scan.asking m
      { m.suspend id scan.asking .answer with timers := m.timers ++ [] } :=
    .waits scan.asking .answer [] ⟨rfl, fun h => h, rfl⟩ rfl nofun
  rwa [List.append_nil] at h

theorem plays_awaitEnds (next : Stage) (ids : List TaskId) (hnext : st.Becomes next) :
    Plays b r id st m (m.awaitEnds id next ids) := by
  have h : Plays b r id st m { m.suspend id next (.ends ids) with timers := m.timers ++ [] } :=
    .waits next (.ends ids) [] hnext rfl nofun
  rwa [List.append_nil] at h

theorem plays_sleep (next : Stage) (time : Nat) (hnext : st.Becomes next)
    (hrole : next.role ≠ .stop) : Plays b r id st m (m.sleep id next time) :=
  .waits next .timer _ hnext rfl fun x hx => by
    obtain rfl := List.mem_singleton.mp hx
    exact ⟨rfl, hrole⟩

theorem plays_beginCycle : Plays b r id .cycle m (m.beginCycle b id) := by
  unfold beginCycle
  dsimp only
  split
  · exact .ends _ rfl
  · rename_i hskip
    have ha : m.scheduler.accepts = true := by
      simp only [Bool.or_eq_true, Bool.not_eq_true', not_or] at hskip
      simpa using hskip.1.1
    have hlogged : Logged b m.world ((m.update Scheduler.begin).log b .info "merge_cycle_started"
        [("paths", .nat (batchOf m.scheduler.pending).length)]).world := .log b _ _
    refine .begins (.paths (batchOf m.scheduler.pending)) _ hlogged (.inl ⟨rfl, ha⟩) rfl ?_
    split
    · exact plays_cycleAnswered _
    · exact plays_answer (.paths _)

theorem plays_beginRebuild : Plays b r id .rebuild m (m.beginRebuild b id) := by
  unfold beginRebuild
  split
  · -- another one is under way: it waits for the last cycle, or looks again later
    split
    · exact plays_awaitEnds _ _ ⟨rfl, fun h => h, rfl⟩
    · exact plays_sleep _ _ ⟨rfl, fun h => h, rfl⟩ nofun
  · have hlogged : Logged b m.world
        ((m.update Scheduler.begin).log b .info "full_rebuild_started" []).world := .log b _ _
    refine .begins .all _ hlogged (.inr rfl) rfl ?_
    dsimp only
    split
    · exact plays_rebuildAnswered
    · exact plays_answer .all

/-! ## Notices, quiet times and waits -/

theorem plays_noteChange (path : String) (h : Plays b r id st (m.noteChange b path) m') :
    Plays b r id st m m' := by
  unfold noteChange at h
  dsimp only at h
  split at h
  · exact .notes (·.defer _ .change) rfl (fun h => h) (.logs _ _ _ h)
  · exact .notes (·.collect _) rfl (fun h => h) (.rearms h)

theorem plays_notePurge (path : String) (result : Option (Except Trouble Nat))
    (h : Plays b r id st (m.notePurge b path result) m') : Plays b r id st m m' := by
  unfold notePurge at h
  split at h
  · exact .logs _ _ _ h
  · exact .notes (·.note _) rfl (fun h => h) (.logs _ _ _ h)
  · exact h

theorem plays_giveNotices (hrole : st.role = .notices) (hasking : st.isAsking = false)
    (todo : List Notice) : Plays b r id st m (m.giveNotices b id todo .finish) := by
  induction todo generalizing m with
  | nil => exact .ends _ hasking
  | cons n rest ih =>
    rw [giveNotices_cons]
    split
    · exact plays_noteChange _ ih
    · split
      · exact .notes (·.defer _ .delete) rfl (fun h => h) (.logs _ _ _ ih)
      · split
        · rename_i hw
          exact .purges _ _ hw ⟨hrole.symm, nofun, hasking.symm⟩ nofun
        · exact ih

theorem plays_awaitIdle (deadline : Nat) :
    Plays b r id (.idle deadline) m (m.awaitIdle id deadline) := by
  unfold awaitIdle
  split
  · exact .ends _ rfl
  · split
    · exact .ends _ rfl
    · split
      · exact plays_sleep _ _ ⟨rfl, fun h => h, rfl⟩ nofun
      · refine .waits _ (.ends _) _ ⟨rfl, fun h => h, rfl⟩ rfl fun x hx => ?_
        obtain rfl := List.mem_singleton.mp hx
        exact ⟨rfl, nofun⟩

theorem plays_beginQuiet : Plays b r id .quiet m (m.beginQuiet id) := by
  unfold beginQuiet
  split
  · exact .yields _ ⟨rfl, fun h => h, rfl⟩
  · exact plays_sleep _ _ ⟨rfl, fun h => h, rfl⟩ nofun

/-! ## Stopping -/

theorem hasWorker_stopWorker : (m.stopWorker b id).scheduler.hasWorker = false := by
  unfold stopWorker
  rw [scheduler_finish]
  rfl

theorem plays_stopWorker (hst : st.role = .stop) (hr : m.scheduler.hasWorker = true → r = none) :
    Plays b r id st m (m.stopWorker b id) :=
  .retires hst hr (.logs _ _ _ (.ends _ (isAsking_of_role hst)))

theorem plays_stopCycle (hst : st.role = .stop)
    (hr : m.scheduler.hasWorker = true → (m.stopCycle b id).scheduler.hasWorker = false → r = none) :
    Plays b r id st m (m.stopCycle b id) := by
  unfold stopCycle at hr ⊢
  split at hr
  · exact plays_awaitEnds _ _ ⟨hst.symm, nofun, (isAsking_of_role hst).symm⟩
  · exact plays_stopWorker hst fun hw => hr hw hasWorker_stopWorker

theorem plays_beginStop
    (hr : m.scheduler.hasWorker = true → (m.beginStop b id).scheduler.hasWorker = false → r = none) :
    Plays b r id .stop m (m.beginStop b id) := by
  refine .notes (fun s => { s with phase := .stopping }) rfl (fun _ => rfl) ?_
  unfold beginStop at hr ⊢
  dsimp only at hr ⊢
  split at hr
  · rename_i q hq
    exact .cancels q (Option.filter_eq_some_iff.mp hq).1
      (plays_awaitEnds _ _ ⟨rfl, nofun, rfl⟩)
  · exact plays_stopCycle rfl hr

/-! ## Turns -/

/-- What a task does from a stage is made of these steps; the worker ends only when it does no job. -/
theorem plays_continueFrom {t : Task} (htask : m.task? t.id = some t) (hrole : t.stage.role ≠ .watch)
    (hearly : (t.isCancelled && endsEarly t.stage) = false) (result : Option (Except Trouble Nat))
    (hr : m.scheduler.hasWorker = true →
      (continueFrom b t.id result m t.stage).scheduler.hasWorker = false → r = none) :
    Plays b r t.id t.stage m (continueFrom b t.id result m t.stage) := by
  cases hst : t.stage with
  | quiet => exact plays_beginQuiet
  | quietOver =>
    refine .hatches ⟨t, List.mem_of_find?_eq_some htask, rfl, hst, ?_⟩
    rwa [hst, endsEarly, Bool.and_true] at hearly
  | cycle => exact plays_beginCycle
  | cycleAnswered batch => exact plays_cycleAnswered batch
  | cycleMerged batch => exact plays_cycleMerged batch result
  | rebuild => exact plays_beginRebuild
  | rebuildAnswered => exact plays_rebuildAnswered
  | rebuildStored => exact plays_rebuildStored result
  | drained path rest ending => exact plays_notePurge path result (plays_drain rfl rfl rfl rest)
  | notices todo follow =>
    rw [hst] at hrole
    cases follow with
    | finish => exact plays_giveNotices rfl rfl todo
    | watch => exact absurd rfl hrole
  | purged path todo follow =>
    rw [hst] at hrole
    cases follow with
    | finish => exact plays_notePurge path result (plays_giveNotices rfl rfl todo)
    | watch => exact absurd rfl hrole
  | stop =>
    rw [hst] at hr
    exact plays_beginStop hr
  | stopQuiet =>
    rw [hst] at hr
    exact plays_stopCycle rfl hr
  | stopCycle => exact plays_stopWorker rfl fun hw => hr hw (by rw [hst]; exact hasWorker_stopWorker)
  | idle deadline => exact plays_awaitIdle deadline
  | watch => exact absurd (congrArg Stage.role hst) hrole
  | unwatch => exact absurd (congrArg Stage.role hst) hrole
  | unwatched => exact absurd (congrArg Stage.role hst) hrole

theorem isAsking_of_endsEarly {stage : Stage} (h : endsEarly stage = true) :
    stage.isAsking = false := by
  cases stage <;> first | rfl | cases h

/-- A turn is that of a task that is gone, and then nothing happens, or it is made of these steps. -/
theorem plays_of_take (hroles : ∀ i st, m.At i st → st.role ≠ .watch) (turn : Turn)
    (hr : m.scheduler.hasWorker = true → (m.take b turn).scheduler.hasWorker = false → r = none) :
    (m.task? turn.task = none ∧ m.take b turn = m) ∨
      ∃ t, m.task? turn.task = some t ∧ Plays b r t.id t.stage m (m.take b turn) := by
  unfold take at hr ⊢
  cases ht : m.task? turn.task with
  | none => exact .inl ⟨rfl, rfl⟩
  | some t =>
    rw [ht] at hr
    refine .inr ⟨t, rfl, ?_⟩
    have hid := task?_id ht
    dsimp only at hr ⊢
    by_cases hearly : (t.isCancelled && endsEarly t.stage) = true
    · -- a quiet time that was cancelled is over
      rw [if_pos hearly]
      rw [Bool.and_eq_true] at hearly
      exact .ends _ (isAsking_of_endsEarly hearly.2)
    · rw [if_neg hearly] at hr ⊢
      exact plays_continueFrom (by rw [hid]; exact ht) (hroles _ _ (.of_task? ht))
        (Bool.eq_false_iff.mpr hearly) turn.result hr

end Machine

end CodeIndex.Scheduler
