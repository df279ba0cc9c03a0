import CodeIndex.Proofs.Scheduler.Turns

/-!
# Any order of events

The machine runs its turns and jobs in one order.  Here the order is open: callers come at any time, any
task whose waiting is over may go on next, timers fire and the extractor answers when they like, and the
worker does its jobs, one after another in the order in which they were handed in, while all this goes on.
An event that cannot happen changes nothing.  The machine's own steps are among these, so what holds of
every order holds of them.
-/

namespace CodeIndex.Scheduler

/-- A machine with the job that its worker is doing. -/
structure Scene (σ : Type) where
  machine : Machine σ
  running : Option Job := none

/-- What can happen to a scheduler. -/
inductive Event (σ : Type) where
  /-- A change of a path is noted. -/
  | change (path : String)
  /-- A task is to give notices. -/
  | notices (todo : List Notice)
  | rebuild
  | idle (deadline : Nat)
  | start
  | stop
  /-- One of the tasks whose waiting is over goes on, up to where it waits again. -/
  | turn (n : Nat)
  /-- The worker takes the oldest job. -/
  | pick
  /-- The worker has done its job. -/
  | done
  /-- One of the timers fires. -/
  | timer (n : Nat)
  /-- The extractor answers a task that waits for it. -/
  | answer (id : TaskId)
  | clock (now : Nat)
  /-- The world changes by itself. -/
  | outside (f : σ → σ)

def Event.isStop {σ : Type} : Event σ → Bool
  | .stop => true
  | _ => false

/-- The stage at which a caller's task begins. -/
def Event.stage? {σ : Type} : Event σ → Option Stage
  | .notices todo => some (.notices todo .finish)
  | .rebuild => some .rebuild
  | .idle deadline => some (.idle deadline)
  | .stop => some .stop
  | _ => none

namespace Scene

variable {σ : Type}

def on (s : Scene σ) (f : Machine σ → Machine σ) : Scene σ :=
  { s with machine := f s.machine }

def step (b : Backend σ) (s : Scene σ) : Event σ → Scene σ
  | .change path => s.on (·.noteChange b path)
  | .notices todo => s.on (·.spawn (.notices todo .finish))
  | .rebuild => s.on (·.spawn .rebuild)
  | .idle deadline => s.on (·.spawn (.idle deadline))
  | .start => s.on (·.start b)
  | .stop => s.on (·.spawn .stop)
  | .turn n =>
    match s.machine.turns[n]? with
    | some turn => s.on fun m => { m with turns := m.turns.eraseIdx n }.take b turn
    | none => s
  | .pick =>
    match s.running, s.machine.jobs with
    | none, job :: rest => { machine := { s.machine with jobs := rest }, running := some job }
    | _, _ => s
  | .done =>
    match s.running with
    | some job => { machine := s.machine.perform b job, running := none }
    | none => s
  | .timer n =>
    match s.machine.timers[n]? with
    | some timer => s.on (·.wake timer.task none)
    | none => s
  | .answer id =>
    if (s.machine.task? id).any (·.wait == .answer) then s.on (·.wake id none) else s
  | .clock now => s.on ({ · with now })
  | .outside f => s.on fun m => { m with world := f m.world }

def run (b : Backend σ) (s : Scene σ) (events : List (Event σ)) : Scene σ :=
  events.foldl (step b) s

/-- The events of paths that the scheduler is told with an event of the scene. -/
def given (b : Backend σ) (s : Scene σ) : Event σ → List (String × Operation)
  | .change path => [(Path.key s.machine.root path, .change)]
  | .turn n =>
    match s.machine.turns[n]? with
    | none => []
    | some turn =>
      match s.machine.task? turn.task with
      | none => []
      | some t => s.machine.givenFrom b t.stage
  | _ => []

theorem run_append (b : Backend σ) (s : Scene σ) (before after : List (Event σ)) :
    s.run b (before ++ after) = (s.run b before).run b after :=
  List.foldl_append

theorem run_cons (b : Backend σ) (s : Scene σ) (e : Event σ) (rest : List (Event σ)) :
    s.run b (e :: rest) = (s.step b e).run b rest :=
  rfl

/-- A step of the machine is an event or two. -/
theorem exists_run_of_step? {b : Backend σ} {m m' : Machine σ} (h : m.step? b = some m') :
    ∃ events, run b { machine := m } events = { machine := m' } := by
  unfold Machine.step? at h
  split at h
  · rename_i turn rest ht
    refine ⟨[.turn 0], ?_⟩
    simp only [run, List.foldl_cons, List.foldl_nil, step, ht, List.getElem?_cons_zero, on,
      List.eraseIdx_cons_zero]
    cases h
    rfl
  · split at h
    · rename_i job rest hj
      refine ⟨[.pick, .done], ?_⟩
      simp only [run, List.foldl_cons, List.foldl_nil, step, hj]
      cases h
      rfl
    · cases h

/-- So is whatever the machine does while its clock stands still. -/
theorem exists_run_of_steps (b : Backend σ) (fuel : Nat) (m : Machine σ) :
    ∃ events, run b { machine := m } events = { machine := m.steps b fuel } := by
  induction fuel generalizing m with
  | zero => exact ⟨[], rfl⟩
  | succ fuel ih =>
    rw [Machine.steps]
    cases hs : m.step? b with
    | none => exact ⟨[], rfl⟩
    | some m' =>
      obtain ⟨first, hfirst⟩ := exists_run_of_step? hs
      obtain ⟨rest, hrest⟩ := ih m'
      exact ⟨first ++ rest, by rw [run_append, hfirst, hrest]⟩

end Scene

namespace Machine

variable {σ : Type} {b : Backend σ} {m m' : Machine σ}

/-- A machine that has never been started. -/
structure IsFresh (m : Machine σ) : Prop where
  scheduler : m.scheduler = {}
  tasks : m.tasks = []
  turns : m.turns = []
  jobs : m.jobs = []
  timers : m.timers = []

/-- The scheduler was started and never told to stop, and no watcher runs inside the machine: its notices
come from callers. -/
structure Steady (m : Machine σ) : Prop where
  numbered : m.Numbered
  accepts : m.scheduler.accepts = true
  plain : ∀ i st, m.At i st → st.isPlain = true

/-- Nothing has happened but that some task's waiting is over. -/
structure Idles (m m' : Machine σ) : Prop where
  at_iff : ∀ i st, m'.At i st ↔ m.At i st
  numbered : m.Numbered → m'.Numbered
  scheduler : m'.scheduler = m.scheduler
  world : m'.world = m.world
  jobs : m'.jobs = m.jobs
  root : m'.root = m.root

theorem Idles.refl (m : Machine σ) : Idles m m :=
  ⟨fun _ _ => Iff.rfl, fun h => h, rfl, rfl, rfl, rfl⟩

theorem Idles.wake (id : TaskId) (result : Option (Except Trouble Nat)) (m : Machine σ) :
    Idles m (m.wake id result) :=
  ⟨fun _ _ => at_wake, fun h => h.wake, rfl, rfl, rfl, rfl⟩

/-- The world after a job is done, with the machine as it was. -/
def performed (b : Backend σ) (job : Job) (m : Machine σ) : Machine σ :=
  { m with world := (b.perform job.work m.world).2 }

theorem Idles.perform (b : Backend σ) (job : Job) (m : Machine σ) :
    Idles (m.performed b job) (m.perform b job) :=
  Idles.wake job.task (some (b.perform job.work m.world).1) (m.performed b job)

end Machine

open Machine

/-- All that an event can come to in a scene whose scheduler runs. -/
inductive Scene.Steps {σ : Type} (b : Backend σ) (s s' : Scene σ) : Event σ → Prop where
  | idles {e} (he : e = .done → s.running = none) (hg : s.given b e = [])
      (h : Idles s.machine s'.machine) (hr : s'.running = s.running) : Steps b s s' e
  | change {path} (hx : Extends b s.machine s'.machine)
      (hs : s'.machine.scheduler.memory =
        s.machine.scheduler.memory.hear (Path.key s.machine.root path, .change))
      (hr : s'.running = s.running) : Steps b s s' (.change path)
  | call {e stage} (he : e.stage? = some stage) (hm : s'.machine = s.machine.spawn stage)
      (hr : s'.running = s.running) : Steps b s s' e
  | turn {n} (m : Machine σ) (id : TaskId) (stage : Stage) (hm : Idles s.machine m)
      (hat : m.At id stage) (hg : s.given b (.turn n) = m.givenFrom b stage)
      (h : Goes b id stage m s'.machine) (hr : s'.running = s.running) : Steps b s s' (.turn n)
  | pick (job : Job) (rest : List Job) (hjobs : s.machine.jobs = job :: rest)
      (hidle : s.running = none) (hm : s'.machine = { s.machine with jobs := rest })
      (hr : s'.running = some job) : Steps b s s' .pick
  | done (job : Job) (hjob : s.running = some job) (hm : s'.machine = s.machine.perform b job)
      (hr : s'.running = none) : Steps b s s' .done
  | outside {f} (hm : s'.machine = { s.machine with world := f s.machine.world })
      (hr : s'.running = s.running) : Steps b s s' (.outside f)

namespace Scene

variable {σ : Type} {b : Backend σ} {s : Scene σ}

/-- What an event does to a scene whose scheduler runs is one of the listed steps. -/
theorem steps_step (h : s.machine.Steady) (e : Event σ) : Steps b s (s.step b e) e := by
  cases e with
  | change path => exact .change (.noteChange b path _) (memory_noteChange path) rfl
  | notices todo => exact .call rfl rfl rfl
  | rebuild => exact .call rfl rfl rfl
  | idle deadline => exact .call rfl rfl rfl
  | start =>
    have hw := hasWorker_of_accepts h.accepts
    refine .idles nofun rfl ?_ rfl
    change Idles s.machine (s.machine.start b)
    rw [Machine.start, if_pos hw]
    exact .refl _
  | stop => exact .call rfl rfl rfl
  | turn n =>
    have hgiven : s.given b (.turn n) = match s.machine.turns[n]? with
      | none => []
      | some turn =>
        match s.machine.task? turn.task with
        | none => []
        | some t => s.machine.givenFrom b t.stage := rfl
    rw [step]
    cases hturn : s.machine.turns[n]? with
    | none =>
      rw [hturn] at hgiven
      exact .idles nofun hgiven (.refl _) rfl
    | some turn =>
      rw [hturn] at hgiven
      dsimp only at hgiven ⊢
      have hi : Idles s.machine { s.machine with turns := s.machine.turns.eraseIdx n } :=
        ⟨fun _ _ => Iff.rfl, fun h => h.congr rfl rfl, rfl, rfl, rfl, rfl⟩
      obtain ⟨hnone, htake⟩ | ⟨t, ht, hgoes⟩ :=
        goes_of_take (b := b) (hi.numbered h.numbered) h.accepts h.plain turn
      · rw [show s.machine.task? turn.task = none from hnone] at hgiven
        refine .idles nofun hgiven ?_ rfl
        change Idles s.machine (Machine.take b turn _)
        rw [htake]
        exact hi
      · rw [show s.machine.task? turn.task = some t from ht] at hgiven
        exact .turn _ t.id t.stage hi (At.of_task? ht) hgiven hgoes rfl
  | pick =>
    rw [step]
    split
    · rename_i job rest hr hj
      exact .pick job rest hj hr rfl rfl
    · exact .idles nofun rfl (.refl _) rfl
  | done =>
    rw [step]
    split
    · rename_i job hr
      exact .done job hr rfl rfl
    · rename_i hr
      exact .idles (fun _ => hr) rfl (.refl _) rfl
  | timer n =>
    rw [step]
    split
    · exact .idles nofun rfl (.wake _ none _) rfl
    · exact .idles nofun rfl (.refl _) rfl
  | answer id =>
    rw [step]
    split
    · exact .idles nofun rfl (.wake _ none _) rfl
    · exact .idles nofun rfl (.refl _) rfl
  | clock now =>
    exact .idles nofun rfl
      ⟨fun _ _ => Iff.rfl, fun h => h.congr rfl rfl, rfl, rfl, rfl, rfl⟩ rfl
  | outside f => exact .outside rfl rfl

end Scene

end CodeIndex.Scheduler
