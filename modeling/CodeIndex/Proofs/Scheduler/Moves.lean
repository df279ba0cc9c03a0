import CodeIndex.Proofs.Scheduler.Tasks

/-!
# What a turn leaves alone

A turn of a task writes the log, may hand in one job, and moves its own task to another stage or ends it.
Other tasks stay where they are; the only new ones wait for a quiet time or begin a cycle.  `Extends` says
so of the parts of a turn that move no task at all, `Moves` of those that move the turn's own.
-/

namespace CodeIndex.Scheduler.Machine

variable {σ : Type} {b : Backend σ} {m m' m'' : Machine σ} {id : TaskId} {next : Option Stage}
  {work : Option Work}

def Logged (b : Backend σ) (w w' : σ) : Prop :=
  ∃ events : List Log.Event, w' = events.foldl (fun w e => b.log e w) w

theorem Logged.refl (b : Backend σ) (w : σ) : Logged b w w := ⟨[], rfl⟩

theorem Logged.log (b : Backend σ) (e : Log.Event) (w : σ) : Logged b w (b.log e w) := ⟨[e], rfl⟩

theorem Logged.trans {w w' w'' : σ} (h : Logged b w w') (h' : Logged b w' w'') :
    Logged b w w'' := by
  obtain ⟨events, rfl⟩ := h
  obtain ⟨events', rfl⟩ := h'
  exact ⟨events ++ events', List.foldl_append.symm⟩

/-- What logging keeps is kept. -/
theorem Logged.eq {α : Type} {g : σ → α} (hg : ∀ e w, g (b.log e w) = g w) {w w' : σ}
    (h : Logged b w w') : g w' = g w := by
  obtain ⟨events, rfl⟩ := h
  induction events generalizing w with
  | nil => rfl
  | cons e rest ih => rw [List.foldl_cons, ih, hg]

/-- No task has moved; new ones wait for a quiet time or begin a cycle. -/
structure Extends (b : Backend σ) (m m' : Machine σ) : Prop where
  kept : ∀ {i st}, m.At i st → m'.At i st
  old : ∀ {i st}, m'.At i st → m.At i st ∨ st = .quiet ∨ st = .cycle
  numbered : m.Numbered → m'.Numbered
  created : m.created ≤ m'.created
  world : Logged b m.world m'.world
  jobs : m'.jobs = m.jobs
  root : m'.root = m.root

/-- A task has moved to a stage or has ended, and perhaps handed in a change of the store. -/
structure Moves (b : Backend σ) (id : TaskId) (next : Option Stage) (work : Option Work)
    (m m' : Machine σ) : Prop where
  kept : ∀ {i st}, i ≠ id → m.At i st → m'.At i st
  here : ∀ {st}, next = some st → m'.At id st
  old : ∀ {i st}, m'.At i st →
    (i ≠ id ∧ m.At i st) ∨ (i = id ∧ next = some st) ∨ st = .quiet ∨ st = .cycle
  numbered : m'.Numbered
  world : Logged b m.world m'.world
  jobs : m'.jobs = m.jobs ++ (work.map (Job.mk id)).toList
  root : m'.root = m.root

/-! ## Extensions -/

theorem Extends.refl (b : Backend σ) (m : Machine σ) : Extends b m m where
  kept h := h
  old h := .inl h
  numbered h := h
  created := Nat.le_refl _
  world := .refl b _
  jobs := rfl
  root := rfl

theorem Extends.trans (h : Extends b m m') (h' : Extends b m' m'') : Extends b m m'' where
  kept ha := h'.kept (h.kept ha)
  old ha := by
    rcases h'.old ha with ha | hq
    · exact h.old ha
    · exact .inr hq
  numbered hn := h'.numbered (h.numbered hn)
  created := Nat.le_trans h.created h'.created
  world := h.world.trans h'.world
  jobs := h'.jobs.trans h.jobs
  root := h'.root.trans h.root

theorem Extends.update (b : Backend σ) (f : Scheduler → Scheduler) (m : Machine σ) :
    Extends b m (m.update f) :=
  { Extends.refl b m with numbered := fun h => h.congr rfl rfl }

theorem Extends.log (b : Backend σ) (level : Log.Level) (name : String) (members : Value.Members)
    (m : Machine σ) : Extends b m (m.log b level name members) :=
  { Extends.refl b m with
    numbered := fun h => h.congr rfl rfl
    world := .log b _ _ }

/-- Cancelling takes no task away and adds none. -/
theorem Extends.cancel (b : Backend σ) (id : TaskId) (m : Machine σ) : Extends b m (m.cancel id) where
  kept h := at_cancel.mpr h
  old h := .inl (at_cancel.mp h)
  numbered h := h.cancel
  created := by
    unfold Machine.cancel
    split
    · exact Nat.le_refl _
    · dsimp only
      split <;> exact Nat.le_refl _
  world := by
    unfold Machine.cancel
    split
    · exact .refl b _
    · dsimp only
      split <;> exact .refl b _
  jobs := by
    unfold Machine.cancel
    split
    · rfl
    · dsimp only
      split <;> rfl
  root := by
    unfold Machine.cancel
    split
    · rfl
    · dsimp only
      split <;> rfl

theorem Extends.spawn (b : Backend σ) {stage : Stage} (h : stage = .quiet ∨ stage = .cycle)
    (m : Machine σ) : Extends b m (m.spawn stage) where
  kept ha := at_spawn.mpr (.inl ha)
  old ha := by
    rcases at_spawn.mp ha with ha | ⟨-, rfl⟩
    · exact .inl ha
    · exact .inr h
  numbered h := h.spawn
  created := Nat.le_succ _
  world := .refl b _
  jobs := rfl
  root := rfl

theorem scheduler_cancel : (m.cancel id).scheduler = m.scheduler := by
  unfold cancel
  split
  · rfl
  · dsimp only
    split <;> rfl

theorem Extends.restartQuiet (b : Backend σ) (m : Machine σ) : Extends b m m.restartQuiet := by
  unfold Machine.restartQuiet
  split
  · exact .refl b m
  · have hspawn : ∀ m : Machine σ,
        Extends b m { (m.spawn .quiet) with quiet := some m.created } :=
      fun m => { Extends.spawn b (.inl rfl) m with numbered := fun h => h.spawn.congr rfl rfl }
    split
    · exact (Extends.cancel b _ m).trans (hspawn _)
    · exact hspawn m

theorem scheduler_restartQuiet : m.restartQuiet.scheduler = m.scheduler := by
  unfold restartQuiet
  split
  · rfl
  · split
    · exact scheduler_cancel
    · rfl

theorem Extends.requeue (b : Backend σ) (m : Machine σ) : Extends b m (m.requeue b) := by
  unfold Machine.requeue
  split
  · exact .refl b m
  · exact (Extends.log b _ _ _ m).trans (Extends.restartQuiet b _)

theorem scheduler_requeue : (m.requeue b).scheduler = m.scheduler := by
  unfold requeue
  split
  · rfl
  · exact scheduler_restartQuiet

theorem Extends.notePurge (b : Backend σ) (path : String) (result : Option (Except Trouble Nat))
    (m : Machine σ) : Extends b m (m.notePurge b path result) := by
  unfold Machine.notePurge
  split
  · exact .log b _ _ _ m
  · exact (Extends.update b _ m).trans (.log b _ _ _ _)
  · exact .refl b m

/-! ## Moves -/

theorem Extends.moves (h : Extends b m m') (h' : Moves b id next work m' m'') :
    Moves b id next work m m'' where
  kept hne ha := h'.kept hne (h.kept ha)
  here := h'.here
  old ha := by
    rcases h'.old ha with ⟨hne, ha⟩ | hrest
    · rcases h.old ha with ha | hq
      · exact .inl ⟨hne, ha⟩
      · exact .inr (.inr hq)
    · exact .inr hrest
  numbered := h'.numbered
  world := h.world.trans h'.world
  jobs := by rw [h'.jobs, h.jobs]
  root := h'.root.trans h.root

theorem Moves.suspend (b : Backend σ) (hn : m.Numbered) (hid : id < m.created) (stage : Stage)
    (wait : Wait) : Moves b id (some stage) none m (m.suspend id stage wait) where
  kept hne ha := at_suspend.mpr (.inl ⟨hne, ha⟩)
  here h := at_suspend.mpr (.inr ⟨rfl, (Option.some.inj h).symm⟩)
  old ha := by
    rcases at_suspend.mp ha with ha | ⟨rfl, rfl⟩
    · exact .inl ha
    · exact .inr (.inl ⟨rfl, rfl⟩)
  numbered := hn.suspend hid
  world := .refl b _
  jobs := (List.append_nil _).symm
  root := rfl

theorem Moves.sleep (b : Backend σ) (hn : m.Numbered) (hid : id < m.created) (stage : Stage)
    (time : Nat) : Moves b id (some stage) none m (m.sleep id stage time) :=
  { Moves.suspend b hn hid stage .timer with numbered := (hn.suspend hid).congr rfl rfl }

theorem Moves.yield (b : Backend σ) (hn : m.Numbered) (hid : id < m.created) (stage : Stage) :
    Moves b id (some stage) none m (m.yield id stage) :=
  { Moves.suspend b hn hid stage .turn with numbered := (hn.suspend hid).congr rfl rfl }

theorem Moves.submit (b : Backend σ) (hn : m.Numbered) (hid : id < m.created) (stage : Stage)
    (work : Work) : Moves b id (some stage) (some work) m (m.submit id stage work) :=
  { Moves.suspend b hn hid stage .job with
    numbered := (hn.suspend hid).congr rfl rfl
    jobs := rfl }

theorem foldl_wake_frame (tasks : List Task) (m : Machine σ) :
    (tasks.foldl (fun m t => m.wake t.id none) m).world = m.world ∧
      (tasks.foldl (fun m t => m.wake t.id none) m).jobs = m.jobs ∧
      (tasks.foldl (fun m t => m.wake t.id none) m).root = m.root ∧
      (tasks.foldl (fun m t => m.wake t.id none) m).scheduler = m.scheduler := by
  induction tasks generalizing m with
  | nil => exact ⟨rfl, rfl, rfl, rfl⟩
  | cons t rest ih => exact ih (m.wake t.id none)

theorem scheduler_finish {outcome : Outcome} : (m.finish id outcome).scheduler = m.scheduler :=
  (foldl_wake_frame _ _).2.2.2

theorem Moves.finish (b : Backend σ) (hn : m.Numbered) (id : TaskId) (outcome : Outcome) :
    Moves b id none none m (m.finish id outcome) where
  kept hne ha := at_finish.mpr ⟨hne, ha⟩
  here := nofun
  old ha := .inl (at_finish.mp ha)
  numbered := hn.finish
  world := by
    unfold Machine.finish
    rw [(foldl_wake_frame _ _).1]
    exact .refl b _
  jobs := by
    unfold Machine.finish
    rw [(foldl_wake_frame _ _).2.1]
    exact (List.append_nil _).symm
  root := (foldl_wake_frame _ _).2.2.1

/-- Where the turn's own task was before makes no difference. -/
theorem Moves.of_suspend {stage : Stage} {wait : Wait} (h : Moves b id next work m m') :
    Moves b id next work (m.suspend id stage wait) m' where
  kept hne ha := by
    rcases at_suspend.mp ha with ⟨-, ha⟩ | ⟨he, -⟩
    · exact h.kept hne ha
    · exact absurd he hne
  here := h.here
  old ha := by
    rcases h.old ha with ⟨hne, ha⟩ | hrest
    · exact .inl ⟨hne, at_suspend.mpr (.inl ⟨hne, ha⟩)⟩
    · exact .inr hrest
  numbered := h.numbered
  world := h.world
  jobs := h.jobs
  root := h.root

end CodeIndex.Scheduler.Machine
