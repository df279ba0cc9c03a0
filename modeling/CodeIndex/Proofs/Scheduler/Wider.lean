import CodeIndex.Proofs.Scheduler.Interleaving

/-!
# Worlds that hold more

A world may hold more than a backend knows of, such as a record of its calls.  The machine takes the same
steps in such a world as in the world without what is added.
-/

namespace CodeIndex.Scheduler

variable {τ σ : Type}

open Machine

/-- What a backend does in a world that holds more is, seen without what is added, what another does. -/
structure Backend.Shows (f : τ → σ) (b' : Backend τ) (b : Backend σ) : Prop where
  log : ∀ e w, f (b'.log e w) = b.log e (f w)
  isFile : ∀ p w, b'.isFile p w = b.isFile p (f w)
  has : ∀ p w, b'.has p w = b.has p (f w)
  ask : ∀ scan w, f (b'.ask scan w) = b.ask scan (f w)
  isOpen : ∀ w, b'.isOpen w = b.isOpen (f w)
  answer : ∀ scan w, b.answer scan (f w) = ((b'.answer scan w).1, f (b'.answer scan w).2)
  perform : ∀ work w, b.perform work (f w) = ((b'.perform work w).1, f (b'.perform work w).2)

namespace Machine

variable {f : τ → σ} {b' : Backend τ} {b : Backend σ} {m : Machine τ} {id : TaskId} {stage : Stage}

/-- A machine, seen without what its world holds more. -/
def seen (f : τ → σ) (m : Machine τ) : Machine σ :=
  { m with world := f m.world }

@[simp] theorem scheduler_seen : (m.seen f).scheduler = m.scheduler := rfl
@[simp] theorem world_seen : (m.seen f).world = f m.world := rfl
@[simp] theorem cycle_seen : (m.seen f).cycle = m.cycle := rfl
@[simp] theorem quiet_seen : (m.seen f).quiet = m.quiet := rfl
@[simp] theorem now_seen : (m.seen f).now = m.now := rfl
@[simp] theorem quietTime_seen : (m.seen f).quietTime = m.quietTime := rfl
@[simp] theorem isIdle_seen : (m.seen f).isIdle = m.isIdle := rfl
@[simp] theorem jobs_seen : (m.seen f).jobs = m.jobs := rfl
@[simp] theorem watcher_seen : (m.seen f).watcher = m.watcher := rfl
@[simp] theorem turns_seen : (m.seen f).turns = m.turns := rfl
@[simp] theorem timers_seen : (m.seen f).timers = m.timers := rfl
@[simp] theorem root_seen : (m.seen f).root = m.root := rfl
@[simp] theorem task?_seen : (m.seen f).task? id = m.task? id := rfl
@[simp] theorem liveOf_seen (i : Option TaskId) : (m.seen f).liveOf i = m.liveOf i := rfl

/-! ## Steps that leave the world alone -/

@[simp] theorem seen_update (g : Scheduler → Scheduler) : (m.update g).seen f = (m.seen f).update g := rfl

@[simp] theorem seen_suspend (wait : Wait) :
    (m.suspend id stage wait).seen f = (m.seen f).suspend id stage wait := rfl

@[simp] theorem seen_sleep (time : Nat) :
    (m.sleep id stage time).seen f = (m.seen f).sleep id stage time := rfl

@[simp] theorem seen_awaitEnds (ids : List TaskId) :
    (m.awaitEnds id stage ids).seen f = (m.seen f).awaitEnds id stage ids := rfl

theorem seen_foldl {α : Type} {g : Machine τ → α → Machine τ} {g' : Machine σ → α → Machine σ}
    (hg : ∀ m x, (g m x).seen f = g' (m.seen f) x) (items : List α) :
    (items.foldl g m).seen f = items.foldl g' (m.seen f) := by
  induction items generalizing m with
  | nil => rfl
  | cons x rest ih => rw [List.foldl_cons, List.foldl_cons, ih, hg]

@[simp] theorem seen_finish (outcome : Outcome) :
    (m.finish id outcome).seen f = (m.seen f).finish id outcome :=
  seen_foldl (fun _ _ => rfl) _

@[simp] theorem seen_cancel : (m.cancel id).seen f = (m.seen f).cancel id := by
  unfold cancel
  rw [task?_seen]
  split
  · rfl
  · dsimp only
    split <;> rfl

@[simp] theorem seen_restartQuiet : m.restartQuiet.seen f = (m.seen f).restartQuiet := by
  unfold restartQuiet
  rw [scheduler_seen, quiet_seen, liveOf_seen]
  split
  · rfl
  · split
    · rw [← seen_cancel]
      rfl
    · rfl

theorem seen_awaitIdle (deadline : Nat) :
    (m.awaitIdle id deadline).seen f = (m.seen f).awaitIdle id deadline := by
  unfold awaitIdle
  rw [isIdle_seen, now_seen, quiet_seen, cycle_seen, liveOf_seen, liveOf_seen]
  split
  · exact seen_finish _
  · split
    · exact seen_finish _
    · split <;> rfl

theorem seen_beginQuiet : (m.beginQuiet id).seen f = (m.seen f).beginQuiet id := by
  unfold beginQuiet
  rw [quietTime_seen]
  split <;> rfl

theorem seen_endQuiet : (m.endQuiet id).seen f = (m.seen f).endQuiet id :=
  seen_finish _

/-! ## Steps that read or change the world -/

variable (h : b'.Shows f b)
include h

theorem seen_log (level : Log.Level) (name : String) (members : Value.Members) :
    (m.log b' level name members).seen f = (m.seen f).log b level name members := by
  simp only [seen, log, h.log]

theorem seen_noteChange (path : String) :
    (m.noteChange b' path).seen f = (m.seen f).noteChange b path := by
  unfold noteChange
  rw [scheduler_seen, root_seen]
  dsimp only
  split
  · rw [seen_log h]
    rfl
  · exact seen_restartQuiet

theorem seen_deferDelete (key : String) :
    (m.deferDelete b' key).seen f = (m.seen f).deferDelete b key :=
  seen_log h _ _ _

theorem seen_notePurge (path : String) (result : Option (Except Trouble Nat)) :
    (m.notePurge b' path result).seen f = (m.seen f).notePurge b path result := by
  unfold notePurge
  split
  · exact seen_log h _ _ _
  · exact seen_log h _ _ _
  · rfl

theorem seen_perform (job : Job) : (m.perform b' job).seen f = (m.seen f).perform b job := by
  unfold perform
  rw [world_seen, h.perform]
  rfl

theorem seen_performAll : (m.performAll b').seen f = (m.seen f).performAll b :=
  seen_foldl (fun _ job => seen_perform h job) _

theorem seen_start : (m.start b').seen f = (m.seen f).start b := by
  unfold start
  rw [scheduler_seen]
  split
  · rfl
  · exact seen_log h _ _ _

/-! ## Cycles and rebuilds -/

theorem seen_requeue : (m.requeue b').seen f = (m.seen f).requeue b := by
  unfold requeue
  rw [scheduler_seen]
  split
  · rfl
  · rw [seen_restartQuiet, seen_log h]

theorem seen_drain (ending : Ending) (rest : List (String × Operation)) :
    (drain b' id ending rest m).seen f = drain b id ending rest (m.seen f) := by
  induction rest generalizing m with
  | nil => rw [drain, drain, seen_finish, seen_requeue h]
  | cons e rest ih =>
    obtain ⟨path, op⟩ := e
    cases op with
    | change => rw [drain, drain, ih, seen_update]
    | delete =>
      rw [drain, drain, scheduler_seen]
      split
      · rfl
      · exact ih

theorem seen_conclude (ending : Ending) :
    (m.conclude b' id ending).seen f = (m.seen f).conclude b id ending :=
  seen_drain h _ _

theorem seen_cycleFailed (batch : List String) (t : Trouble) :
    (m.cycleFailed b' id batch t).seen f = (m.seen f).cycleFailed b id batch t := by
  unfold cycleFailed
  cases t with
  | mishap c => rw [seen_conclude h, seen_log h, seen_update]
  | failure e =>
    dsimp only
    rw [seen_conclude h]
    split <;> rw [seen_log h, seen_update]

theorem seen_cycleMerged (batch : List String) (result : Option (Except Trouble Nat)) :
    (m.cycleMerged b' id batch result).seen f = (m.seen f).cycleMerged b id batch result := by
  unfold cycleMerged
  split
  · rw [seen_conclude h, seen_log h, seen_update]
  · exact seen_cycleFailed h _ _
  · exact seen_conclude h _

theorem seen_rebuildStored (result : Option (Except Trouble Nat)) :
    (m.rebuildStored b' id result).seen f = (m.seen f).rebuildStored b id result := by
  unfold rebuildStored
  split <;> rw [seen_conclude h] <;> rfl

theorem seen_cycleAnswered (batch : List String) :
    (m.cycleAnswered b' id batch).seen f = (m.seen f).cycleAnswered b id batch := by
  unfold cycleAnswered
  rw [world_seen, h.answer]
  rcases b'.answer (.paths batch) m.world with ⟨_ | _, w⟩
  · exact seen_cycleFailed h _ _
  · rfl

theorem seen_rebuildAnswered : (m.rebuildAnswered b' id).seen f = (m.seen f).rebuildAnswered b id := by
  unfold rebuildAnswered
  rw [world_seen, h.answer]
  rcases b'.answer .all m.world with ⟨_ | _, w⟩
  · exact seen_rebuildStored h _
  · rfl

theorem seen_asked (scan : Scan) :
    ({ m with world := b'.ask scan m.world } : Machine τ).seen f =
      { m.seen f with world := b.ask scan (f m.world) } := by
  rw [seen, h.ask]
  rfl

theorem seen_beginCycle : (m.beginCycle b' id).seen f = (m.seen f).beginCycle b id := by
  unfold beginCycle
  rw [scheduler_seen]
  dsimp only
  split
  · exact seen_finish _
  · rw [← seen_update, ← seen_log h, world_seen, ← h.ask, ← h.isOpen]
    split
    · rw [seen_cycleAnswered h, seen_asked h, ← h.ask]
    · rw [seen_suspend, seen_asked h, ← h.ask]

theorem seen_beginRebuild : (m.beginRebuild b' id).seen f = (m.seen f).beginRebuild b id := by
  unfold beginRebuild
  rw [scheduler_seen, cycle_seen, liveOf_seen]
  split
  · split <;> rfl
  · dsimp only
    rw [← seen_update, ← seen_log h, world_seen, ← h.ask, ← h.isOpen]
    split
    · rw [seen_rebuildAnswered h, seen_asked h, ← h.ask]
    · rw [seen_suspend, seen_asked h, ← h.ask]

/-! ## Notices and the watcher -/

theorem settled_seen (n : Notice) : (m.seen f).settled b n = m.settled b' n := by
  cases n with
  | either path =>
    rw [settled, settled, root_seen, world_seen, h.has]
  | _ => rfl

theorem seen_notify (todo : List Notice) :
    (m.seen f).notify b todo = ((m.notify b' todo).1.seen f, (m.notify b' todo).2) := by
  induction todo generalizing m with
  | nil => rfl
  | cons n rest ih =>
    rw [notify, notify, settled_seen h]
    cases m.settled b' n with
    | change path =>
      dsimp only
      rw [← seen_noteChange h, ih]
    | either path => exact ih
    | delete path =>
      dsimp only
      rw [scheduler_seen, root_seen]
      split
      · rw [← seen_deferDelete h, ih]
      · split
        · rfl
        · exact ih

/-- What a watcher does is the same in a world in which more is written down. -/
theorem seen_watchFrom (messages : List Message) :
    (watchFrom b' id messages m).seen f = watchFrom b id messages (m.seen f) := by
  induction messages generalizing m with
  | nil => rfl
  | cons message rest ih =>
    cases message with
    | broken reason =>
      rw [watchFrom, watchFrom, seen_sleep, seen_log h]
      rfl
    | changes paths =>
      have hbatch : Watch.Batch.ofPaths (b.isFile · (m.seen f).world) (b.has · (m.seen f).world) paths =
          Watch.Batch.ofPaths (b'.isFile · m.world) (b'.has · m.world) paths := by
        simp only [world_seen, h.isFile, h.has]
      have hlog : ∀ members, ({ m.seen f with inbox := rest } : Machine σ).log b .info
          "changes_detected" members = (({ m with inbox := rest } : Machine τ).log b' .info
            "changes_detected" members).seen f := by
        intro members
        rw [seen_log h]
        rfl
      rw [watchFrom, watchFrom]
      dsimp only
      rw [hbatch, hlog, seen_notify h]
      split
      · exact ih
      · cases notify b' _ _ with
        | mk m' due =>
          cases due with
          | none => exact ih
          | some due => rfl

theorem seen_giveNotices (todo : List Notice) (follow : Follow) :
    (m.giveNotices b' id todo follow).seen f = (m.seen f).giveNotices b id todo follow := by
  unfold giveNotices
  rw [seen_notify h]
  rcases m.notify b' todo with ⟨m', _ | ⟨key, rest⟩⟩
  · cases follow with
    | finish => exact seen_finish _
    | watch => exact seen_watchFrom h _
  · rfl

theorem seen_unwatched : (m.unwatched b' id).seen f = (m.seen f).unwatched b id := by
  unfold unwatched
  rw [seen_finish, seen_log h]
  rfl

theorem seen_unwatch : (m.unwatch b' id).seen f = (m.seen f).unwatch b id := by
  unfold unwatch
  rw [watcher_seen, liveOf_seen]
  split
  · rw [seen_awaitEnds, seen_cancel]
  · exact seen_unwatched h

theorem seen_stopWorker : (m.stopWorker b' id).seen f = (m.seen f).stopWorker b id := by
  unfold stopWorker
  rw [scheduler_seen]
  dsimp only
  split
  · rw [← seen_performAll h, seen_finish, seen_log h]
    rfl
  · rw [seen_finish, seen_log h]
    rfl

theorem seen_stopCycle : (m.stopCycle b' id).seen f = (m.seen f).stopCycle b id := by
  unfold stopCycle
  rw [cycle_seen, liveOf_seen]
  split
  · rfl
  · exact seen_stopWorker h

theorem seen_beginStop : (m.beginStop b' id).seen f = (m.seen f).beginStop b id := by
  unfold beginStop
  rw [← seen_update]
  dsimp only
  rw [quiet_seen, liveOf_seen]
  split
  · rw [seen_awaitEnds, seen_cancel]
  · exact seen_stopCycle h

/-- A turn is the same one in a world that holds more. -/
theorem seen_take (turn : Turn) : (m.take b' turn).seen f = (m.seen f).take b turn := by
  unfold take
  rw [task?_seen]
  cases m.task? turn.task with
  | none => rfl
  | some t =>
    dsimp only
    split
    · exact seen_finish _
    · cases t.stage with
      | quiet => exact seen_beginQuiet
      | quietOver => exact seen_endQuiet
      | cycle => exact seen_beginCycle h
      | cycleAnswered batch => exact seen_cycleAnswered h _
      | cycleMerged batch => exact seen_cycleMerged h _ _
      | rebuild => exact seen_beginRebuild h
      | rebuildAnswered => exact seen_rebuildAnswered h
      | rebuildStored => exact seen_rebuildStored h _
      | drained path rest ending =>
        rw [continueFrom, seen_drain h, seen_notePurge h]
        rfl
      | notices todo follow => exact seen_giveNotices h _ _
      | purged path todo follow =>
        rw [continueFrom, seen_giveNotices h, seen_notePurge h]
        rfl
      | stop => exact seen_beginStop h
      | stopQuiet => exact seen_stopCycle h
      | stopCycle => exact seen_stopWorker h
      | idle deadline => exact seen_awaitIdle _
      | watch => exact seen_watchFrom h _
      | unwatch => exact seen_unwatch h
      | unwatched => exact seen_unwatched h

end Machine

/-- A scene, seen without what its world holds more. -/
def Scene.seen (f : τ → σ) (s : Scene τ) : Scene σ :=
  { machine := s.machine.seen f, running := s.running }

/-- An event in a world that holds more, when it is known what happens there to the rest. -/
def Event.widened (lift : (σ → σ) → τ → τ) : Event σ → Event τ
  | .change path => .change path
  | .notices todo => .notices todo
  | .rebuild => .rebuild
  | .idle deadline => .idle deadline
  | .start => .start
  | .stop => .stop
  | .turn n => .turn n
  | .pick => .pick
  | .done => .done
  | .timer n => .timer n
  | .answer id => .answer id
  | .clock now => .clock now
  | .outside g => .outside (lift g)

/-- An event is the same one in a world that holds more. -/
theorem Scene.seen_step {f : τ → σ} {b' : Backend τ} {b : Backend σ} {lift : (σ → σ) → τ → τ}
    (h : b'.Shows f b) (hlift : ∀ g w, f (lift g w) = g (f w)) {s : Scene τ} (e : Event σ) :
    (s.step b' (e.widened lift)).seen f = (s.seen f).step b e := by
  cases e with
  | change path => exact congrArg (Scene.mk · s.running) (seen_noteChange h path)
  | start => exact congrArg (Scene.mk · s.running) (seen_start h)
  | turn n =>
    simp only [Event.widened, Scene.step, Scene.seen, turns_seen]
    cases s.machine.turns[n]? with
    | none => rfl
    | some turn => exact congrArg (Scene.mk · s.running) (seen_take h turn)
  | pick =>
    simp only [Event.widened, Scene.step, Scene.seen, jobs_seen]
    split <;> rfl
  | done =>
    obtain ⟨m, _ | job⟩ := s
    · rfl
    · exact congrArg (Scene.mk · none) (seen_perform h job)
  | timer n =>
    simp only [Event.widened, Scene.step, Scene.seen, timers_seen]
    cases s.machine.timers[n]? <;> rfl
  | answer id =>
    change (Scene.step _ s (.answer id)).seen _ = _
    have hseen : ((s.seen f).machine.task? id).any (·.wait == .answer) =
        (s.machine.task? id).any (·.wait == .answer) := rfl
    rw [Scene.step, Scene.step, hseen]
    split <;> rfl
  | outside g =>
    have hworld : f (lift g s.machine.world) = g (f s.machine.world) := hlift g _
    exact congrArg (fun w => Scene.mk { s.machine with world := w } s.running) hworld
  | _ => rfl

end CodeIndex.Scheduler
