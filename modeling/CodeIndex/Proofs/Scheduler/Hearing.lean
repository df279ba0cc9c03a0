import CodeIndex.Proofs.Scheduler.Moves
import CodeIndex.Scheduler.Task

/-!
# What a turn makes of events

Events reach the scheduler in two ways: a task gives notices, or a drain comes to what was deferred.
Either goes on up to a deletion that is handed to the store, or to its end.  Only what the scheduler
remembers of paths and phases is followed, its `memory`; counters and messages are left out.
-/

namespace CodeIndex.Scheduler

/-- What the scheduler remembers, without its counters and messages. -/
def memory (s : Scheduler) : Scheduler :=
  { s with cycles := 0, lastCount := none, lastError := none }

/-- An event of a path as the scheduler takes it in: during a cycle or a rebuild it is deferred, else a
changed path is collected and a deleted one is left to a purge. -/
def hear (s : Scheduler) (e : String × Operation) : Scheduler :=
  if s.isBusy then s.defer e.1 e.2
  else
    match e.2 with
    | .change => s.collect e.1
    | .delete => s

def Scan.asking : Scan → Stage
  | .all => .rebuildAnswered
  | .paths keys => .cycleAnswered keys

def Scan.storing : Scan → Stage
  | .all => .rebuildStored
  | .paths keys => .cycleMerged keys

/-- The change of the store that a scan's records make. -/
def Scan.work : Scan → List Record → Work
  | .all, records => .rebuild records
  | .paths keys, records => .merge records keys

/-- The scan with which a cycle or a rebuild begins. -/
inductive Begins (s : Scheduler) : Stage → Scan → Prop where
  | cycle (h : s.pending ≠ []) : Begins s .cycle (.paths (Machine.batchOf s.pending))
  | rebuild : Begins s .rebuild .all

/-- The stages at which tasks wait without having begun or handed in anything: where they may go next,
or none if they end. -/
inductive Rests (s : Scheduler) : Stage → Option Stage → Prop where
  | quiet : Rests s .quiet (some .quietOver)
  | quietCancelled : Rests s .quiet none
  | quietOver : Rests s .quietOver none
  | cycle (h : s.pending = [] ∨ s.isBusy = true) : Rests s .cycle none
  | rebuild (h : s.isBusy = true) : Rests s .rebuild (some .rebuild)
  | idle {deadline : Nat} : Rests s (.idle deadline) (some (.idle deadline))
  | idleOver {deadline : Nat} : Rests s (.idle deadline) none

namespace Machine

variable {σ : Type} {b : Backend σ} {m m' m'' : Machine σ} {id : TaskId}

/-! ## Drains -/

/-- Deferred events are applied: changed paths are collected up to the first deletion, which is handed to
the store, or up to the end. -/
inductive Drains (b : Backend σ) (id : TaskId) (ending : Ending) (rest : List (String × Operation))
    (m m' : Machine σ) : Prop where
  | purge (changed : List String) (path : String) (rest' : List (String × Operation))
      (hrest : rest = changed.map (·, .change) ++ (path, .delete) :: rest')
      (hs : m'.scheduler.memory = changed.foldl collect m.scheduler.memory)
      (h : Moves b id (some (.drained path rest' ending)) (some (.purge path)) m m')
  | finish (changed : List String) (hrest : rest = changed.map (·, .change))
      (hs : m'.scheduler.memory = changed.foldl collect m.scheduler.memory)
      (h : Moves b id none none m m')

/-- Draining collects the changed paths up to the first deleted one, which is handed to the store. -/
theorem drains (hn : m.Numbered) (hid : id < m.created) (hw : m.scheduler.hasWorker = true)
    (ending : Ending) (rest : List (String × Operation)) :
    Drains b id ending rest m (drain b id ending rest m) := by
  induction rest generalizing m with
  | nil =>
    rw [drain]
    refine .finish [] rfl ?_ ((Extends.requeue b m).moves
      (.finish b ((Extends.requeue b m).numbered hn) id _))
    rw [scheduler_finish, scheduler_requeue]
    rfl
  | cons e rest ih =>
    obtain ⟨path, op⟩ := e
    cases op with
    | delete =>
      rw [drain, if_pos hw]
      exact .purge [] path rest rfl rfl (.submit b hn hid _ _)
    | change =>
      rw [drain]
      have hx := Extends.update b (·.collect path) m
      cases ih (m := m.update (·.collect path)) (hx.numbered hn) hid hw with
      | purge changed path' rest' hrest hs h =>
        exact .purge (path :: changed) path' rest' (by rw [hrest]; rfl) hs (hx.moves h)
      | finish changed hrest hs h =>
        exact .finish (path :: changed) (by rw [hrest]; rfl) hs (hx.moves h)

theorem Drains.of_suspend {ending : Ending} {rest : List (String × Operation)} {stage : Stage}
    {wait : Wait} (h : Drains b id ending rest m m') :
    Drains b id ending rest (m.suspend id stage wait) m' := by
  cases h with
  | purge changed path rest' hrest hs h => exact .purge changed path rest' hrest hs h.of_suspend
  | finish changed hrest hs h => exact .finish changed hrest hs h.of_suspend

theorem Drains.extend {ending : Ending} {rest : List (String × Operation)} (hx : Extends b m m')
    (hs : m'.scheduler.memory = m.scheduler.memory) (h : Drains b id ending rest m' m'') :
    Drains b id ending rest m m'' := by
  cases h with
  | purge changed path rest' hrest hs' h =>
    exact .purge changed path rest' hrest (hs'.trans (by rw [hs])) (hx.moves h)
  | finish changed hrest hs' h => exact .finish changed hrest (hs'.trans (by rw [hs])) (hx.moves h)

/-- A cycle or a rebuild ends: the flag is cleared, and what was deferred is drained. -/
def Concludes (b : Backend σ) (id : TaskId) (m m' : Machine σ) : Prop :=
  ∃ ending, Drains b id ending m.scheduler.deferred (m.update Scheduler.conclude) m'

theorem concludes (h : Extends b m m') (hs : m'.scheduler.memory = m.scheduler.memory)
    (hn : m.Numbered) (hid : id < m.created) (hw : m.scheduler.hasWorker = true) (ending : Ending) :
    Concludes b id m (conclude b id ending m') := by
  -- what is counted and noted before the flag is cleared makes no difference to the drain
  have hworker : m'.scheduler.memory.hasWorker = m.scheduler.memory.hasWorker := by rw [hs]
  have hdeferred : m'.scheduler.memory.deferred = m.scheduler.memory.deferred := by rw [hs]
  change m'.scheduler.deferred = m.scheduler.deferred at hdeferred
  have hx : Extends b (m.update Scheduler.conclude) (m'.update Scheduler.conclude) :=
    { h with numbered := fun hm => (h.numbered (hm.congr rfl rfl)).congr rfl rfl }
  have hs' : (m'.update Scheduler.conclude).scheduler.memory =
      (m.update Scheduler.conclude).scheduler.memory := by
    change m'.scheduler.memory.conclude.memory = m.scheduler.memory.conclude.memory
    rw [hs]
  refine ⟨ending, .extend hx hs' ?_⟩
  unfold conclude
  rw [hdeferred]
  exact drains (m := m'.update Scheduler.conclude) ((h.numbered hn).congr rfl rfl)
    (Nat.lt_of_lt_of_le hid h.created) (hworker.trans hw) ending _

/-! ## Notices -/

/-- The event that a notice amounts to now: the key of its path and what happened to it. -/
def eventOf (b : Backend σ) (m : Machine σ) : Notice → String × Operation
  | .change path => (Path.key m.root path, .change)
  | .delete path => (Path.key m.root path, .delete)
  | .either path =>
    (Path.key m.root path,
      if b.has (m.root.under (Path.ofString (Path.key m.root path))) m.world then .change else .delete)

/-- The events that a task passes on in one turn: all of them during a cycle or a rebuild, else those up
to the first deletion. -/
def passed (isBusy : Bool) : List (String × Operation) → List (String × Operation)
  | [] => []
  | (path, .change) :: rest => (path, .change) :: passed isBusy rest
  | (path, .delete) :: rest => (path, .delete) :: if isBusy then passed isBusy rest else []

/-- The events that a task passes on when it goes on from a stage. -/
def givenFrom (b : Backend σ) (m : Machine σ) : Stage → List (String × Operation)
  | .notices todo .finish => passed m.scheduler.isBusy (todo.map (eventOf b m))
  | .purged _ todo .finish => passed m.scheduler.isBusy (todo.map (eventOf b m))
  | _ => []

/-- Notices are given: the scheduler hears of events, and the first deletion that is not deferred is
handed to the store. -/
inductive Notifies (b : Backend σ) (id : TaskId) (given : List (String × Operation))
    (m m' : Machine σ) : Prop where
  | purge (before : List (String × Operation)) (path : String) (todo : List Notice)
      (hbusy : m.scheduler.isBusy = false) (hgiven : given = before ++ [(path, .delete)])
      (hbefore : ∀ e ∈ before, e.2 = .change)
      (hs : m'.scheduler.memory = given.foldl hear m.scheduler.memory)
      (h : Moves b id (some (.purged path todo .finish)) (some (.purge path)) m m')
  | finish (hgiven : m.scheduler.isBusy = true ∨ ∀ e ∈ given, e.2 = .change)
      (hs : m'.scheduler.memory = given.foldl hear m.scheduler.memory)
      (h : Moves b id none none m m')

def pathOf : Notice → String
  | .change path => path
  | .delete path => path
  | .either path => path

theorem eventOf_fst (n : Notice) : (eventOf b m n).1 = Path.key m.root (pathOf n) := by
  cases n <;> rfl

theorem giveNotices_nil : m.giveNotices b id [] .finish = m.finish id .nothing := rfl

/-- The first notice is seen to, and the others follow unless its deletion has to be purged. -/
theorem giveNotices_cons (n : Notice) (rest : List Notice) :
    m.giveNotices b id (n :: rest) .finish =
      match (eventOf b m n).2 with
      | .change => (m.noteChange b (pathOf n)).giveNotices b id rest .finish
      | .delete =>
        if m.scheduler.isBusy then
          (m.deferDelete b (eventOf b m n).1).giveNotices b id rest .finish
        else if m.scheduler.hasWorker then
          m.submit id (.purged (eventOf b m n).1 rest .finish) (.purge (eventOf b m n).1)
        else m.giveNotices b id rest .finish := by
  have hdelete : ∀ path : String, m.settled b n = .delete path →
      m.giveNotices b id (n :: rest) .finish =
        if m.scheduler.isBusy then
          (m.deferDelete b (Path.key m.root path)).giveNotices b id rest .finish
        else if m.scheduler.hasWorker then
          m.submit id (.purged (Path.key m.root path) rest .finish) (.purge (Path.key m.root path))
        else m.giveNotices b id rest .finish := by
    intro path h
    unfold giveNotices
    rw [notify, h]
    by_cases hbusy : m.scheduler.isBusy = true
    · simp only [if_pos hbusy]
    · by_cases hw : m.scheduler.hasWorker = true
      · simp only [if_neg hbusy, if_pos hw]
      · simp only [if_neg hbusy, if_neg hw]
  have hchange : ∀ path : String, m.settled b n = .change path →
      m.giveNotices b id (n :: rest) .finish =
        (m.noteChange b path).giveNotices b id rest .finish := by
    intro path h
    unfold giveNotices
    rw [notify, h]
  cases n with
  | change path => exact hchange path rfl
  | delete path => exact hdelete path rfl
  | either path =>
    by_cases h : b.has (m.root.under (Path.ofString (Path.key m.root path))) m.world
    · rw [hchange path (by rw [settled, if_pos h])]
      simp only [eventOf, if_pos h, pathOf]
    · rw [hdelete path (by rw [settled, if_neg h])]
      simp only [eventOf, if_neg h]

theorem Extends.noteChange (b : Backend σ) (path : String) (m : Machine σ) :
    Extends b m (m.noteChange b path) := by
  unfold Machine.noteChange
  dsimp only
  split
  · exact (Extends.update b _ m).trans (.log b _ _ _ _)
  · exact (Extends.update b _ m).trans (.restartQuiet b _)

theorem memory_noteChange (path : String) :
    (m.noteChange b path).scheduler.memory =
      m.scheduler.memory.hear (Path.key m.root path, .change) := by
  unfold noteChange hear
  by_cases h : m.scheduler.isBusy
  · rw [if_pos h, if_pos (show m.scheduler.memory.isBusy = true from h)]
    rfl
  · rw [if_neg h, if_neg (show ¬m.scheduler.memory.isBusy = true from h), scheduler_restartQuiet]
    rfl

theorem Extends.deferDelete (b : Backend σ) (key : String) (m : Machine σ) :
    Extends b m (m.deferDelete b key) :=
  (Extends.update b _ m).trans (.log b _ _ _ _)

theorem memory_deferDelete (h : m.scheduler.isBusy = true) (key : String) :
    (m.deferDelete b key).scheduler.memory = m.scheduler.memory.hear (key, .delete) := by
  rw [hear, if_pos (show m.scheduler.memory.isBusy = true from h)]
  rfl

theorem hear_flags (s : Scheduler) (e : String × Operation) :
    (s.hear e).isBusy = s.isBusy ∧ (s.hear e).hasWorker = s.hasWorker := by
  unfold hear
  split
  · exact ⟨rfl, rfl⟩
  · split <;> exact ⟨rfl, rfl⟩

theorem flags_of_hear {e : String × Operation}
    (h : m'.scheduler.memory = m.scheduler.memory.hear e) :
    m'.scheduler.isBusy = m.scheduler.isBusy ∧ m'.scheduler.hasWorker = m.scheduler.hasWorker := by
  have hb : m'.scheduler.memory.isBusy = m.scheduler.memory.isBusy := by
    rw [h, (hear_flags _ e).1]
  have hw : m'.scheduler.memory.hasWorker = m.scheduler.memory.hasWorker := by
    rw [h, (hear_flags _ e).2]
  exact ⟨hb, hw⟩

theorem eventOf_extends (hhas : ∀ e p w, b.has p (b.log e w) = b.has p w) (h : Extends b m m')
    (n : Notice) : eventOf b m' n = eventOf b m n := by
  cases n with
  | change path => simp only [eventOf, h.root]
  | delete path => simp only [eventOf, h.root]
  | either path => simp only [eventOf, h.root, h.world.eq fun e w => hhas e _ w]

/-- Notices that are given go on behind an event that moved no task. -/
theorem Notifies.cons {given : List (String × Operation)} {e : String × Operation}
    (hx : Extends b m m') (he : m'.scheduler.memory = m.scheduler.memory.hear e)
    (hop : m.scheduler.isBusy = true ∨ e.2 = .change) (h : Notifies b id given m' m'') :
    Notifies b id (e :: given) m m'' := by
  have hflags := flags_of_hear he
  cases h with
  | purge before path todo hbusy hgiven hbefore hs h =>
    rw [hflags.1] at hbusy
    have hop : e.2 = .change := hop.resolve_left (by rw [hbusy]; decide)
    refine .purge (e :: before) path todo hbusy (by rw [hgiven]; rfl) ?_ ?_ (hx.moves h)
    · exact List.forall_mem_cons.mpr ⟨hop, hbefore⟩
    · rw [hs, he, List.foldl_cons]
  | finish hgiven hs h =>
    refine .finish ?_ (by rw [hs, he, List.foldl_cons]) (hx.moves h)
    rw [hflags.1] at hgiven
    by_cases hbusy : m.scheduler.isBusy = true
    · exact .inl hbusy
    · exact .inr (List.forall_mem_cons.mpr
        ⟨hop.resolve_left hbusy, hgiven.resolve_left hbusy⟩)

/-- The events that notices amount to when they are given one after another, up to the first deletion
that is handed to the store. -/
def told (b : Backend σ) : List Notice → Machine σ → List (String × Operation)
  | [], _ => []
  | n :: rest, m =>
    eventOf b m n ::
      match (eventOf b m n).2 with
      | .change => told b rest (m.noteChange b (pathOf n))
      | .delete =>
        if m.scheduler.isBusy then told b rest (m.deferDelete b (eventOf b m n).1)
        else if m.scheduler.hasWorker then []
        else told b rest m

/-- Giving notices is hearing of them up to the first deletion that has to be purged. -/
theorem notifies (hn : m.Numbered) (hid : id < m.created) (hw : m.scheduler.hasWorker = true)
    (todo : List Notice) :
    Notifies b id (told b todo m) m (m.giveNotices b id todo .finish) := by
  induction todo generalizing m with
  | nil =>
    refine .finish (.inr (by simp [told])) ?_ (.finish b hn id _)
    rw [giveNotices_nil, scheduler_finish]
    rfl
  | cons n rest ih =>
    -- an event that is deferred or collected leaves the tasks, and the rest is given as before
    have hnext : ∀ m' : Machine σ, Extends b m m' →
        m'.scheduler.memory = m.scheduler.memory.hear (eventOf b m n) →
        (m.scheduler.isBusy = true ∨ (eventOf b m n).2 = .change) →
        Notifies b id (eventOf b m n :: told b rest m') m (m'.giveNotices b id rest .finish) :=
      fun m' hx he hop => (ih (hx.numbered hn) (Nat.lt_of_lt_of_le hid hx.created)
        ((flags_of_hear he).2.trans hw)).cons hx he hop
    rw [giveNotices_cons, told]
    rcases he : eventOf b m n with ⟨key, op⟩
    rw [he] at hnext
    cases op with
    | change =>
      have hkey : key = Path.key m.root (pathOf n) := by rw [← eventOf_fst (b := b), he]
      exact hnext _ (Extends.noteChange b (pathOf n) m) (by rw [memory_noteChange, hkey]) (.inr rfl)
    | delete =>
      dsimp only
      -- a deletion is deferred, or it ends the turn with a purge
      by_cases hbusy : m.scheduler.isBusy = true
      · rw [if_pos hbusy, if_pos hbusy]
        exact hnext _ (Extends.deferDelete b key m) (memory_deferDelete hbusy key) (.inl hbusy)
      · rw [if_neg hbusy, if_neg hbusy, if_pos hw, if_pos hw]
        have hbusy : m.scheduler.isBusy = false := Bool.eq_false_iff.mpr hbusy
        refine .purge [] key rest hbusy rfl (by simp) ?_ (.submit b hn hid _ _)
        rw [List.foldl_cons, hear, if_neg (by
          rw [show m.scheduler.memory.isBusy = false from hbusy]; decide)]
        rfl

/-- What notices amount to can be told in advance if logging leaves the files alone. -/
theorem told_eq_passed (hhas : ∀ e p w, b.has p (b.log e w) = b.has p w)
    (hw : m.scheduler.hasWorker = true) (todo : List Notice) :
    told b todo m = passed m.scheduler.isBusy (todo.map (eventOf b m)) := by
  induction todo generalizing m with
  | nil => rfl
  | cons n rest ih =>
    have hnext : ∀ m' : Machine σ, Extends b m m' →
        m'.scheduler.memory = m.scheduler.memory.hear (eventOf b m n) →
        told b rest m' = passed m.scheduler.isBusy (rest.map (eventOf b m)) := by
      intro m' hx he
      have hflags := flags_of_hear he
      rw [ih (hflags.2.trans hw), hflags.1,
        List.map_congr_left fun n _ => eventOf_extends hhas hx n]
    rw [told, List.map_cons]
    rcases he : eventOf b m n with ⟨key, op⟩
    rw [he] at hnext
    cases op with
    | change =>
      have hkey : key = Path.key m.root (pathOf n) := by rw [← eventOf_fst (b := b), he]
      rw [passed]
      exact congrArg _ (hnext _ (Extends.noteChange b (pathOf n) m)
        (by rw [memory_noteChange, hkey]))
    | delete =>
      dsimp only
      by_cases hbusy : m.scheduler.isBusy = true
      · rw [passed, if_pos hbusy, if_pos hbusy,
          hnext _ (Extends.deferDelete b key m) (memory_deferDelete hbusy key)]
      · rw [passed, if_neg hbusy, if_neg hbusy, if_pos hw]

theorem Notifies.extend {given : List (String × Operation)} (hx : Extends b m m')
    (hs : m'.scheduler.memory = m.scheduler.memory) (h : Notifies b id given m' m'') :
    Notifies b id given m m'' := by
  have hbusy : m'.scheduler.isBusy = m.scheduler.isBusy := by
    change m'.scheduler.memory.isBusy = m.scheduler.memory.isBusy
    rw [hs]
  cases h with
  | purge before path todo hb hgiven hbefore hs' h =>
    exact .purge before path todo (hbusy ▸ hb) hgiven hbefore (hs'.trans (by rw [hs])) (hx.moves h)
  | finish hgiven hs' h =>
    exact .finish (hbusy ▸ hgiven) (hs'.trans (by rw [hs])) (hx.moves h)

theorem memory_notePurge (path : String) (result : Option (Except Trouble Nat)) :
    (m.notePurge b path result).scheduler.memory = m.scheduler.memory := by
  unfold notePurge
  split <;> rfl

end Machine

end CodeIndex.Scheduler
