import CodeIndex.Proofs.Scheduler.Draining
import CodeIndex.Proofs.Scheduler.Remembering

/-!
# What a full rebuild forgets

A cycle or a rebuild takes the collected paths when it begins, and does not give them back when it fails.
What the scheduler is told from then on is another matter: it is deferred, and when the cycle or rebuild
ends, one way or the other, changed paths are collected again and deleted ones are handed to the store.  So
what is remembered at the end is what was told last of each path, and what drains held at the beginning;
both are followed exactly.
-/

namespace CodeIndex.Scheduler

variable {σ : Type}

/-! ## The last event of a path -/

/-- Of the events of a path the last is such. -/
def IsLast (p : String) (op : Operation) (events : List (String × Operation)) : Prop :=
  ∃ earlier later, events = earlier ++ (p, op) :: later ∧ ∀ e ∈ later, e.1 ≠ p

theorem isLast_cons {p : String} {op : Operation} {e : String × Operation}
    {events : List (String × Operation)} :
    IsLast p op (e :: events) ↔ IsLast p op events ∨ e = (p, op) ∧ ∀ e ∈ events, e.1 ≠ p := by
  constructor
  · rintro ⟨earlier, later, he, hlater⟩
    cases earlier with
    | nil =>
      obtain ⟨rfl, rfl⟩ := List.cons.inj he
      exact .inr ⟨rfl, hlater⟩
    | cons x earlier =>
      obtain ⟨rfl, rfl⟩ := List.cons.inj he
      exact .inl ⟨earlier, later, rfl, hlater⟩
  · rintro (⟨earlier, later, rfl, hlater⟩ | ⟨rfl, hnot⟩)
    · exact ⟨e :: earlier, later, rfl, hlater⟩
    · exact ⟨[], events, rfl, hnot⟩

def deferAll (deferred events : List (String × Operation)) : List (String × Operation) :=
  events.foldl (fun d e => deferIn d e.1 e.2) deferred

/-- What is deferred of a path is the last of its events. -/
theorem mem_deferAll {deferred events : List (String × Operation)}
    (hn : (deferred.map Prod.fst).Nodup) {p : String} {op : Operation} :
    (p, op) ∈ deferAll deferred events ↔
      IsLast p op events ∨ (p, op) ∈ deferred ∧ ∀ e ∈ events, e.1 ≠ p := by
  induction events generalizing deferred with
  | nil => simp [deferAll, IsLast]
  | cons e events ih =>
    obtain ⟨path, o⟩ := e
    have hrest : (p, op) ∈ deferAll deferred ((path, o) :: events) ↔
        IsLast p op events ∨ (p, op) ∈ deferIn deferred path o ∧ ∀ e ∈ events, e.1 ≠ p :=
      ih (nodup_deferIn hn path o)
    rw [hrest, mem_deferIn hn, isLast_cons]
    by_cases hp : p = path
    · subst hp
      -- a new event takes the place of whatever was deferred of its path
      have hnot : ¬∀ e ∈ (p, o) :: events, e.1 ≠ p := fun h => h _ List.mem_cons_self rfl
      have hfalse : ¬((p, op) ∈ deferred ∧ ∀ e ∈ (p, o) :: events, e.1 ≠ p) := fun h => hnot h.2
      rw [or_iff_left hfalse, Prod.mk.injEq, eq_comm (a := o)]
      simp only [true_and, ne_eq, not_true_eq_false, false_and, or_false]
    · simp [Prod.mk.injEq, hp, Ne.symm hp]

theorem mem_deferAll_nil {events : List (String × Operation)} {p : String} {op : Operation} :
    (p, op) ∈ deferAll [] events ↔ IsLast p op events := by
  rw [mem_deferAll (by exact List.nodup_nil)]
  simp

/-- During a cycle or a rebuild all that is heard is deferred. -/
theorem foldl_hear_of_busy {s : Scheduler} (hbusy : s.isBusy = true)
    (given : List (String × Operation)) :
    given.foldl hear s = { s with deferred := deferAll s.deferred given } := by
  induction given generalizing s with
  | nil => rfl
  | cons e rest ih =>
    have hhear : s.hear e = s.defer e.1 e.2 := by rw [hear, if_pos hbusy]
    rw [List.foldl_cons, hhear, ih (s := s.defer e.1 e.2) hbusy]
    rfl

/-! ## Nothing is deferred between cycles -/

/-- Events are deferred only during a cycle or a rebuild. -/
def IsSettled (s : Scheduler) : Prop :=
  s.isBusy = false → s.deferred = []

theorem isSettled_memory {s : Scheduler} : s.memory.IsSettled ↔ s.IsSettled := Iff.rfl

theorem IsSettled.foldl_hear {s : Scheduler} (h : s.IsSettled)
    (given : List (String × Operation)) : (given.foldl hear s).IsSettled := by
  intro hidle
  rw [(foldl_hear_flags given s).2] at hidle
  rw [(heard_idle hidle (fun _ => []) given ∅).1]
  exact h hidle

namespace Machine

variable {b : Backend σ} {m m' : Machine σ} {id : TaskId} {stage : Stage} {next : Option Stage}
  {work : Option Work} {p : String}

theorem Drains.isSettled {ending : Ending} {rest : List (String × Operation)}
    (hd : Drains b id ending rest m m') (h : m.scheduler.IsSettled) : m'.scheduler.IsSettled := by
  unfold IsSettled
  rw [hd.memory.1, hd.memory.2]
  exact h

theorem Concludes.isSettled (hc : Concludes b id m m') : m'.scheduler.IsSettled := by
  obtain ⟨ending, hd⟩ := hc
  exact hd.isSettled fun _ => rfl

theorem Hears.isSettled {scan : Scan} (hh : Hears b id scan m m') (h : m.scheduler.IsSettled) :
    m'.scheduler.IsSettled := by
  cases hh with
  | answered records w ha hs hm => exact hs ▸ h
  | failed t w ha hc => exact hc.isSettled

theorem Goes.isSettled (hg : Goes b id stage m m') (h : m.scheduler.IsSettled) :
    m'.scheduler.IsSettled := by
  cases hg with
  | rests hr hs hm => exact hs ▸ h
  | asks scan w hb hidle hw hs hm =>
    rw [hs]
    exact nofun
  | asksAndHears scan w hb hidle hw hg => exact hg.isSettled nofun
  | hears scan hg => exact hg.isSettled h
  | stored scan hc => exact hc.isSettled
  | drains hd => exact hd.isSettled h
  | notifies hst hg hgiven =>
    rw [← isSettled_memory, hg.moves.1]
    exact (isSettled_memory.mpr h).foldl_hear _

/-- What holds of a machine that runs, at any time. -/
structure Orderly (m : Machine σ) : Prop where
  steady : m.Steady
  holder : ∃ h, m.Holder h
  settled : m.scheduler.IsSettled

theorem IsFresh.orderly_start (hm : m.IsFresh) : (m.start b).Orderly where
  steady := hm.steady_start
  holder := ⟨none, hm.holder_start⟩
  settled _ := by
    rw [hm.start_eq]
    change m.scheduler.deferred = []
    rw [hm.scheduler]

end Machine

open Machine

namespace Scene

variable {b : Backend σ} {s s' : Scene σ} {e : Event σ}

theorem Steps.isSettled (h : Steps b s s' e) (hs : s.machine.scheduler.IsSettled) :
    s'.machine.scheduler.IsSettled := by
  cases h with
  | idles he hg h hr => exact h.scheduler ▸ hs
  | change hx hmem hr =>
    rw [← isSettled_memory, hmem]
    exact (isSettled_memory.mpr hs).foldl_hear [(_, .change)]
  | call hstage hm hr => exact hm ▸ hs
  | turn m id stage hm hat hg h hr => exact h.isSettled (hm.scheduler ▸ hs)
  | pick job rest hjobs hidle hm hr => exact hm ▸ hs
  | done job hjob hm hr => exact hm ▸ hs
  | outside hm hr => exact hm ▸ hs

theorem orderly_step (hs : s.machine.Orderly) (he : e.isStop = false) :
    (s.step b e).machine.Orderly := by
  obtain ⟨h, hh⟩ := hs.holder
  have hsteps := steps_step (b := b) hs.steady e
  obtain ⟨h', hh', -⟩ := hsteps.holder hs.steady hh
  exact ⟨hsteps.steady hs.steady he, ⟨h', hh'⟩, hsteps.isSettled hs.settled⟩

theorem orderly_run {events : List (Event σ)} (hs : s.machine.Orderly)
    (hstop : ∀ e ∈ events, e.isStop = false) : (s.run b events).machine.Orderly := by
  induction events generalizing s with
  | nil => exact hs
  | cons e rest ih =>
    rw [List.forall_mem_cons] at hstop
    exact ih (orderly_step hs hstop.1) hstop.2

end Scene

/-! ## What is kept -/

namespace Machine

variable {b : Backend σ} {m m' : Machine σ} {id : TaskId} {stage : Stage} {next : Option Stage}
  {work : Option Work} {p : String} {held : Set String} {told given : List (String × Operation)}

/-- A cycle or a rebuild of a task is under way. -/
def IsUnderWay (m : Machine σ) (id : TaskId) : Prop :=
  ∃ t ∈ m.tasks, t.id = id ∧ t.stage.isUnderWay = true

instance (m : Machine σ) (id : TaskId) : Decidable (m.IsUnderWay id) :=
  inferInstanceAs (Decidable (∃ t ∈ m.tasks, t.id = id ∧ t.stage.isUnderWay = true))

theorem isUnderWay_iff : m.IsUnderWay id ↔ ∃ st, m.At id st ∧ st.isUnderWay = true := by
  constructor
  · rintro ⟨t, ht, rfl, hst⟩
    exact ⟨t.stage, ⟨t, ht, rfl, rfl⟩, hst⟩
  · rintro ⟨st, ⟨t, ht, rfl, rfl⟩, hst⟩
    exact ⟨t, ht, rfl, hst⟩

theorem Orderly.holder_of_isUnderWay (hs : m.Orderly) (h : m.IsUnderWay id) :
    ∃ st, m.Holder (some (id, st)) := by
  obtain ⟨held, hh⟩ := hs.holder
  obtain ⟨st, hat, hst⟩ := isUnderWay_iff.mp h
  exact ⟨st, hh.eq_some hat hst ▸ hh⟩

theorem Holder.not_isUnderWay (hh : m.Holder none) : ¬m.IsUnderWay id := by
  intro h
  obtain ⟨st, hat, hst⟩ := isUnderWay_iff.mp h
  cases hh.eq_some hat hst

/-- A deletion of a path is not forgotten: it is deferred, held by a drain, or handed to the store. -/
inductive Discards (m : Machine σ) (p : String) : Prop where
  | deferred (h : (p, .delete) ∈ m.scheduler.deferred)
  | drained (i : TaskId) (path : String) (rest : List (String × Operation)) (ending : Ending)
      (hat : m.At i (.drained path rest ending)) (h : (p, .delete) ∈ rest)
  | handed (job : Job) (hjob : job ∈ m.jobs) (h : job.work = .purge p)

/-- While a cycle or a rebuild is under way, what was told since its beginning is deferred, and what
drains held at its beginning is collected or still held. -/
structure Keeps (m : Machine σ) (held : Set String) (told : List (String × Operation)) : Prop where
  deferred : m.scheduler.deferred = deferAll [] told
  collected : ∀ p, (p ∈ m.scheduler.pending ∨ ∃ i, m.Holds p i) ↔ p ∈ held

/-- What was told last of each path is not forgotten, nor what drains held; of changes nothing else is
remembered. -/
structure Accounts (m : Machine σ) (held : Set String) (told : List (String × Operation)) : Prop where
  changes : ∀ p, m.Remembers p ↔ IsLast p .change told ∨ p ∈ held
  deletions : ∀ p, IsLast p .delete told → m.Discards p

theorem remembers_iff :
    m.Remembers p ↔ (p, .change) ∈ m.scheduler.deferred ∨
      (p ∈ m.scheduler.pending ∨ ∃ i, m.Holds p i) := by
  constructor
  · intro h
    rcases h.cases with (h | h) | h
    · exact .inr (.inl h)
    · exact .inl h
    · exact .inr (.inr h)
  · rintro (h | h | ⟨i, h⟩)
    · exact .deferred h
    · exact .pending h
    · exact .of_holds h

theorem Keeps.accounts (hk : m.Keeps held told) : m.Accounts held told where
  changes p := by rw [remembers_iff, hk.deferred, mem_deferAll_nil, hk.collected]
  deletions p h := .deferred (by rw [hk.deferred]; exact mem_deferAll_nil.mpr h)

theorem Keeps.congr (hk : m.Keeps held told) (hs : m'.scheduler = m.scheduler)
    (hat : ∀ i path rest ending,
      m'.At i (.drained path rest ending) ↔ m.At i (.drained path rest ending)) :
    m'.Keeps held told where
  deferred := by rw [hs, hk.deferred]
  collected p := by
    rw [hs, ← hk.collected]
    simp only [Holds, hat]

/-- A change that is noted during a cycle or a rebuild is deferred behind what was told before. -/
theorem Keeps.noteChange (hk : m.Keeps held told) (hbusy : m.scheduler.isBusy = true)
    (path : String) :
    (m.noteChange b path).Keeps held (told ++ [(Path.key m.root path, .change)]) := by
  have hx := Extends.noteChange b path m
  have hheard := memory_noteChange (b := b) (m := m) path
  rw [hear, if_pos (show m.scheduler.memory.isBusy = true from hbusy)] at hheard
  have hdeferred : (m.noteChange b path).scheduler.deferred =
      deferIn m.scheduler.deferred (Path.key m.root path) .change :=
    (congrArg Scheduler.deferred hheard :)
  have hpending : (m.noteChange b path).scheduler.pending = m.scheduler.pending :=
    (congrArg Scheduler.pending hheard :)
  constructor
  · rw [hdeferred, hk.deferred, deferAll, deferAll, List.foldl_append]
    rfl
  · intro p
    rw [hpending, ← hk.collected]
    refine or_congr_right (exists_congr fun i => ⟨?_, ?_⟩)
    · rintro ⟨path', rest, ending, hat, h⟩
      rcases hx.old hat with hat | he | he
      · exact ⟨path', rest, ending, hat, h⟩
      · cases he
      · cases he
    · rintro ⟨path', rest, ending, hat, h⟩
      exact ⟨path', rest, ending, hx.kept hat, h⟩

/-! ## Turns -/

/-- A task that is no drain and does not become one leaves alone what drains hold. -/
theorem Moves.exists_holds_iff (hm : Moves b id next work m m') (hid : ¬m.Holds p id)
    (hnext : ∀ st, next = some st → st.isDrain = false) :
    (∃ i, m'.Holds p i) ↔ ∃ i, m.Holds p i := by
  constructor
  · rintro ⟨i, path, rest, ending, hat, h⟩
    rcases hm.at_drained.mp hat with ⟨-, hat⟩ | ⟨-, he⟩
    · exact ⟨i, path, rest, ending, hat, h⟩
    · cases hnext _ he
  · rintro ⟨i, h⟩
    exact ⟨i, hm.holds (fun he => hid (he ▸ h)) h⟩

/-- A drain collects changed paths or holds on to them. -/
theorem Drains.collected_iff {ending : Ending} {rest : List (String × Operation)}
    (hd : Drains b id ending rest m m') :
    (p ∈ m'.scheduler.pending ∨ ∃ i, m'.Holds p i) ↔
      p ∈ m.scheduler.pending ∨ (p, .change) ∈ rest ∨ ∃ i, i ≠ id ∧ m.Holds p i := by
  have hcollect : ∀ changed : List String,
      m'.scheduler.memory = changed.foldl collect m.scheduler.memory →
        (p ∈ m'.scheduler.pending ↔ p ∈ changed ∨ p ∈ m.scheduler.pending) := by
    intro changed hs
    change p ∈ m'.scheduler.memory.pending ↔ _
    rw [hs, mem_foldl_collect]
    rfl
  have hothers : ∀ {next work}, Moves b id next work m m' →
      ((∃ i, i ≠ id ∧ m'.Holds p i) ↔ ∃ i, i ≠ id ∧ m.Holds p i) := by
    intro next work hm
    refine exists_congr fun i => and_congr_right fun hne => ⟨?_, hm.holds hne⟩
    rintro ⟨path, rest, ending, hat, h⟩
    rcases hm.at_drained.mp hat with ⟨-, hat⟩ | ⟨he, -⟩
    · exact ⟨path, rest, ending, hat, h⟩
    · exact absurd he hne
  have hsplit : (∃ i, m'.Holds p i) ↔ m'.Holds p id ∨ ∃ i, i ≠ id ∧ m'.Holds p i := by
    constructor
    · rintro ⟨i, h⟩
      by_cases he : i = id
      · exact .inl (he ▸ h)
      · exact .inr ⟨i, he, h⟩
    · rintro (h | ⟨i, -, h⟩)
      · exact ⟨_, h⟩
      · exact ⟨i, h⟩
  rw [hsplit]
  cases hd with
  | purge changed path rest' hrest hs hm =>
    have hown : m'.Holds p id ↔ (p, .change) ∈ rest' := by
      constructor
      · rintro ⟨path', rest'', ending', hat, h⟩
        cases hm.numbered.stage_unique hat (hm.here rfl)
        exact h
      · exact fun h => ⟨path, rest', ending, hm.here rfl, h⟩
    rw [hcollect changed hs, hown, hothers hm, hrest]
    simp [or_assoc, or_left_comm]
  | finish changed hrest hs hm =>
    have hown : ¬m'.Holds p id := by
      rintro ⟨path, rest', ending', hat, -⟩
      rcases hm.at_drained.mp hat with ⟨hne, -⟩ | ⟨-, he⟩
      · exact hne rfl
      · cases he
    rw [hcollect changed hs, hothers hm, hrest]
    simp [hown, or_left_comm, or_assoc]

/-- A drain that takes a deletion on hands it to the store or holds it. -/
theorem Drains.discards {ending : Ending} {rest : List (String × Operation)}
    (hd : Drains b id ending rest m m') (h : (p, .delete) ∈ rest) : m'.Discards p := by
  cases hd with
  | purge changed path rest' hrest hs hm =>
    rw [hrest, List.mem_append, List.mem_cons] at h
    rcases h with h | h | h
    · cases (mem_map_change.mp h).2
    · obtain ⟨rfl, -⟩ := Prod.mk.inj h
      refine .handed ⟨id, .purge p⟩ ?_ rfl
      rw [hm.jobs]
      exact List.mem_append_right _ List.mem_cons_self
    · exact .drained id path rest' ending (hm.here rfl) h
  | finish changed hrest hs hm =>
    rw [hrest] at h
    cases (mem_map_change.mp h).2

/-- The end of a cycle or a rebuild. -/
theorem Concludes.accounts (hc : Concludes b id m m') (hid : ∀ p, ¬m.Holds p id)
    (hk : m.Keeps held told) : m'.Accounts held told := by
  obtain ⟨ending, hd⟩ := hc
  constructor
  · intro p
    have hnone : (p, .change) ∉ m'.scheduler.deferred := by
      rw [hd.memory.1]
      exact List.not_mem_nil
    have hothers : (∃ i, i ≠ id ∧ m.Holds p i) ↔ ∃ i, m.Holds p i :=
      ⟨fun ⟨i, _, h⟩ => ⟨i, h⟩, fun ⟨i, h⟩ => ⟨i, fun he => hid p (he ▸ h), h⟩⟩
    rw [remembers_iff, or_iff_right hnone, hd.collected_iff, ← hk.collected, hk.deferred,
      mem_deferAll_nil, or_left_comm]
    exact or_congr_right (or_congr_right hothers)
  · intro p h
    refine hd.discards ?_
    rw [hk.deferred]
    exact mem_deferAll_nil.mpr h

/-- A task that is no drain and does not become one: what is told is deferred, and all else is kept. -/
theorem Moves.keeps (hm : Moves b id next work m m') (given : List (String × Operation))
    (hid : ∀ p, ¬m.Holds p id) (hnext : ∀ st, next = some st → st.isDrain = false)
    (hpending : m'.scheduler.pending = m.scheduler.pending)
    (hdeferred : m'.scheduler.deferred = deferAll m.scheduler.deferred given)
    (hk : m.Keeps held told) : m'.Keeps held (told ++ given) where
  deferred := by rw [hdeferred, hk.deferred, deferAll, deferAll, deferAll, List.foldl_append]
  collected p := by rw [hpending, hm.exists_holds_iff (hid p) hnext, hk.collected]

/-- The extractor's answer leads to the store, or to the end. -/
theorem Hears.accounts {scan : Scan} (hh : Hears b id scan m m') (hn : m.Numbered)
    (hown : ∀ i st, m.At i st → st.isUnderWay = true → i = id) (hat : m.At id scan.asking)
    (hk : m.Keeps held told) :
    m'.Accounts held told ∧ (m'.IsUnderWay id → m'.Keeps held told) := by
  have hid : ∀ p, ¬m.Holds p id := fun p => not_holds hn hat (isDrain_asking scan)
  cases hh with
  | answered records w ha hs hm =>
    have hkeeps := hm.keeps (m := { m with world := w }) [] hid
      (fun st hst => by cases hst; exact isDrain_storing scan) (by rw [hs]) (by rw [hs]; rfl)
      ⟨hk.deferred, hk.collected⟩
    rw [List.append_nil] at hkeeps
    exact ⟨hkeeps.accounts, fun _ => hkeeps⟩
  | failed t w ha hc =>
    have hfree := (hc.holder (m := { m with world := w }) hown).1
    exact ⟨hc.accounts (m := { m with world := w }) hid ⟨hk.deferred, hk.collected⟩,
      fun h => absurd h hfree.not_isUnderWay⟩

/-- What a cycle or a rebuild keeps when it begins is what drains hold. -/
theorem keeps_begun (hsettled : m.scheduler.IsSettled) (hidle : m.scheduler.isBusy = false)
    (scan : Scan) (w : σ) : (m.begun b scan w).Keeps {p | ∃ i, m.Holds p i} [] where
  deferred := hsettled hidle
  collected p := by
    change p ∈ [] ∨ _ ↔ _
    rw [or_iff_right List.not_mem_nil]
    rfl

/-- The turn in which a cycle or a rebuild begins. -/
theorem Goes.begins {scan : Scan} (hg : Goes b id stage m m') (hs : m.Orderly)
    (hat : m.At id stage) (hb : Begins m.scheduler stage scan) (hidle : m.scheduler.isBusy = false) :
    m'.Accounts {p | ∃ i, m.Holds p i} [] ∧
      (m'.IsUnderWay id → m'.Keeps {p | ∃ i, m.Holds p i} []) := by
  have hn := hs.steady.numbered
  cases hg with
  | rests hr hsch hm =>
    cases hb with
    | cycle hp =>
      cases hr with
      | cycle h => exact absurd (h.resolve_left hp) (by rw [hidle]; decide)
    | rebuild =>
      cases hr with
      | rebuild h => exact absurd h (by rw [hidle]; decide)
  | asks scan' w hb' _ hw hsch hm =>
    have hn' : (m.begun b scan' w).Numbered := hn.congr rfl rfl
    have hkeeps := hm.keeps (m := m.begun b scan' w) []
      (fun p => not_holds hn' hat hb.not_isDrain)
      (fun st hst => by cases hst; exact isDrain_asking scan') (by rw [hsch]; rfl)
      (by rw [hsch]; rfl) (keeps_begun hs.settled hidle scan' w)
    exact ⟨hkeeps.accounts, fun _ => hkeeps⟩
  | asksAndHears scan' w hb' _ hw hg =>
    -- between asking and hearing the machine keeps what it keeps while it waits
    have hn' : (m.begun b scan' w).Numbered := hn.congr rfl rfl
    have hm := Moves.suspend b hn' (hn.at_lt hat) scan'.asking .answer
    have hkeeps := hm.keeps [] (fun p => not_holds hn' hat hb.not_isDrain)
      (fun st hst => by cases hst; exact isDrain_asking scan') rfl rfl
      (keeps_begun hs.settled hidle scan' w)
    obtain ⟨h, hh⟩ := hs.holder
    obtain rfl : h = none := Option.isNone_iff_eq_none.mp (by simpa [hh.busy] using hidle)
    have hholder : Holder _ (some (id, scan'.asking)) :=
      .moves_on (m := m.begun b scan' w) hh.own_of_none hm (isUnderWay_asking scan') rfl
    exact hg.accounts hm.numbered hholder.own_of_some (hm.here rfl) hkeeps
  | hears scan' hg => cases scan' <;> cases hb
  | stored scan' hc => cases scan' <;> cases hb
  | drains hd => cases hb
  | notifies hst hg hgiven => cases hb <;> cases hst

/-- A turn that gives no notices, while a cycle or a rebuild is under way. -/
theorem Goes.accounts {i : TaskId} (hg : Goes b i stage m m') (hs : m.Orderly)
    (hunder : m.IsUnderWay id) (hat : m.At i stage) (hst : isNotifying stage = false)
    (hk : m.Keeps held told) :
    m'.Accounts held told ∧ (m'.IsUnderWay id → m'.Keeps held told) := by
  have hn := hs.steady.numbered
  obtain ⟨st, hh⟩ := hs.holder_of_isUnderWay hunder
  have hbusy : m.scheduler.isBusy = true := hh.busy
  cases hg with
  | rests hr hsch hm =>
    have hkeeps := hm.keeps [] (fun p => not_holds hn hat hr.not_isDrain)
      (fun st hst => by cases hr <;> cases hst <;> rfl) (by rw [hsch]) (by rw [hsch]; rfl) hk
    rw [List.append_nil] at hkeeps
    exact ⟨hkeeps.accounts, fun _ => hkeeps⟩
  | asks scan w hb hidle hw hsch hm => rw [hbusy] at hidle; cases hidle
  | asksAndHears scan w hb hidle hw hg => rw [hbusy] at hidle; cases hidle
  | hears scan hg =>
    obtain rfl := hh.own_of_some i _ hat (isUnderWay_asking scan)
    exact hg.accounts hn hh.own_of_some hat hk
  | stored scan hc =>
    obtain rfl := hh.own_of_some i _ hat (isUnderWay_storing scan)
    have hfree := (hc.holder hh.own_of_some).1
    exact ⟨hc.accounts (fun p => not_holds hn hat (isDrain_storing scan)) hk,
      fun h => absurd h hfree.not_isUnderWay⟩
  | drains hd =>
    have hkeeps : m'.Keeps held told := by
      refine ⟨by rw [hd.memory.1]; exact hk.deferred, fun p => ?_⟩
      rw [hd.collected_iff, ← hk.collected]
      refine or_congr_right ⟨?_, ?_⟩
      · rintro (h | ⟨j, -, h⟩)
        · exact ⟨i, _, _, _, hat, h⟩
        · exact ⟨j, h⟩
      · rintro ⟨j, path', rest', ending', hat', h⟩
        by_cases he : j = i
        · cases hn.stage_unique (he ▸ hat') hat
          exact .inl h
        · exact .inr ⟨j, he, path', rest', ending', hat', h⟩
    exact ⟨hkeeps.accounts, fun _ => hkeeps⟩
  | notifies hst' hg hgiven =>
    rw [hst] at hst'
    cases hst'

theorem Keeps.notifies {i : TaskId} (hk : m.Keeps held told) (hbusy : m.scheduler.isBusy = true)
    (hn : m.Numbered) (hat : m.At i stage) (hst : isNotifying stage = true)
    (hg : Notifies b i given m m') : m'.Keeps held (told ++ given) := by
  have hheard : m'.scheduler.memory =
      { m.scheduler.memory with deferred := deferAll m.scheduler.deferred given } := by
    rw [hg.moves.1, foldl_hear_of_busy (s := m.scheduler.memory) hbusy]
    rfl
  have hnot : ∀ p, ¬m.Holds p i :=
    fun p => not_holds hn hat (by cases stage <;> first | rfl | cases hst)
  have hpending : m'.scheduler.pending = m.scheduler.pending :=
    (congrArg Scheduler.pending hheard :)
  have hdeferred : m'.scheduler.deferred = deferAll m.scheduler.deferred given :=
    (congrArg Scheduler.deferred hheard :)
  cases hg with
  | purge before path todo hidle hgiven hbefore hs hm => rw [hbusy] at hidle; cases hidle
  | finish hgiven hs hm => exact hm.keeps given hnot nofun hpending hdeferred hk

/-- What a turn keeps while a cycle or a rebuild is under way. -/
theorem Keeps.take (hk : m.Keeps held told) (hs : m.Orderly) (hunder : m.IsUnderWay id)
    (turn : Turn) :
    (m.take b turn).Accounts held (told ++ m.tells b turn) ∧
      ((m.take b turn).IsUnderWay id → (m.take b turn).Keeps held (told ++ m.tells b turn)) := by
  have hsteady := hs.steady
  obtain ⟨hnone, htake⟩ | ⟨t, ht, hg⟩ :=
    goes_of_take (b := b) hsteady.numbered hsteady.accepts hsteady.plain turn
  · rw [htake, tells, hnone, List.append_nil]
    exact ⟨hk.accounts, fun _ => hk⟩
  have hat := At.of_task? ht
  rw [tells, ht]
  dsimp only
  by_cases hst : isNotifying t.stage = true
  · obtain ⟨st, hh⟩ := hs.holder_of_isUnderWay hunder
    have hkeeps := hk.notifies hh.busy hsteady.numbered hat hst
      (notifies_of_take (b := b) hsteady ht hst)
    exact ⟨hkeeps.accounts, fun _ => hkeeps⟩
  · rw [Bool.not_eq_true] at hst
    rw [toldFrom_eq_nil hst, List.append_nil]
    exact hg.accounts hs hunder hat hst hk

end Machine

open Machine

namespace Scene

variable {b : Backend σ} {s : Scene σ} {id : TaskId} {held : Set String}
  {told : List (String × Operation)}

/-- What an event keeps while a cycle or a rebuild is under way. -/
theorem accounts_step (hk : s.machine.Keeps held told) (hs : s.machine.Orderly)
    (hunder : s.machine.IsUnderWay id) {e : Event σ} (he : e.isStop = false) :
    (s.step b e).machine.Accounts held (told ++ s.tells b e) ∧
      ((s.step b e).machine.IsUnderWay id →
        (s.step b e).machine.Keeps held (told ++ s.tells b e)) := by
  have hquiet : ∀ {m : Machine σ}, m.scheduler = s.machine.scheduler →
      (∀ i path rest ending, m.At i (.drained path rest ending) ↔
        s.machine.At i (.drained path rest ending)) →
      m.Accounts held (told ++ []) ∧ (m.IsUnderWay id → m.Keeps held (told ++ [])) := by
    intro m hsch hat
    have hkeeps := hk.congr hsch hat
    rw [List.append_nil]
    exact ⟨hkeeps.accounts, fun _ => hkeeps⟩
  have hspawn : ∀ {stage : Stage}, stage.isDrain = false → ∀ i path rest ending,
      (s.machine.spawn stage).At i (.drained path rest ending) ↔
        s.machine.At i (.drained path rest ending) := by
    intro stage hst i path rest ending
    rw [at_spawn]
    refine or_iff_left ?_
    rintro ⟨-, rfl⟩
    cases hst
  cases e with
  | change path =>
    obtain ⟨st, hh⟩ := hs.holder_of_isUnderWay hunder
    have hkeeps := hk.noteChange (b := b) hh.busy path
    exact ⟨hkeeps.accounts, fun _ => hkeeps⟩
  | notices todo => exact hquiet rfl (hspawn rfl)
  | rebuild => exact hquiet rfl (hspawn rfl)
  | idle deadline => exact hquiet rfl (hspawn rfl)
  | start =>
    change (s.machine.start b).Accounts _ _ ∧ _
    rw [step, on, Machine.start, if_pos (hasWorker_of_accepts hs.steady.accepts)]
    exact hquiet rfl fun _ _ _ _ => Iff.rfl
  | stop => cases he
  | turn n =>
    rw [step, tells]
    cases s.machine.turns[n]? with
    | none => exact hquiet rfl fun _ _ _ _ => Iff.rfl
    | some turn =>
      have hs' : (s.machine.without n).Orderly :=
        ⟨steady_without hs.steady n, hs.holder.imp fun _ h => ⟨h.busy, h.holds⟩, hs.settled⟩
      exact Keeps.take (m := s.machine.without n) ⟨hk.deferred, hk.collected⟩ hs' hunder turn
  | pick =>
    rw [step]
    split
    · exact hquiet rfl fun _ _ _ _ => Iff.rfl
    · exact hquiet rfl fun _ _ _ _ => Iff.rfl
  | done =>
    rw [step]
    split
    · exact hquiet rfl fun _ _ _ _ => at_wake
    · exact hquiet rfl fun _ _ _ _ => Iff.rfl
  | timer n =>
    rw [step]
    split
    · exact hquiet rfl fun _ _ _ _ => at_wake
    · exact hquiet rfl fun _ _ _ _ => Iff.rfl
  | answer id =>
    rw [step]
    split
    · exact hquiet rfl fun _ _ _ _ => at_wake
    · exact hquiet rfl fun _ _ _ _ => Iff.rfl
  | clock now => exact hquiet rfl fun _ _ _ _ => Iff.rfl
  | outside f => exact hquiet rfl fun _ _ _ _ => Iff.rfl

/-- What events keep, up to the one with which the cycle or rebuild ends. -/
theorem accounts_run {events : List (Event σ)} (hs : s.machine.Orderly)
    (hstop : ∀ e ∈ events, e.isStop = false)
    (hunder : ∀ k < events.length, (s.run b (events.take k)).machine.IsUnderWay id)
    (ha : s.machine.Accounts held told)
    (hk : s.machine.IsUnderWay id → s.machine.Keeps held told) :
    (s.run b events).machine.Accounts held (told ++ s.told b events) := by
  induction events generalizing s told with
  | nil =>
    rw [Scene.told, List.append_nil]
    exact ha
  | cons e rest ih =>
    rw [List.forall_mem_cons] at hstop
    have hnow : s.machine.IsUnderWay id := hunder 0 (Nat.succ_pos _)
    obtain ⟨ha', hk'⟩ := accounts_step (b := b) (hk hnow) hs hnow hstop.1
    rw [Scene.told, ← List.append_assoc, run_cons]
    exact ih (orderly_step hs hstop.1) hstop.2
      (fun k hlt => hunder (k + 1) (Nat.succ_lt_succ hlt)) ha' hk'

/-- The turn of a task that is about to begin a cycle or a rebuild, while none is under way. -/
theorem begins_step (hs : s.machine.Orderly) {n : Nat} {turn : Turn}
    (hturn : s.machine.turns[n]? = some turn) {stage : Stage} {scan : Scan}
    (hat : s.machine.At turn.task stage) (hb : Begins s.machine.scheduler stage scan)
    (hidle : s.machine.scheduler.isBusy = false) :
    let held := {p | ∃ i, s.machine.Holds p i}
    (s.step b (.turn n)).machine.Accounts held [] ∧
      ((s.step b (.turn n)).machine.IsUnderWay turn.task →
        (s.step b (.turn n)).machine.Keeps held []) := by
  have hs' : (s.machine.without n).Orderly :=
    ⟨steady_without hs.steady n, hs.holder.imp fun _ h => ⟨h.busy, h.holds⟩, hs.settled⟩
  rw [step, hturn]
  obtain ⟨hnone, -⟩ | ⟨t, ht, hg⟩ := goes_of_take (b := b) (m := s.machine.without n)
    hs'.steady.numbered hs'.steady.accepts hs'.steady.plain turn
  · obtain ⟨t, ht, hid, -⟩ := hat
    have hne := List.find?_eq_none.mp hnone t ht
    simp [hid] at hne
  · have hid : t.id = turn.task := by simpa using List.find?_some ht
    have hstage : t.stage = stage := hs'.steady.numbered.stage_unique (hid ▸ At.of_task? ht) hat
    rw [hid, hstage] at hg
    exact hg.begins hs' hat hb hidle

end Scene

/-- In every order of events after the start and before a stop: from the beginning of a full rebuild up
to its end, and be it with a failure, what is remembered as changed are the paths whose last event since
the beginning is a change, and those that drains held at the beginning; and the deletions that are the
last of their paths are deferred, held by a drain or handed to the store.  Paths that were collected at
the beginning are forgotten unless they are among these. -/
theorem accounts_of_rebuild (b : Backend σ) {m : Machine σ} (hm : m.IsFresh)
    {before during : List (Event σ)} (hstop : ∀ e ∈ before ++ during, e.isStop = false) (n : Nat)
    (turn : Turn) :
    let start : Scene σ := { machine := m.start b }
    let s₀ := start.run b before
    let s₁ := s₀.step b (.turn n)
    s₀.machine.turns[n]? = some turn → s₀.machine.At turn.task .rebuild →
    s₀.machine.scheduler.isBusy = false →
    (∀ k < during.length, (s₁.run b (during.take k)).machine.IsUnderWay turn.task) →
    (s₁.run b during).machine.Accounts {p | ∃ i, s₀.machine.Holds p i} (s₁.told b during) := by
  intro start s₀ s₁ hturn hat hidle hunder
  rw [List.forall_mem_append] at hstop
  have hs₀ : s₀.machine.Orderly := Scene.orderly_run hm.orderly_start hstop.1
  have hs₁ : s₁.machine.Orderly := Scene.orderly_step hs₀ rfl
  obtain ⟨ha, hk⟩ := Scene.begins_step (b := b) hs₀ hturn hat .rebuild hidle
  exact Scene.accounts_run hs₁ hstop.2 hunder ha hk

def failingBackend : Backend Unit :=
  { bareBackend with
    answer _ w := (.error (.failure (.extractorFailed ["mix"] "boom" none)), w) }

def collecting : List (Event Unit) :=
  [.change "a.ex", .turn 0, .rebuild]

/-- While the rebuild waits for the extractor, notices come; then the extractor fails. -/
def interrupted : List (Event Unit) :=
  [.notices [.change "b.ex", .delete "c.ex", .change "c.ex", .delete "d.ex"], .turn 0, .answer 1,
    .turn 0]

/-- The scene in which the rebuild is about to begin. -/
def collectingScene : Scene Unit :=
  Scene.run failingBackend { machine := bareMachine.start failingBackend } collecting

theorem accounts_of_interrupted :
    let s := (collectingScene.step failingBackend (.turn 0)).run failingBackend interrupted
    s.machine.scheduler.lastError.isSome = true ∧ ¬s.machine.Remembers "a.ex" ∧
      s.machine.Remembers "b.ex" ∧ s.machine.Remembers "c.ex" ∧ s.machine.Discards "d.ex" := by
  intro s
  have hfresh : bareMachine.IsFresh := ⟨rfl, rfl, rfl, rfl, rfl⟩
  have hstop : ∀ e ∈ collecting ++ interrupted, e.isStop = false := by decide
  have hat : collectingScene.machine.At 1 .rebuild :=
    ⟨{ id := 1, stage := .rebuild, wait := .turn }, .tail _ (.head _), rfl, rfl⟩
  have haccounts : s.machine.Accounts {p | ∃ i, collectingScene.machine.Holds p i}
      ((collectingScene.step failingBackend (.turn 0)).told failingBackend interrupted) :=
    accounts_of_rebuild failingBackend hfresh hstop 0 { task := 1 } rfl hat (by decide +kernel)
      (by decide +kernel)
  have htold : (collectingScene.step failingBackend (.turn 0)).told failingBackend interrupted =
      [("b.ex", .change), ("c.ex", .delete), ("c.ex", .change), ("d.ex", .delete)] := by
    decide +kernel
  rw [htold] at haccounts
  refine ⟨by decide +kernel, fun h => ?_, ?_, ?_, ?_⟩
  · rcases (haccounts.changes "a.ex").mp h with ⟨earlier, later, he, -⟩ | ⟨i, hheld⟩
    · have hmem : ("a.ex", Operation.change) ∈ earlier ++ ("a.ex", .change) :: later := by simp
      rw [← he] at hmem
      revert hmem
      decide
    · obtain ⟨path, rest, ending, ⟨t, ht, -, hst⟩, -⟩ := hheld
      have hdrains : ∀ t ∈ collectingScene.machine.tasks, t.stage.isDrain = false := by
        decide +kernel
      have hdrain := hdrains t ht
      rw [hst] at hdrain
      cases hdrain
  · exact (haccounts.changes "b.ex").mpr (.inl ⟨[], _, rfl, by decide⟩)
  · exact (haccounts.changes "c.ex").mpr
      (.inl ⟨[("b.ex", .change), ("c.ex", .delete)], _, rfl, by decide⟩)
  · exact haccounts.deletions "d.ex"
      ⟨[("b.ex", .change), ("c.ex", .delete), ("c.ex", .change)], [], rfl, by decide⟩

/-- A collected path can be forgotten without ever having been extracted: the extractor never succeeds,
and when the rebuild has failed nothing is left of the path. -/
theorem not_remembers_of_failed :
    let s := collectingScene.run failingBackend [.turn 0, .answer 1, .turn 0]
    "a.ex" ∈ collectingScene.machine.scheduler.pending ∧
      (∀ scan w, (failingBackend.answer scan w).1.isOk = false) ∧
      s.machine.outcomes.map Prod.fst = [1] ∧
      s.machine.scheduler.lastError = some "[3004] EXTRACTION_FAILED: Extractor failed: boom" ∧
      ¬s.machine.Remembers "a.ex" := by
  intro s
  refine ⟨by decide +kernel, fun _ _ => rfl, by decide +kernel, by decide +kernel, fun h => ?_⟩
  have hmemory : s.machine.scheduler.pending = [] ∧ s.machine.scheduler.deferred = [] := by
    decide +kernel
  have hdrains : ∀ t ∈ s.machine.tasks, t.stage.isDrain = false := by decide +kernel
  cases h with
  | pending h =>
    rw [hmemory.1] at h
    cases h
  | deferred h =>
    rw [hmemory.2] at h
    cases h
  | drained i path rest ending hat h =>
    obtain ⟨t, ht, -, hst⟩ := hat
    have hdrain := hdrains t ht
    rw [hst] at hdrain
    cases hdrain

end CodeIndex.Scheduler
