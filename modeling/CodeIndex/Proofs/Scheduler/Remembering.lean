import CodeIndex.Proofs.Scheduler.Due
import CodeIndex.Proofs.Scheduler.Exclusion
import CodeIndex.Proofs.Scheduler.Telling
import CodeIndex.Proofs.Scheduler.Waking

/-!
# No change is lost

A path that the scheduler is told has changed is remembered: it is collected for the next cycle, deferred,
or held by a drain.  It is forgotten only when a cycle or a rebuild asks the extractor for it, or when the
scheduler is told that it is gone.
-/

namespace CodeIndex.Scheduler

variable {σ : Type}

/-! ## Events that are heard -/

theorem mem_deferIn_self (deferred : List (String × Operation)) (path : String) (op : Operation) :
    (path, op) ∈ deferIn deferred path op := by
  induction deferred with
  | nil => exact List.mem_cons_self
  | cons e rest ih =>
    rw [deferIn]
    split
    · exact List.mem_cons_self
    · exact List.mem_cons_of_mem _ ih

theorem mem_deferIn_of_ne {deferred : List (String × Operation)} {path p : String} {op o : Operation}
    (hne : p ≠ path) (h : (p, o) ∈ deferred) : (p, o) ∈ deferIn deferred path op := by
  induction deferred with
  | nil => cases h
  | cons e rest ih =>
    obtain ⟨q, oq⟩ := e
    rw [deferIn]
    rcases List.mem_cons.mp h with he | h
    · obtain ⟨rfl, rfl⟩ := Prod.mk.inj he
      rw [if_neg (by simpa using hne)]
      exact List.mem_cons_self
    · split
      · exact List.mem_cons_of_mem _ h
      · exact List.mem_cons_of_mem _ (ih h)

/-- A change of a path is noted: it is collected or deferred. -/
def Notes (s : Scheduler) (p : String) : Prop :=
  p ∈ s.pending ∨ (p, .change) ∈ s.deferred

theorem notes_memory {s : Scheduler} {p : String} : s.memory.Notes p ↔ s.Notes p := Iff.rfl

theorem notes_hear_change (s : Scheduler) (p : String) : (s.hear (p, .change)).Notes p := by
  unfold hear
  split
  · exact .inr (mem_deferIn_self _ _ _)
  · exact .inl (mem_collect.mpr (.inl rfl))

/-- Only the deletion of a path makes that its change is not noted any more. -/
theorem Notes.hear {s : Scheduler} {p : String} (h : s.Notes p) {e : String × Operation}
    (he : e ≠ (p, .delete)) : (s.hear e).Notes p := by
  obtain ⟨path, op⟩ := e
  unfold Scheduler.hear
  split
  · refine h.imp_right fun h => ?_
    by_cases hp : p = path
    · subst hp
      cases op with
      | change => exact mem_deferIn_self _ _ _
      | delete => exact absurd rfl he
    · exact mem_deferIn_of_ne hp h
  · cases op with
    | change => exact h.imp_left fun h => mem_collect.mpr (.inr h)
    | delete => exact h

theorem Notes.foldl_hear {s : Scheduler} {p : String} (h : s.Notes p)
    {given : List (String × Operation)} (hnot : (p, .delete) ∉ given) :
    (given.foldl Scheduler.hear s).Notes p := by
  induction given generalizing s with
  | nil => exact h
  | cons e rest ih =>
    rw [List.mem_cons, not_or] at hnot
    exact ih (h.hear (Ne.symm hnot.1)) hnot.2

theorem notes_foldl_hear (s : Scheduler) {p : String} {later : List (String × Operation)}
    (earlier : List (String × Operation)) (hnot : (p, .delete) ∉ later) :
    ((earlier ++ (p, .change) :: later).foldl hear s).Notes p := by
  rw [List.foldl_append, List.foldl_cons]
  exact (notes_hear_change _ p).foldl_hear hnot

theorem notes_foldl_collect {s : Scheduler} {p : String} {changed : List String}
    (h : p ∈ changed ∨ s.Notes p) : (changed.foldl collect s).Notes p := by
  unfold Notes at h ⊢
  rw [mem_foldl_collect, deferred_foldl_collect]
  exact (or_assoc.mpr h)

/-! ## What a turn remembers -/

def Stage.isDrain : Stage → Bool
  | .drained _ _ _ => true
  | _ => false

theorem isDrain_asking (scan : Scan) : scan.asking.isDrain = false := by cases scan <;> rfl

theorem isDrain_storing (scan : Scan) : scan.storing.isDrain = false := by cases scan <;> rfl

theorem Begins.not_isDrain {s : Scheduler} {stage : Stage} {scan : Scan} (h : Begins s stage scan) :
    stage.isDrain = false := by
  cases h <;> rfl

theorem Rests.not_isDrain {s : Scheduler} {stage : Stage} {next : Option Stage}
    (h : Rests s stage next) : stage.isDrain = false := by
  cases h <;> rfl

theorem Begins.mem_scope {s : Scheduler} {stage : Stage} {scan : Scan} (hb : Begins s stage scan)
    {p : String} (h : p ∈ s.pending) : p ∈ scan.scope := by
  cases hb with
  | cycle => exact List.mem_mergeSort.mpr h
  | rebuild => trivial

namespace Machine

variable {b : Backend σ} {m m' : Machine σ} {id : TaskId} {stage : Stage} {next : Option Stage}
  {work : Option Work} {p : String}

/-- A change of a path is not forgotten. -/
inductive Remembers (m : Machine σ) (p : String) : Prop where
  | pending (h : p ∈ m.scheduler.pending)
  | deferred (h : (p, .change) ∈ m.scheduler.deferred)
  | drained (i : TaskId) (path : String) (rest : List (String × Operation)) (ending : Ending)
      (hat : m.At i (.drained path rest ending)) (h : (p, .change) ∈ rest)

theorem Remembers.of_notes (h : m.scheduler.Notes p) : m.Remembers p :=
  h.elim .pending .deferred

/-- A drain of a task holds a change of a path. -/
def Holds (m : Machine σ) (p : String) (i : TaskId) : Prop :=
  ∃ path rest ending, m.At i (.drained path rest ending) ∧ (p, .change) ∈ rest

theorem Remembers.cases (h : m.Remembers p) : m.scheduler.Notes p ∨ ∃ i, m.Holds p i := by
  cases h with
  | pending h => exact .inl (.inl h)
  | deferred h => exact .inl (.inr h)
  | drained i path rest ending hat h => exact .inr ⟨i, path, rest, ending, hat, h⟩

theorem Remembers.of_holds {i : TaskId} (h : m.Holds p i) : m.Remembers p := by
  obtain ⟨path, rest, ending, hat, h⟩ := h
  exact .drained i path rest ending hat h

theorem Remembers.imp (h : m.Remembers p) (hs : m.scheduler.Notes p → m'.scheduler.Notes p)
    (hat : ∀ i, m.Holds p i → m'.Holds p i) : m'.Remembers p := by
  rcases h.cases with h | ⟨i, h⟩
  · exact .of_notes (hs h)
  · exact .of_holds (hat i h)

theorem Moves.holds (hm : Moves b id next work m m') {i : TaskId} (hne : i ≠ id)
    (h : m.Holds p i) : m'.Holds p i := by
  obtain ⟨path, rest, ending, hat, h⟩ := h
  exact ⟨path, rest, ending, hm.kept hne hat, h⟩

theorem Moves.remembers (hm : Moves b id next work m m') (hid : ¬m.Holds p id)
    (hs : m.scheduler.Notes p → m'.scheduler.Notes p) (h : m.Remembers p) : m'.Remembers p :=
  h.imp hs fun _ hi => hm.holds (fun he => hid (he ▸ hi)) hi

/-- A task that is not a drain holds nothing. -/
theorem not_holds (hn : m.Numbered) (hat : m.At id stage)
    (hst : stage.isDrain = false) : ¬m.Holds p id := by
  rintro ⟨path, rest, ending, hdrained, -⟩
  rw [hn.stage_unique hat hdrained] at hst
  cases hst

/-- What a drain comes to is collected, and what it does not come to it holds on to. -/
theorem Drains.remembers {ending : Ending} {rest : List (String × Operation)}
    (hd : Drains b id ending rest m m')
    (h : m.scheduler.Notes p ∨ (p, .change) ∈ rest ∨ ∃ i, i ≠ id ∧ m.Holds p i) :
    m'.Remembers p := by
  have hcollect : ∀ changed : List String,
      m'.scheduler.memory = changed.foldl collect m.scheduler.memory →
        p ∈ changed ∨ m.scheduler.Notes p → m'.Remembers p := by
    intro changed hs hp
    refine .of_notes (notes_memory.mp ?_)
    rw [hs]
    exact notes_foldl_collect hp
  cases hd with
  | purge changed path rest' hrest hs hm =>
    rcases h with h | h | ⟨i, hne, h⟩
    · exact hcollect changed hs (.inr h)
    · rw [hrest, List.mem_append, List.mem_cons] at h
      rcases h with h | h | h
      · exact hcollect changed hs (.inl (by simpa using h))
      · cases (Prod.mk.inj h).2
      · exact .drained id path rest' ending (hm.here rfl) h
    · exact .of_holds (hm.holds hne h)
  | finish changed hrest hs hm =>
    rcases h with h | h | ⟨i, hne, h⟩
    · exact hcollect changed hs (.inr h)
    · rw [hrest] at h
      exact hcollect changed hs (.inl (by simpa using h))
    · exact .of_holds (hm.holds hne h)

theorem Concludes.remembers (hc : Concludes b id m m') (hid : ¬m.Holds p id) (h : m.Remembers p) :
    m'.Remembers p := by
  obtain ⟨ending, hd⟩ := hc
  refine hd.remembers ?_
  cases h with
  | pending h => exact .inl (.inl h)
  | deferred h => exact .inr (.inl h)
  | drained i path rest ending hat h =>
    have hi : m.Holds p i := ⟨path, rest, ending, hat, h⟩
    exact .inr (.inr ⟨i, fun he => hid (he ▸ hi), hi⟩)

theorem Hears.remembers {scan : Scan} (hh : Hears b id scan m m') (hid : ¬m.Holds p id)
    (h : m.Remembers p) : m'.Remembers p := by
  cases hh with
  | answered records w ha hs hm =>
    refine hm.remembers (m := { m with world := w }) hid (fun h => ?_) (h.imp (fun h => h) fun _ h => h)
    rw [hs]
    exact h
  | failed t w ha hc =>
    exact hc.remembers (m := { m with world := w }) hid (h.imp (fun h => h) fun _ h => h)

/-- A cycle or a rebuild that begins takes the collected paths, and no other change is forgotten. -/
theorem remembers_begun {scan : Scan} (hb : Begins m.scheduler stage scan) (w : σ)
    (h : m.Remembers p) : (m.begun b scan w).Remembers p ∨ p ∈ scan.scope := by
  cases h with
  | pending h => exact .inr (hb.mem_scope h)
  | deferred h => exact .inl (.deferred h)
  | drained i path rest ending hat h => exact .inl (.drained i path rest ending hat h)

/-- A turn in which no notices are given forgets a change only when the extractor is asked for it. -/
theorem Goes.remembers (hg : Goes b id stage m m') (hn : m.Numbered) (hat : m.At id stage)
    (hst : isNotifying stage = false) (h : m.Remembers p) :
    m'.Remembers p ∨ ∃ scan, Begins m.scheduler stage scan ∧ m.scheduler.isBusy = false ∧
      p ∈ scan.scope := by
  cases hg with
  | rests hr hs hm =>
    refine .inl (hm.remembers (not_holds hn hat hr.not_isDrain) (fun h => ?_) h)
    rw [hs]
    exact h
  | asks scan w hb hidle hw hs hm =>
    rcases remembers_begun (b := b) hb w h with h | h
    · refine .inl (hm.remembers (not_holds (m := m.begun b scan w) (hn.congr rfl rfl) hat
        hb.not_isDrain) (fun h => ?_) h)
      rw [hs]
      exact h
    · exact .inr ⟨scan, hb, hidle, h⟩
  | asksAndHears scan w hb hidle hw hg =>
    rcases remembers_begun (b := b) hb w h with h | h
    · -- the task that asks and hears is not a drain in between either
      have hn' : (m.begun b scan w).Numbered := hn.congr rfl rfl
      have hm := Moves.suspend b hn' (hn.at_lt hat) scan.asking .answer
      have h := hm.remembers (not_holds hn' hat hb.not_isDrain) (fun h => h) h
      exact .inl (hg.remembers (not_holds hm.numbered (hm.here rfl) (isDrain_asking scan)) h)
    · exact .inr ⟨scan, hb, hidle, h⟩
  | hears scan hg => exact .inl (hg.remembers (not_holds hn hat (isDrain_asking scan)) h)
  | stored scan hc => exact .inl (hc.remembers (not_holds hn hat (isDrain_storing scan)) h)
  | drains hd =>
    refine .inl (hd.remembers ?_)
    rcases h.cases with h | ⟨i, hi⟩
    · exact .inl h
    · by_cases he : i = id
      · obtain ⟨path, rest, ending, hat', h⟩ := hi
        cases hn.stage_unique (he ▸ hat') hat
        exact .inr (.inl h)
      · exact .inr (.inr ⟨i, he, hi⟩)
  | notifies hst' hg hgiven =>
    rw [hst] at hst'
    cases hst'

theorem Notifies.notes {given : List (String × Operation)} (h : Notifies b id given m m')
    (hs : (given.foldl hear m.scheduler.memory).Notes p) : m'.scheduler.Notes p := by
  rw [← notes_memory, h.moves.1]
  exact hs

/-! ## Turns -/

/-- A turn forgets a change only if the extractor is asked for it, or the scheduler is told that the path
is gone. -/
theorem Remembers.take (hs : m.Steady) (turn : Turn) (h : m.Remembers p) :
    (m.take b turn).Remembers p ∨ (∃ scan ∈ m.asks b turn, p ∈ scan.scope) ∨
      (p, .delete) ∈ m.tells b turn := by
  obtain ⟨-, htake⟩ | ⟨t, ht, hg⟩ := goes_of_take (b := b) hs.numbered hs.accepts hs.plain turn
  · rw [htake]
    exact .inl h
  have hat := At.of_task? ht
  by_cases hst : isNotifying t.stage = true
  · have hnotifies := notifies_of_take (b := b) hs ht hst
    by_cases hdelete : (p, .delete) ∈ m.toldFrom b turn.result t.stage
    · refine .inr (.inr ?_)
      rw [tells, ht]
      exact hdelete
    · obtain ⟨-, next, work, hm⟩ := hnotifies.moves
      have hnot : ¬m.Holds p t.id :=
        not_holds hs.numbered hat (by cases hc : t.stage <;> first | rfl | rw [hc] at hst; cases hst)
      exact .inl (hm.remembers hnot
        (fun h => hnotifies.notes (Notes.foldl_hear (notes_memory.mpr h) hdelete)) h)
  · rcases hg.remembers hs.numbered hat (Bool.eq_false_iff.mpr hst) h with h | ⟨scan, hb, hidle, h⟩
    · exact .inl h
    · exact .inr (.inl ⟨scan, mem_asks hs ht hb hidle, h⟩)

/-- A change that is told in a turn is remembered, unless a deletion is told afterwards. -/
theorem remembers_of_tells (hs : m.Steady) {turn : Turn} {earlier later : List (String × Operation)}
    (h : m.tells b turn = earlier ++ (p, .change) :: later) :
    (m.take b turn).Remembers p ∨ (p, .delete) ∈ later := by
  by_cases hdelete : (p, .delete) ∈ later
  · exact .inr hdelete
  refine .inl ?_
  cases ht : m.task? turn.task with
  | none =>
    rw [tells, ht] at h
    simp at h
  | some t =>
    rw [tells, ht] at h
    dsimp only at h
    have hst : isNotifying t.stage = true := by
      rw [← Bool.not_eq_false]
      intro hst
      rw [toldFrom_eq_nil hst] at h
      simp at h
    have hnotifies := notifies_of_take (b := b) hs ht hst
    refine .of_notes (hnotifies.notes ?_)
    rw [h]
    exact notes_foldl_hear _ earlier hdelete

end Machine

open Machine

/-! ## Runs -/

namespace Scene

variable {b : Backend σ} {s : Scene σ} {p : String}

theorem steady_without (hs : s.machine.Steady) (n : Nat) : (s.machine.without n).Steady :=
  ⟨hs.numbered.congr rfl rfl, hs.accepts, hs.plain⟩

theorem Remembers.of_at {m m' : Machine σ} (h : m.Remembers p)
    (hs : m.scheduler.Notes p → m'.scheduler.Notes p) (hat : ∀ i st, m.At i st → m'.At i st) :
    m'.Remembers p :=
  h.imp hs fun _ ⟨path, rest, ending, hi, hp⟩ => ⟨path, rest, ending, hat _ _ hi, hp⟩

/-- An event makes the scheduler forget a change only if the extractor is asked for it, or if the
scheduler is told that the path is gone. -/
theorem remembers_step (hs : s.machine.Steady) {e : Event σ} (he : e.isStop = false)
    (h : s.machine.Remembers p) :
    (s.step b e).machine.Remembers p ∨ (∃ scan ∈ s.asks b e, p ∈ scan.scope) ∨
      (p, .delete) ∈ s.tells b e := by
  cases e with
  | change path =>
    have hx := Extends.noteChange b path s.machine
    have hnotes : s.machine.scheduler.Notes p → (s.machine.noteChange b path).scheduler.Notes p := by
      intro h
      rw [← notes_memory, memory_noteChange]
      exact (notes_memory.mpr h).hear (by simp)
    exact .inl (Remembers.of_at h hnotes fun i st => hx.kept)
  | notices todo => exact .inl (Remembers.of_at h (fun h => h) fun i st h => at_spawn.mpr (.inl h))
  | rebuild => exact .inl (Remembers.of_at h (fun h => h) fun i st h => at_spawn.mpr (.inl h))
  | idle deadline => exact .inl (Remembers.of_at h (fun h => h) fun i st h => at_spawn.mpr (.inl h))
  | start =>
    refine .inl ?_
    change (s.machine.start b).Remembers p
    rw [Machine.start, if_pos (hasWorker_of_accepts hs.accepts)]
    exact h
  | stop => cases he
  | turn n =>
    rw [step, asks, tells]
    cases s.machine.turns[n]? with
    | none => exact .inl h
    | some turn =>
      exact Remembers.take (m := s.machine.without n) (steady_without hs n) turn
        (Remembers.of_at h (fun h => h) fun _ _ h => h)
  | pick =>
    rw [step]
    split
    · exact .inl (Remembers.of_at h (fun h => h) fun _ _ h => h)
    · exact .inl h
  | done =>
    rw [step]
    split
    · exact .inl (Remembers.of_at h (fun h => h) fun _ _ h => at_wake.mpr h)
    · exact .inl h
  | timer n =>
    rw [step]
    split
    · exact .inl (Remembers.of_at h (fun h => h) fun _ _ h => at_wake.mpr h)
    · exact .inl h
  | answer id =>
    rw [step]
    split
    · exact .inl (Remembers.of_at h (fun h => h) fun _ _ h => at_wake.mpr h)
    · exact .inl h
  | clock now => exact .inl (Remembers.of_at h (fun h => h) fun _ _ h => h)
  | outside f => exact .inl (Remembers.of_at h (fun h => h) fun _ _ h => h)

theorem remembers_run (hs : s.machine.Steady) {events : List (Event σ)}
    (hstop : ∀ e ∈ events, e.isStop = false) (h : s.machine.Remembers p) :
    (s.run b events).machine.Remembers p ∨ (∃ scan ∈ s.asked b events, p ∈ scan.scope) ∨
      (p, .delete) ∈ s.told b events := by
  induction events generalizing s with
  | nil => exact .inl h
  | cons e rest ih =>
    rw [List.forall_mem_cons] at hstop
    rw [asked, told]
    have hsteady := (steps_step (b := b) hs e).steady hs hstop.1
    rcases remembers_step (b := b) hs hstop.1 h with h | ⟨scan, hscan, h⟩ | h
    · rcases ih hsteady hstop.2 h with h | ⟨scan, hscan, h⟩ | h
      · exact .inl h
      · exact .inr (.inl ⟨scan, List.mem_append_right _ hscan, h⟩)
      · exact .inr (.inr (List.mem_append_right _ h))
    · exact .inr (.inl ⟨scan, List.mem_append_left _ hscan, h⟩)
    · exact .inr (.inr (List.mem_append_left _ h))

/-- A change that is told with an event is remembered, unless a deletion is told afterwards. -/
theorem remembers_of_tells (hs : s.machine.Steady) {e : Event σ}
    {earlier later : List (String × Operation)}
    (h : s.tells b e = earlier ++ (p, .change) :: later) :
    (s.step b e).machine.Remembers p ∨ (p, .delete) ∈ later := by
  cases e with
  | change path =>
    -- the only event that is told is the change of the path
    obtain ⟨-, he⟩ | ⟨-, he⟩ := List.append_eq_singleton_iff.mp h.symm
    · obtain ⟨hp, -⟩ := List.cons.inj he
      refine .inl (.of_notes (notes_memory.mp ?_))
      change (s.machine.noteChange b path).scheduler.memory.Notes p
      rw [memory_noteChange, ← hp]
      exact notes_hear_change _ p
    · cases he
  | turn n =>
    rw [tells] at h
    rw [step]
    cases hturn : s.machine.turns[n]? with
    | none =>
      rw [hturn] at h
      simp at h
    | some turn =>
      rw [hturn] at h
      exact Machine.remembers_of_tells (steady_without hs n) h
  | _ => simp [tells] at h

end Scene

/-- In every order of events after the start and before a stop: a change that the scheduler was told is
remembered, unless the extractor was asked for the path since, or the scheduler was told since that the
path is gone; and as long as paths are collected, there is a task that sees to them, and what it waits for
is there. -/
theorem no_change_lost (b : Backend σ) {m : Machine σ} (hm : m.IsFresh) {events : List (Event σ)}
    (hstop : ∀ e ∈ events, e.isStop = false) :
    let start : Scene σ := { machine := m.start b }
    let s := start.run b events
    (∀ before e after, events = before ++ e :: after →
      ∀ path earlier later, (start.run b before).tells b e = earlier ++ (path, .change) :: later →
        let told := (start.run b before).step b e
        s.machine.Remembers path ∨ (∃ scan ∈ told.asked b after, path ∈ scan.scope) ∨
          (path, .delete) ∈ later ++ told.told b after) ∧
    (s.machine.scheduler.pending ≠ [] →
      ∃ t ∈ s.machine.tasks, t.rouses = true ∧ s.machine.Tends s.running t) := by
  intro start s
  have hstart : start.IsAwake := Scene.isAwake_start hm
  refine ⟨?_, (hstart.run hstop).exists_rouses⟩
  rintro before e after rfl path earlier later htold told
  rw [List.forall_mem_append, List.forall_mem_cons] at hstop
  have hbefore := hstart.run (b := b) hstop.1
  rcases Scene.remembers_of_tells hbefore.steady htold with h | h
  · have hrun := Scene.remembers_run (b := b) (hbefore.step hstop.2.1).steady hstop.2.2 h
    rw [← Scene.run_cons, ← Scene.run_append] at hrun
    exact hrun.imp_right (Or.imp_right (List.mem_append_right _))
  · exact .inr (.inr (List.mem_append_left _ h))

/-- Notices that come during a cycle are deferred; its drain has collected two changed paths and waits for
the purge of a third path. -/
def deferring : List (Event Unit) :=
  [.change "a.ex", .turn 0, .timer 0, .turn 0, .turn 0,
    .notices [.change "b.ex", .delete "c.ex", .change "c.ex", .delete "d.ex"], .turn 0, .answer 1,
    .turn 0, .pick, .done, .turn 0]

theorem no_change_lost_deferring :
    let s := Scene.run bareBackend { machine := bareMachine.start bareBackend } deferring
    s.machine.scheduler.isBusy = false ∧ s.machine.Remembers "c.ex" ∧
      ∃ t ∈ s.machine.tasks, t.rouses = true ∧ s.machine.Tends s.running t := by
  have hfresh : bareMachine.IsFresh := ⟨rfl, rfl, rfl, rfl, rfl⟩
  have hstop : ∀ e ∈ deferring, e.isStop = false := by decide
  obtain ⟨hchanges, hwakes⟩ := no_change_lost bareBackend hfresh hstop
  refine ⟨by decide +kernel, ?_, hwakes (by decide +kernel)⟩
  have htold := hchanges (deferring.take 6) (.turn 0) (deferring.drop 7) rfl "c.ex"
    [("b.ex", .change), ("c.ex", .delete)] [("d.ex", .delete)] (by decide +kernel)
  -- nothing is asked and nothing is told any more
  refine htold.resolve_right ?_
  rintro (⟨scan, hscan, -⟩ | hdelete)
  · revert scan
    decide +kernel
  · revert hdelete
    decide +kernel

end CodeIndex.Scheduler
