import CodeIndex.Proofs.Scheduler.Hearing

/-!
# What a turn can do

`Goes` lists all that a turn of a task can come to, stage by stage, and `goes_of_take` shows that there is
nothing else.  Cycles and full rebuilds are one thing seen from here: they begin, ask the extractor for a
scan, hand its records to the store, and end with a drain of what was deferred meanwhile.
-/

namespace CodeIndex.Scheduler

namespace Machine

variable {σ : Type} {b : Backend σ} {m m' m'' : Machine σ} {id : TaskId}

def isNotifying : Stage → Bool
  | .notices _ _ => true
  | .purged _ _ _ => true
  | _ => false

/-- The machine when a cycle or a rebuild has begun and the extractor was asked, in a world in which the
beginning is logged. -/
def begun (b : Backend σ) (scan : Scan) (w : σ) (m : Machine σ) : Machine σ :=
  { m with scheduler := m.scheduler.begin, world := b.ask scan w }

/-- The extractor answers: its records are handed to the store, or the cycle or rebuild has failed. -/
inductive Hears (b : Backend σ) (id : TaskId) (scan : Scan) (m m' : Machine σ) : Prop where
  | answered (records : List Record) (w : σ) (ha : b.answer scan m.world = (.ok records, w))
      (hs : m'.scheduler = m.scheduler)
      (h : Moves b id (some scan.storing) (some (scan.work records)) { m with world := w } m')
  | failed (t : Trouble) (w : σ) (ha : b.answer scan m.world = (.error t, w))
      (h : Concludes b id { m with world := w } m')

/-- All that a turn from a stage can come to.  An extractor that answers at once is like one that is
waited for while nothing else happens. -/
inductive Goes (b : Backend σ) (id : TaskId) : Stage → Machine σ → Machine σ → Prop where
  | rests {stage next m m'} (hr : Rests m.scheduler stage next)
      (hs : m'.scheduler = m.scheduler) (h : Moves b id next none m m') : Goes b id stage m m'
  | asks {stage m m'} (scan : Scan) (w : σ)
      (hb : Begins m.scheduler stage scan)
      (hidle : m.scheduler.isBusy = false) (hw : Logged b m.world w)
      (hs : m'.scheduler = m.scheduler.begin)
      (h : Moves b id (some scan.asking) none (m.begun b scan w) m') : Goes b id stage m m'
  | asksAndHears {stage m m'} (scan : Scan) (w : σ)
      (hb : Begins m.scheduler stage scan)
      (hidle : m.scheduler.isBusy = false) (hw : Logged b m.world w)
      (h : Hears b id scan ((m.begun b scan w).suspend id scan.asking .answer) m') :
      Goes b id stage m m'
  | hears (scan : Scan) {m m'} (h : Hears b id scan m m') : Goes b id scan.asking m m'
  | stored (scan : Scan) {m m'} (h : Concludes b id m m') : Goes b id scan.storing m m'
  | drains {path rest ending m m'} (h : Drains b id ending rest m m') :
      Goes b id (.drained path rest ending) m m'
  | notifies {stage given m m'} (hst : isNotifying stage = true) (h : Notifies b id given m m')
      (hgiven : (∀ e p w, b.has p (b.log e w) = b.has p w) → given = m.givenFrom b stage) :
      Goes b id stage m m'

end Machine

/-- The stages of cycles, rebuilds, notices and waits for idleness: all but those of stopping and of the
watcher. -/
def Stage.isPlain : Stage → Bool
  | .stop => false
  | .stopQuiet => false
  | .stopCycle => false
  | .watch => false
  | .unwatch => false
  | .unwatched => false
  | .notices _ .watch => false
  | .purged _ _ .watch => false
  | _ => true

namespace Machine

variable {σ : Type} {b : Backend σ} {m m' m'' : Machine σ} {id : TaskId}

theorem hasWorker_of_accepts {s : Scheduler} (h : s.accepts = true) : s.hasWorker = true := by
  unfold accepts at h
  simp only [Bool.and_eq_true] at h
  exact h.1.1

theorem concludes_cycleFailed (hn : m.Numbered) (hid : id < m.created)
    (hw : m.scheduler.hasWorker = true) (batch : List String) (t : Trouble) :
    Concludes b id m (m.cycleFailed b id batch t) := by
  have hx := Extends.update b (·.note t.toString) m
  have hlog : ∀ level name members, Concludes b id m
      (conclude b id .cycle ((m.update (·.note t.toString)).log b level name members)) :=
    fun level name members =>
      concludes (hx.trans (.log b level name members _)) rfl hn hid hw .cycle
  unfold cycleFailed
  cases t with
  | mishap c => exact hlog ..
  | failure f =>
    dsimp only
    split <;> exact hlog ..

theorem concludes_rebuildStored (hn : m.Numbered) (hid : id < m.created)
    (hw : m.scheduler.hasWorker = true) (result : Option (Except Trouble Nat)) :
    Concludes b id m (m.rebuildStored b id result) := by
  unfold rebuildStored
  split
  · exact concludes (.update b _ m) rfl hn hid hw _
  · exact concludes (.update b _ m) rfl hn hid hw _
  · exact concludes (.refl b m) rfl hn hid hw _

theorem concludes_cycleMerged (hn : m.Numbered) (hid : id < m.created)
    (hw : m.scheduler.hasWorker = true) (batch : List String)
    (result : Option (Except Trouble Nat)) :
    Concludes b id m (m.cycleMerged b id batch result) := by
  unfold cycleMerged
  split
  · exact concludes ((Extends.update b _ m).trans (.log b _ _ _ _)) rfl hn hid hw _
  · exact concludes_cycleFailed hn hid hw batch _
  · exact concludes (.refl b m) rfl hn hid hw _

theorem hears_cycleAnswered (hn : m.Numbered) (hid : id < m.created)
    (hw : m.scheduler.hasWorker = true) (batch : List String) :
    Hears b id (.paths batch) m (m.cycleAnswered b id batch) := by
  unfold cycleAnswered
  rcases hans : b.answer (.paths batch) m.world with ⟨answer, w⟩
  have hn' : ({ m with world := w } : Machine σ).Numbered := hn.congr rfl rfl
  cases answer with
  | ok records => exact .answered records w hans rfl (.submit b hn' hid _ _)
  | error t => exact .failed t w hans (concludes_cycleFailed hn' hid hw batch t)

theorem hears_rebuildAnswered (hn : m.Numbered) (hid : id < m.created)
    (hw : m.scheduler.hasWorker = true) :
    Hears b id .all m (m.rebuildAnswered b id) := by
  unfold rebuildAnswered
  rcases hans : b.answer .all m.world with ⟨answer, w⟩
  have hn' : ({ m with world := w } : Machine σ).Numbered := hn.congr rfl rfl
  cases answer with
  | ok records => exact .answered records w hans rfl (.submit b hn' hid _ _)
  | error t => exact .failed t w hans (concludes_rebuildStored hn' hid hw _)

theorem Hears.of_suspend {scan : Scan} {stage : Stage} {wait : Wait} (h : Hears b id scan m m') :
    Hears b id scan (m.suspend id stage wait) m' := by
  cases h with
  | answered records w ha hs h => exact .answered records w ha hs h.of_suspend
  | failed t w ha h =>
    obtain ⟨ending, h⟩ := h
    exact .failed t w ha ⟨ending, h.of_suspend⟩

theorem goes_beginCycle (hn : m.Numbered) (hid : id < m.created)
    (ha : m.scheduler.accepts = true) : Goes b id .cycle m (m.beginCycle b id) := by
  have hw := hasWorker_of_accepts ha
  unfold beginCycle
  dsimp only
  by_cases hskip : m.scheduler.pending.isEmpty = true ∨ m.scheduler.isBusy = true
  · have hcond : (!m.scheduler.accepts || m.scheduler.pending.isEmpty || m.scheduler.isBusy) = true := by
      simpa [ha] using hskip
    rw [if_pos hcond]
    refine .rests (.cycle (hskip.imp_left List.isEmpty_iff.mp)) scheduler_finish (.finish b hn id _)
  · have hcond : (!m.scheduler.accepts || m.scheduler.pending.isEmpty || m.scheduler.isBusy) = false := by
      simpa [ha] using hskip
    rw [if_neg (by rw [hcond]; decide)]
    rw [not_or, Bool.not_eq_true, Bool.not_eq_true] at hskip
    have hb : Begins m.scheduler .cycle (.paths (batchOf m.scheduler.pending)) :=
      .cycle fun h => by rw [h] at hskip; cases hskip.1
    have hlogged : Logged b m.world ((m.update Scheduler.begin).log b .info "merge_cycle_started"
        [("paths", .nat (batchOf m.scheduler.pending).length)]).world := .log b _ _
    have hn' : ∀ w, (m.begun b (.paths (batchOf m.scheduler.pending)) w).Numbered :=
      fun w => hn.congr rfl rfl
    split
    · exact .asksAndHears _ _ hb hskip.2 hlogged (hears_cycleAnswered (hn' _) hid hw _).of_suspend
    · exact .asks _ _ hb hskip.2 hlogged rfl (.suspend b (hn' _) hid _ _)

theorem goes_beginRebuild (hn : m.Numbered) (hid : id < m.created)
    (hw : m.scheduler.hasWorker = true) : Goes b id .rebuild m (m.beginRebuild b id) := by
  unfold beginRebuild
  split
  · rename_i hbusy
    split
    · exact .rests (.rebuild hbusy) rfl (.suspend b hn hid _ _)
    · exact .rests (.rebuild hbusy) rfl (.sleep b hn hid _ _)
  · rename_i hidle
    have hidle : m.scheduler.isBusy = false := Bool.eq_false_iff.mpr hidle
    have hlogged : Logged b m.world
        ((m.update Scheduler.begin).log b .info "full_rebuild_started" []).world := .log b _ _
    have hn' : ∀ w, (m.begun b .all w).Numbered := fun w => hn.congr rfl rfl
    dsimp only
    split
    · exact .asksAndHears _ _ .rebuild hidle hlogged (hears_rebuildAnswered (hn' _) hid hw).of_suspend
    · exact .asks _ _ .rebuild hidle hlogged rfl (.suspend b (hn' _) hid _ _)

theorem goes_awaitIdle (hn : m.Numbered) (hid : id < m.created) (deadline : Nat) :
    Goes b id (.idle deadline) m (m.awaitIdle id deadline) := by
  unfold awaitIdle
  split
  · exact .rests .idleOver scheduler_finish (.finish b hn id _)
  · split
    · exact .rests .idleOver scheduler_finish (.finish b hn id _)
    · split
      · exact .rests .idle rfl (.sleep b hn hid _ _)
      · exact .rests .idle rfl
          { Moves.suspend b hn hid (.idle deadline) _ with
            numbered := (hn.suspend hid).congr rfl rfl }

theorem goes_beginQuiet (hn : m.Numbered) (hid : id < m.created) :
    Goes b id .quiet m (m.beginQuiet id) := by
  unfold beginQuiet
  split
  · exact .rests .quiet rfl (.yield b hn hid _)
  · exact .rests .quiet rfl (.sleep b hn hid _ _)

theorem goes_endQuiet (hn : m.Numbered) : Goes b id .quietOver m (m.endQuiet id) := by
  have hx : Extends b m { (m.spawn .cycle) with cycle := some m.created } :=
    { Extends.spawn b (.inr rfl) m with numbered := fun h => h.spawn.congr rfl rfl }
  exact .rests .quietOver scheduler_finish (hx.moves (.finish b (hx.numbered hn) id _))

/-- What a task does from a stage is among what is listed. -/
theorem goes_of_continueFrom (hn : m.Numbered) (hid : id < m.created)
    (ha : m.scheduler.accepts = true) {stage : Stage} (hplain : stage.isPlain = true)
    (result : Option (Except Trouble Nat)) :
    Goes b id stage m (continueFrom b id result m stage) := by
  have hw := hasWorker_of_accepts ha
  cases stage with
  | quiet => exact goes_beginQuiet hn hid
  | quietOver => exact goes_endQuiet hn
  | cycle => exact goes_beginCycle hn hid ha
  | cycleAnswered batch => exact .hears (.paths batch) (hears_cycleAnswered hn hid hw batch)
  | cycleMerged batch => exact .stored (.paths batch) (concludes_cycleMerged hn hid hw _ _)
  | rebuild => exact goes_beginRebuild hn hid hw
  | rebuildAnswered => exact .hears .all (hears_rebuildAnswered hn hid hw)
  | rebuildStored => exact .stored .all (concludes_rebuildStored hn hid hw _)
  | drained path rest ending =>
    -- the result of the purge is logged first
    have hx := Extends.notePurge b path result m
    have hs := memory_notePurge (b := b) (m := m) path result
    have hw' : (m.notePurge b path result).scheduler.memory.hasWorker = true := by rw [hs]; exact hw
    exact .drains (.extend hx hs (drains (hx.numbered hn) (Nat.lt_of_lt_of_le hid hx.created) hw'
      ending rest))
  | notices todo follow =>
    cases follow with
    | watch => cases hplain
    | finish =>
      exact .notifies rfl (notifies hn hid hw todo) fun hhas => told_eq_passed hhas hw todo
  | purged path todo follow =>
    cases follow with
    | watch => cases hplain
    | finish =>
      have hx := Extends.notePurge b path result m
      have hs := memory_notePurge (b := b) (m := m) path result
      have hw' : (m.notePurge b path result).scheduler.memory.hasWorker = true := by
        rw [hs]; exact hw
      have hbusy : (m.notePurge b path result).scheduler.memory.isBusy = m.scheduler.isBusy := by
        rw [hs]; rfl
      have h := notifies (b := b) (hx.numbered hn) (Nat.lt_of_lt_of_le hid hx.created) hw' todo
      refine .notifies rfl (h.extend hx hs) fun hhas => ?_
      rw [told_eq_passed hhas hw', List.map_congr_left fun n _ => eventOf_extends hhas hx n]
      exact congrArg (passed · _) hbusy
  | idle deadline => exact goes_awaitIdle hn hid deadline
  | stop => cases hplain
  | stopQuiet => cases hplain
  | stopCycle => cases hplain
  | watch => cases hplain
  | unwatch => cases hplain
  | unwatched => cases hplain

/-- A turn is that of a task that is gone, and then nothing happens, or it is among what is listed. -/
theorem goes_of_take (hn : m.Numbered) (ha : m.scheduler.accepts = true)
    (hplain : ∀ i st, m.At i st → st.isPlain = true) (turn : Turn) :
    (m.task? turn.task = none ∧ m.take b turn = m) ∨
      ∃ t, m.task? turn.task = some t ∧ Goes b t.id t.stage m (m.take b turn) := by
  unfold take
  cases ht : m.task? turn.task with
  | none => exact .inl ⟨rfl, rfl⟩
  | some t =>
    have hat := At.of_task? ht
    refine .inr ⟨t, rfl, ?_⟩
    dsimp only
    split
    · -- of the tasks that may be here, only the quiet time ends early
      rename_i hearly
      have hstage : t.stage = .quiet ∨ t.stage = .quietOver := by
        have hp := hplain _ _ hat
        rw [Bool.and_eq_true] at hearly
        cases hst : t.stage with
        | quiet => exact .inl rfl
        | quietOver => exact .inr rfl
        | purged path todo follow =>
          rw [hst] at hp hearly
          cases follow with
          | finish => cases hearly.2
          | watch => cases hp
        | watch => rw [hst] at hp; cases hp
        | _ => rw [hst] at hearly; cases hearly.2
      rcases hstage with hst | hst
      · rw [hst]
        exact .rests .quietCancelled scheduler_finish (.finish b hn _ _)
      · rw [hst]
        exact .rests .quietOver scheduler_finish (.finish b hn _ _)
    · exact goes_of_continueFrom hn (hn.at_lt hat) ha (hplain _ _ hat) turn.result

end Machine

end CodeIndex.Scheduler
