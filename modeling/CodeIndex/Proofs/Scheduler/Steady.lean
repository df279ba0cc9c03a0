import CodeIndex.Proofs.Scheduler.Interleaving

/-!
# A scheduler that runs goes on running

A machine that was started is steady, and no event but a stop changes that.
-/

namespace CodeIndex.Scheduler

open Machine

theorem isPlain_asking (scan : Scan) : scan.asking.isPlain = true := by
  cases scan <;> rfl

theorem isPlain_storing (scan : Scan) : scan.storing.isPlain = true := by
  cases scan <;> rfl

theorem accepts_memory (s : Scheduler) : s.memory.accepts = s.accepts := rfl

theorem accepts_conclude (s : Scheduler) (h : s.accepts = true) : s.conclude.accepts = true := by
  unfold accepts at h ⊢
  unfold conclude
  cases hp : s.phase <;> simp_all

theorem accepts_begin (s : Scheduler) (h : s.accepts = true) : s.begin.accepts = true := by
  unfold accepts at h ⊢
  simp only [Bool.and_eq_true] at h
  simp [begin, h.1.1]

theorem foldl_collect_flags (changed : List String) (s : Scheduler) :
    (changed.foldl collect s).accepts = s.accepts ∧ (changed.foldl collect s).isBusy = s.isBusy := by
  induction changed generalizing s with
  | nil => exact ⟨rfl, rfl⟩
  | cons path rest ih => exact ih (s.collect path)

theorem foldl_hear_flags (given : List (String × Operation)) (s : Scheduler) :
    (given.foldl hear s).accepts = s.accepts ∧ (given.foldl hear s).isBusy = s.isBusy := by
  induction given generalizing s with
  | nil => exact ⟨rfl, rfl⟩
  | cons e rest ih =>
    rw [List.foldl_cons]
    have he : (s.hear e).accepts = s.accepts ∧ (s.hear e).isBusy = s.isBusy := by
      unfold hear
      split
      · exact ⟨rfl, rfl⟩
      · split <;> exact ⟨rfl, rfl⟩
    exact ⟨(ih _).1.trans he.1, (ih _).2.trans he.2⟩

namespace Machine

variable {σ : Type} {b : Backend σ} {m m' : Machine σ} {id : TaskId} {next : Option Stage}
  {work : Option Work}

theorem Idles.steady (h : Idles m m') (hs : m.Steady) : m'.Steady where
  numbered := h.numbered hs.numbered
  accepts := h.scheduler ▸ hs.accepts
  plain i st hat := hs.plain i st ((h.at_iff i st).mp hat)

theorem Moves.steady (h : Moves b id next work m m') (hplain : ∀ i st, m.At i st → st.isPlain = true)
    (hnext : ∀ st, next = some st → st.isPlain = true) (ha : m'.scheduler.accepts = true) :
    m'.Steady where
  numbered := h.numbered
  accepts := ha
  plain i st hat := by
    rcases h.old hat with ⟨-, hat⟩ | ⟨-, hst⟩ | rfl | rfl
    · exact hplain i st hat
    · exact hnext st hst
    · rfl
    · rfl

theorem Drains.steady {ending : Ending} {rest : List (String × Operation)}
    (h : Drains b id ending rest m m') (hplain : ∀ i st, m.At i st → st.isPlain = true)
    (ha : m.scheduler.accepts = true) : m'.Steady := by
  cases h with
  | purge changed path rest' hrest hs h =>
    refine h.steady hplain (fun st hst => by cases hst; rfl) ?_
    rw [← accepts_memory, hs, (foldl_collect_flags _ _).1]
    exact ha
  | finish changed hrest hs h =>
    refine h.steady hplain nofun ?_
    rw [← accepts_memory, hs, (foldl_collect_flags _ _).1]
    exact ha

theorem Notifies.steady {given : List (String × Operation)} (h : Notifies b id given m m')
    (hs : m.Steady) : m'.Steady := by
  cases h with
  | purge before path todo hbusy hgiven hbefore hmem h =>
    refine h.steady hs.plain (fun st hst => by cases hst; rfl) ?_
    rw [← accepts_memory, hmem, (foldl_hear_flags _ _).1]
    exact hs.accepts
  | finish hgiven hmem h =>
    refine h.steady hs.plain nofun ?_
    rw [← accepts_memory, hmem, (foldl_hear_flags _ _).1]
    exact hs.accepts

theorem Concludes.steady (h : Concludes b id m m') (hs : m.Steady) : m'.Steady := by
  obtain ⟨ending, h⟩ := h
  exact h.steady hs.plain (accepts_conclude _ hs.accepts)

theorem Hears.steady {scan : Scan} (h : Hears b id scan m m') (hs : m.Steady) : m'.Steady := by
  cases h with
  | answered records w ha hsch h =>
    exact h.steady hs.plain (fun st hst => by cases hst; exact isPlain_storing scan)
      (hsch ▸ hs.accepts)
  | failed t w ha h => exact h.steady ⟨hs.numbered.congr rfl rfl, hs.accepts, hs.plain⟩

theorem steady_begun (hs : m.Steady) (scan : Scan) (w : σ) : (m.begun b scan w).Steady :=
  ⟨hs.numbered.congr rfl rfl, accepts_begin _ hs.accepts, hs.plain⟩

theorem Goes.steady {stage : Stage} (h : Goes b id stage m m') (hs : m.Steady)
    (hat : m.At id stage) : m'.Steady := by
  cases h with
  | rests hr hsch h =>
    refine h.steady hs.plain (fun st hst => ?_) (hsch ▸ hs.accepts)
    cases hr <;> cases hst <;> rfl
  | asks scan w hb hidle hw hsch h =>
    exact h.steady hs.plain (fun st hst => by cases hst; exact isPlain_asking _)
      (hsch ▸ accepts_begin _ hs.accepts)
  | asksAndHears scan w hb hidle hw h =>
    -- between asking and hearing the machine is steady, too
    have hbegun := steady_begun (b := b) hs scan w
    have hmoves := Moves.suspend b hbegun.numbered (hs.numbered.at_lt hat) scan.asking .answer
    exact h.steady (hmoves.steady hbegun.plain
      (fun st hst => by cases hst; exact isPlain_asking _) hbegun.accepts)
  | hears scan h => exact h.steady hs
  | stored scan h => exact h.steady hs
  | drains h => exact h.steady hs.plain hs.accepts
  | notifies hst h hgiven => exact h.steady hs

end Machine

/-- Every step but a stop keeps a scheduler running. -/
theorem Scene.Steps.steady {σ : Type} {b : Backend σ} {s s' : Scene σ} {e : Event σ}
    (h : Steps b s s' e) (hs : s.machine.Steady) (he : e.isStop = false) : s'.machine.Steady := by
  cases h with
  | idles he hg h hr => exact h.steady hs
  | change hx hmem hr =>
    refine ⟨hx.numbered hs.numbered, ?_, fun i st hat => ?_⟩
    · rw [← accepts_memory, hmem]
      exact (foldl_hear_flags [(_, .change)] s.machine.scheduler.memory).1.trans hs.accepts
    · rcases hx.old hat with hat | rfl | rfl
      · exact hs.plain i st hat
      · rfl
      · rfl
  | call hstage hm hr =>
    rw [hm]
    refine ⟨hs.numbered.spawn, hs.accepts, fun i st hat => ?_⟩
    rcases at_spawn.mp hat with hat | ⟨-, rfl⟩
    · exact hs.plain i st hat
    · cases e <;> cases hstage <;> first | rfl | cases he
  | turn m id stage hm hat hg h hr => exact h.steady (hm.steady hs) hat
  | pick job rest hjobs hidle hm hr =>
    rw [hm]
    exact ⟨hs.numbered.congr rfl rfl, hs.accepts, hs.plain⟩
  | done job hjob hm hr =>
    rw [hm]
    exact (Idles.perform b job _).steady ⟨hs.numbered.congr rfl rfl, hs.accepts, hs.plain⟩
  | outside hm hr =>
    rw [hm]
    exact ⟨hs.numbered.congr rfl rfl, hs.accepts, hs.plain⟩

section Fresh

variable {σ : Type} {b : Backend σ} {m : Machine σ}

theorem Machine.IsFresh.start_eq (h : m.IsFresh) :
    m.start b = (m.update fun s => { s with hasWorker := true, phase := .idle }).log b .info
      "watch_scheduler_started" [("debounce_sec", .float m.quietSeconds)] := by
  rw [Machine.start, if_neg (by rw [h.scheduler]; decide)]

/-- A scheduler that has just been started has no task yet. -/
theorem Machine.IsFresh.not_at_start (h : m.IsFresh) (i : TaskId) (st : Stage) :
    ¬(m.start b).At i st := by
  rintro ⟨t, ht, -⟩
  rw [h.start_eq] at ht
  change t ∈ m.tasks at ht
  rw [h.tasks] at ht
  cases ht

theorem Machine.IsFresh.steady_start (h : m.IsFresh) : (m.start b).Steady := by
  have hids : (m.start b).ids = [] := by
    rw [h.start_eq]
    change m.tasks.map Task.id = []
    rw [h.tasks]
    rfl
  refine ⟨⟨?_, ?_⟩, ?_, fun i st hat => absurd hat (h.not_at_start i st)⟩
  · rw [hids]
    exact List.nodup_nil
  · intro i hi
    rw [hids] at hi
    cases hi
  · rw [h.start_eq]
    rfl

end Fresh

end CodeIndex.Scheduler
