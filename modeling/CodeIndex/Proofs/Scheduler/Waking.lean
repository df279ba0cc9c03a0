import CodeIndex.Proofs.Scheduler.Tending

/-!
# Somebody takes the collected paths

What each turn does for the tasks and the paths that wait, and with it what every event does: no task is
left without what it waits for, and no collected path without a task that sees to it.
-/

namespace CodeIndex.Scheduler

namespace Machine

variable {σ : Type} {b : Backend σ} {m m' : Machine σ} {r : Option Job} {turn : Option TaskId}
  {id i : TaskId} {t : Task}

/-! ## Turns -/

/-- A drain goes on as one, or ends when the paths that it collected wait for a quiet time. -/
theorem watched_drain (ht : m.Tended r (some id)) (hid : id < m.created)
    (ha : m.scheduler.accepts = true) (ending : Ending) (rest : List (String × Operation)) :
    (drain b id ending rest m).Watched r none := by
  induction rest generalizing m with
  | nil =>
    rw [drain]
    have hturn : ∀ i ∈ some id, i < m.created := fun i hi => Option.some.inj hi ▸ hid
    unfold requeue
    split
    · rename_i hempty
      exact watched_finish ht fun hp => absurd (List.isEmpty_iff.mp hempty) hp
    · exact watched_finish (Tended.restartQuiet ht) fun _ => .inr (rouses_restartQuiet ha hturn)
  | cons e rest ih =>
    obtain ⟨path, op⟩ := e
    cases op with
    | change => exact ih (m := m.update (·.collect path)) ht hid ha
    | delete =>
      rw [drain, if_pos (hasWorker_of_accepts ha)]
      exact watched_submit ht (.inr rfl)

theorem watched_conclude (ht : m.Tended r (some id)) (hid : id < m.created)
    (ha : m.scheduler.accepts = true) (ending : Ending) :
    (conclude b id ending m).Watched r none :=
  watched_drain (m := m.update Scheduler.conclude) ht hid (accepts_conclude _ ha) ending _

theorem watched_cycleFailed (ht : m.Tended r (some id)) (hid : id < m.created)
    (ha : m.scheduler.accepts = true) (batch : List String) (trouble : Trouble) :
    (m.cycleFailed b id batch trouble).Watched r none := by
  have hlog : ∀ level name members, (conclude b id .cycle
      ((m.update (·.note trouble.toString)).log b level name members)).Watched r none := by
    intro level name members
    refine watched_conclude ?_ ?_ ?_ _
    exacts [ht, hid, ha]
  unfold cycleFailed
  cases trouble with
  | mishap c => exact hlog ..
  | failure f =>
    dsimp only
    split <;> exact hlog ..

theorem watched_cycleMerged (ht : m.Tended r (some id)) (hid : id < m.created)
    (ha : m.scheduler.accepts = true) (batch : List String)
    (result : Option (Except Trouble Nat)) :
    (m.cycleMerged b id batch result).Watched r none := by
  unfold cycleMerged
  split
  · refine watched_conclude ?_ ?_ ?_ _
    exacts [ht, hid, ha]
  · exact watched_cycleFailed ht hid ha batch _
  · exact watched_conclude ht hid ha _

theorem watched_rebuildStored (ht : m.Tended r (some id)) (hid : id < m.created)
    (ha : m.scheduler.accepts = true) (result : Option (Except Trouble Nat)) :
    (m.rebuildStored b id result).Watched r none := by
  unfold rebuildStored
  split <;>
  · refine watched_conclude ?_ ?_ ?_ _
    exacts [ht, hid, ha]

theorem watched_cycleAnswered (ht : m.Tended r (some id)) (hid : id < m.created)
    (ha : m.scheduler.accepts = true) (batch : List String) :
    (m.cycleAnswered b id batch).Watched r none := by
  unfold cycleAnswered
  rcases b.answer (.paths batch) m.world with ⟨answer, w⟩
  cases answer with
  | ok records => exact watched_submit (m := { m with world := w }) ht (.inr rfl)
  | error trouble => exact watched_cycleFailed (m := { m with world := w }) ht hid ha batch trouble

theorem watched_rebuildAnswered (ht : m.Tended r (some id)) (hid : id < m.created)
    (ha : m.scheduler.accepts = true) : (m.rebuildAnswered b id).Watched r none := by
  unfold rebuildAnswered
  rcases b.answer .all m.world with ⟨answer, w⟩
  cases answer with
  | ok records => exact watched_submit (m := { m with world := w }) ht (.inr rfl)
  | error trouble => exact watched_rebuildStored (m := { m with world := w }) ht hid ha _

theorem watched_beginCycle (ht : m.Tended r (some id)) (hid : id < m.created)
    (ha : m.scheduler.accepts = true) : (m.beginCycle b id).Watched r none := by
  unfold beginCycle
  dsimp only
  split
  · rename_i hskip
    refine watched_finish ht fun hp => .inl ?_
    simpa [ha, hp] using hskip
  · split
    · refine watched_cycleAnswered ?_ ?_ ?_ _
      exacts [ht, hid, accepts_begin _ ha]
    · refine watched_answer ?_ (.inr rfl)
      exact ht

theorem watched_beginRebuild (ht : m.Tended r (some id)) (hid : id < m.created)
    (ha : m.scheduler.accepts = true) : (m.beginRebuild b id).Watched r none := by
  unfold beginRebuild
  split
  · rename_i hbusy
    have hr : m.Roused (some id) := fun _ => .inl hbusy
    split
    · rename_i cycle hlive
      exact watched_awaitEnds (List.cons_ne_nil _ _)
        (List.cons_subset.mpr ⟨mem_ids_of_liveOf hlive, List.nil_subset _⟩) ht (.inl hr)
    · exact watched_sleep ht (.inl hr)
  · dsimp only
    split
    · refine watched_rebuildAnswered ?_ ?_ ?_
      exacts [ht, hid, accepts_begin _ ha]
    · refine watched_answer ?_ (.inr rfl)
      exact ht

theorem watched_giveNotices (ht : m.Tended r (some id)) (hr : m.Roused (some id))
    (hid : id < m.created) (ha : m.scheduler.accepts = true) (todo : List Notice) :
    (m.giveNotices b id todo .finish).Watched r none := by
  induction todo generalizing m with
  | nil => exact watched_finish ht hr
  | cons n rest ih =>
    rw [giveNotices_cons]
    split
    · have hx := Extends.noteChange b (pathOf n) m
      have hturn : ∀ i ∈ some id, i < m.created := fun i hi => Option.some.inj hi ▸ hid
      refine ih (ht.noteChange _) (roused_noteChange ha hturn _) (Nat.lt_of_lt_of_le hid hx.created) ?_
      rw [← accepts_memory, memory_noteChange]
      exact (foldl_hear_flags [(_, .change)] m.scheduler.memory).1.trans ha
    · split
      · rename_i hbusy
        exact ih (m := m.deferDelete b _) ht (fun _ => .inl hbusy) hid ha
      · rw [if_pos (hasWorker_of_accepts ha)]
        exact watched_submit ht (.inl hr)

theorem watched_awaitIdle (ht : m.Tended r (some id)) (hr : m.Roused (some id)) (deadline : Nat) :
    (m.awaitIdle id deadline).Watched r none := by
  unfold awaitIdle
  split
  · exact watched_finish ht hr
  · split
    · exact watched_finish ht hr
    · split
      · exact watched_sleep ht (.inl hr)
      · -- the end of live tasks is waited for, or else the timer
        rename_i hids
        suffices h : Enters (m.waiting id (.idle deadline)
            (.ends ((m.liveOf m.quiet).toList ++ (m.liveOf m.cycle).toList))) m _ from
          h.watched ht (.inl hr) ⟨hids, List.Subset.trans (fun i hi => ?_) h.ids_subset⟩
        · rcases List.mem_append.mp hi with hi | hi <;>
          · exact mem_ids_of_liveOf (Option.mem_toList.mp hi)
        · exact ⟨rfl, fun _ h => h, List.subset_append_left _ _, fun _ h => h, rfl⟩

theorem watched_beginQuiet (ht : m.Tended r (some id))
    (hquiet : (m.task? id).any (·.isCancelled) = false) : (m.beginQuiet id).Watched r none := by
  unfold beginQuiet
  have hrouses : ∀ wait, (m.waiting id .quietOver wait).rouses = true := by
    intro wait
    change (!(m.task? id).any (·.isCancelled)) = true
    rw [hquiet]
    rfl
  split
  · exact watched_yield ht (.inr (hrouses _))
  · exact watched_sleep ht (.inr (hrouses _))

theorem watched_endQuiet (ht : m.Tended r (some id)) (hid : id < m.created) :
    (m.endQuiet id).Watched r none := by
  have hturn : ∀ i ∈ some id, i < m.created := fun i hi => Option.some.inj hi ▸ hid
  exact watched_finish (m := { (m.spawn .cycle) with cycle := some m.created }) (Tended.spawn ht)
    fun _ => .inr (rouses_spawn rfl hturn)

theorem Tended.notePurge (h : m.Tended r turn) (path : String)
    (result : Option (Except Trouble Nat)) : (m.notePurge b path result).Tended r turn := by
  unfold Machine.notePurge
  split <;> exact h

theorem Roused.notePurge (h : m.Roused turn) (path : String)
    (result : Option (Except Trouble Nat)) : (m.notePurge b path result).Roused turn := by
  unfold Machine.notePurge
  split <;> exact h

/-- A task that does not rouse is not the one that does. -/
theorem Roused.besides (h : m.Roused none) (hn : m.Numbered) (htask : t ∈ m.tasks)
    (ht : t.rouses = false) : m.Roused (some t.id) := by
  intro hp
  refine (h hp).imp_right ?_
  rintro ⟨u, hu, -, hrouses⟩
  refine ⟨u, hu, fun he => ?_, hrouses⟩
  rw [List.inj_on_of_nodup_map hn.nodup hu htask (Option.some.inj he), ht] at hrouses
  cases hrouses

/-- A task that goes on leaves no task and no path forgotten. -/
theorem watched_continueFrom (hn : m.Numbered) (ha : m.scheduler.accepts = true)
    (ht : m.Tended r (some t.id)) (hr : m.Roused none) (htask : m.task? t.id = some t)
    (hplain : t.stage.isPlain = true) (hearly : (t.isCancelled && endsEarly t.stage) = false)
    (result : Option (Except Trouble Nat)) :
    (continueFrom b t.id result m t.stage).Watched r none := by
  have hmem := List.mem_of_find?_eq_some htask
  have hid : t.id < m.created := hn.lt _ (List.mem_map_of_mem hmem)
  have hbesides : t.rouses = false → m.Roused (some t.id) := hr.besides hn hmem
  unfold Task.rouses at hbesides
  -- the result of a purge is logged first
  have hnoted : ∀ path, t.id < (m.notePurge b path result).created ∧
      (m.notePurge b path result).scheduler.accepts = true := by
    intro path
    refine ⟨Nat.lt_of_lt_of_le hid (Extends.notePurge b path result m).created, ?_⟩
    rw [← accepts_memory, memory_notePurge]
    exact ha
  cases hst : t.stage with
  | quiet =>
    refine watched_beginQuiet ht ?_
    rw [htask]
    simpa [hst, endsEarly] using hearly
  | quietOver => exact watched_endQuiet ht hid
  | cycle => exact watched_beginCycle ht hid ha
  | cycleAnswered batch => exact watched_cycleAnswered ht hid ha batch
  | cycleMerged batch => exact watched_cycleMerged ht hid ha batch result
  | rebuild => exact watched_beginRebuild ht hid ha
  | rebuildAnswered => exact watched_rebuildAnswered ht hid ha
  | rebuildStored => exact watched_rebuildStored ht hid ha result
  | drained path rest ending =>
    exact watched_drain (ht.notePurge path result) (hnoted path).1 (hnoted path).2 ending rest
  | notices todo follow =>
    rw [hst] at hplain hbesides
    cases follow with
    | watch => cases hplain
    | finish => exact watched_giveNotices ht (hbesides rfl) hid ha todo
  | purged path todo follow =>
    rw [hst] at hplain hbesides
    cases follow with
    | watch => cases hplain
    | finish =>
      exact watched_giveNotices (ht.notePurge path result) ((hbesides rfl).notePurge path result)
        (hnoted path).1 (hnoted path).2 todo
  | idle deadline =>
    rw [hst] at hbesides
    exact watched_awaitIdle ht (hbesides rfl) deadline
  | stop => rw [hst] at hplain; cases hplain
  | stopQuiet => rw [hst] at hplain; cases hplain
  | stopCycle => rw [hst] at hplain; cases hplain
  | watch => rw [hst] at hplain; cases hplain
  | unwatch => rw [hst] at hplain; cases hplain
  | unwatched => rw [hst] at hplain; cases hplain

/-- The other tasks have their turns when one is taken from the list. -/
theorem Tended.erase {n : Nat} {x : Turn} (h : m.Tended r none) (hx : m.turns[n]? = some x) :
    ({ m with turns := m.turns.eraseIdx n } : Machine σ).Tended r (some x.task) := by
  intro u hu hne
  refine (h u hu nofun).mono (fun _ hx => hx) (fun y hy he => ?_) (fun _ hx _ => hx) fun _ hx _ => hx
  obtain ⟨k, hk⟩ := List.mem_iff_getElem?.mp hy
  refine List.mem_eraseIdx_iff_getElem?.mpr ⟨k, ?_, hk⟩
  rintro rfl
  rw [hx] at hk
  exact hne (by rw [← he, Option.some.inj hk])

theorem rouses_of_endsEarly (h : (t.isCancelled && endsEarly t.stage) = true) :
    t.rouses = false := by
  rw [Bool.and_eq_true] at h
  unfold Task.rouses
  cases hst : t.stage with
  | quiet => exact congrArg (!·) h.1
  | quietOver => exact congrArg (!·) h.1
  | watch => rfl
  | purged path todo follow => rfl
  | _ => rw [hst] at h; cases h.2

/-- A turn that is taken leaves no task and no path unwatched. -/
theorem Watched.take {n : Nat} {x : Turn} (h : m.Watched r none) (hs : m.Steady)
    (hx : m.turns[n]? = some x) :
    (Machine.take b x { m with turns := m.turns.eraseIdx n }).Watched r none := by
  have ht := h.tended.erase hx
  unfold Machine.take
  split
  · rename_i hnone
    refine ⟨fun u hu _ => ht u hu fun he => ?_, h.roused⟩
    refine absurd (List.find?_eq_none.mp hnone u hu) ?_
    rw [Option.some.inj he, beq_self_eq_true]
    exact fun hfalse => hfalse rfl
  · rename_i t htask
    have hid : t.id = x.task := by simpa using List.find?_some htask
    have hmem := List.mem_of_find?_eq_some htask
    rw [← hid] at ht htask
    split
    · rename_i hearly
      exact watched_finish ht
        (Roused.besides h.roused (hs.numbered.congr rfl rfl) hmem (rouses_of_endsEarly hearly))
    · rename_i hearly
      exact watched_continueFrom (m := { m with turns := m.turns.eraseIdx n })
        (hs.numbered.congr rfl rfl) hs.accepts ht h.roused htask
        (hs.plain _ _ ⟨t, hmem, rfl, rfl⟩) (Bool.eq_false_iff.mpr hearly) x.result

end Machine

open Machine

/-! ## Runs -/

/-- What holds of a scene at any time: at most one holder of the flag, and nothing unwatched. -/
structure Scene.IsAwake {σ : Type} (s : Scene σ) : Prop where
  steady : s.machine.Steady
  holder : ∃ h, s.machine.Holder h
  watched : s.machine.Watched s.running none

namespace Scene

variable {σ : Type} {b : Backend σ} {s : Scene σ}

/-- Collected paths are seen to by a task that has what it waits for. -/
theorem IsAwake.exists_rouses (h : s.IsAwake) (hp : s.machine.scheduler.pending ≠ []) :
    ∃ t ∈ s.machine.tasks, t.rouses = true ∧ s.machine.Tends s.running t := by
  have htask : ∃ t ∈ s.machine.tasks, t.rouses = true := by
    rcases h.watched.roused hp with hbusy | ⟨t, ht, -, hr⟩
    · obtain ⟨held, hh⟩ := h.holder
      rw [hh.busy, Option.isSome_iff_exists] at hbusy
      obtain ⟨⟨i, st⟩, rfl⟩ := hbusy
      obtain ⟨⟨t, ht, -, rfl⟩, hst⟩ := (hh.holds i st).mpr rfl
      exact ⟨t, ht, Task.rouses_of_isUnderWay hst⟩
    · exact ⟨t, ht, hr⟩
  obtain ⟨t, ht, hr⟩ := htask
  exact ⟨t, ht, hr, h.watched.tended t ht nofun⟩

/-- No event but a stop makes a task or a path be forgotten. -/
theorem watched_step (hs : s.machine.Steady) (h : s.machine.Watched s.running none) {e : Event σ}
    (he : e.isStop = false) :
    (s.step b e).machine.Watched (s.step b e).running none := by
  cases e with
  | change path =>
    refine ⟨h.tended.noteChange path, roused_noteChange hs.accepts ?_ path⟩
    nofun
  | notices todo => exact h.spawn
  | rebuild => exact h.spawn
  | idle deadline => exact h.spawn
  | start =>
    change (s.machine.start b).Watched s.running none
    rw [Machine.start, if_pos (hasWorker_of_accepts hs.accepts)]
    exact h
  | stop => cases he
  | turn n =>
    rw [step]
    split
    · rename_i x hx
      exact h.take hs hx
    · exact h
  | pick =>
    rw [step]
    split
    · -- the job that the worker takes is still the first of all
      rename_i job rest hr hjobs
      refine ⟨fun t ht hne => (h.tended t ht hne).mono (fun _ hx => hx) (fun _ hx _ => hx)
        (fun _ hx _ => hx) ?_,
        h.roused⟩
      intro x hx _
      rw [hr, hjobs] at hx
      exact hx
    · exact h
  | done =>
    rw [step]
    split
    · -- the task whose job is done is woken
      rename_i job hr
      refine ⟨tended_wake fun t ht hi hne => ?_, fun hp => (h.roused hp).imp_right .wake⟩
      refine (h.tended t ht hne).mono (fun _ hx => hx) (fun _ hx _ => hx) (fun _ hx _ => hx)
        fun x hx he => ?_
      rw [hr] at hx
      exact (List.mem_cons.mp hx).resolve_left fun hjob => hi (by rw [← he, hjob])
    · exact h
  | timer n =>
    rw [step]
    split
    · exact h.wake
    · exact h
  | answer id =>
    rw [step]
    split
    · exact h.wake
    · exact h
  | clock now => exact ⟨h.tended, h.roused⟩
  | outside f => exact ⟨h.tended, h.roused⟩

theorem IsAwake.step (h : s.IsAwake) {e : Event σ} (he : e.isStop = false) :
    (s.step b e).IsAwake := by
  have hsteps := steps_step (b := b) h.steady e
  obtain ⟨held, hh⟩ := h.holder
  obtain ⟨held', hh', -⟩ := hsteps.holder h.steady hh
  exact ⟨hsteps.steady h.steady he, ⟨held', hh'⟩, watched_step h.steady h.watched he⟩

theorem IsAwake.run (h : s.IsAwake) {events : List (Event σ)}
    (hstop : ∀ e ∈ events, e.isStop = false) : (s.run b events).IsAwake := by
  unfold Scene.run
  induction events generalizing s with
  | nil => exact h
  | cons e rest ih =>
    rw [List.forall_mem_cons] at hstop
    exact ih (h.step hstop.1) hstop.2

theorem isAwake_start {m : Machine σ} (hm : m.IsFresh) :
    IsAwake { machine := m.start b } where
  steady := hm.steady_start
  holder := ⟨none, hm.holder_start⟩
  watched := by
    refine ⟨fun t ht _ => absurd ⟨t, ht, rfl, rfl⟩ (hm.not_at_start t.id t.stage), fun hp => ?_⟩
    refine absurd ?_ hp
    rw [hm.start_eq]
    change m.scheduler.pending = []
    rw [hm.scheduler]

end Scene

end CodeIndex.Scheduler
