import CodeIndex.Proofs.Scheduler.Halting

/-!
# Stopping

The task that stops the scheduler goes from stage to stage, and whatever happens meanwhile, it ends only
when nothing that has begun goes on.  This takes that no rebuild is under way and that the only cycle that
may have begun is the one the scheduler knows of: it waits for no other.
-/

namespace CodeIndex.Scheduler

namespace Machine

variable {σ : Type} {b : Backend σ} {m : Machine σ} {rs : List Job} {stop i : TaskId}

/-! ## The turns of the task that stops the scheduler -/

theorem IsBegun.mem_ids (h : m.IsBegun i) : i ∈ m.ids := by
  obtain ⟨st, hat, -⟩ := h
  exact hat.mem_ids

theorem stops_awaitEnds {next : Stage} {ids : List TaskId}
    (hnext : next = .stopQuiet ∨ next = .stopCycle ∧ ∀ i, m.IsBegun i → i ∈ ids) :
    (m.awaitEnds stop next ids).Stops stop where
  live := by
    have hat : (m.awaitEnds stop next ids).At stop next := at_suspend.mpr (.inr ⟨rfl, rfl⟩)
    exact hat.mem_ids
  waits t ht hid := by
    have hbegun : next.isBegun = true → m.IsBegun stop := by
      rcases hnext with rfl | ⟨rfl, -⟩ <;> exact nofun
    rcases List.mem_append.mp ht with ht | ht
    · rw [List.mem_filter, bne_iff_ne] at ht
      exact absurd hid ht.2
    · obtain rfl := List.mem_singleton.mp ht
      refine hnext.imp_right fun ⟨hst, hall⟩ => ⟨hst, fun i hi => ⟨ids, rfl, hall i ?_⟩⟩
      exact isBegun_rests rfl hbegun hi

/-- The worker ends when nothing has begun. -/
theorem halting_stopWorker (hc : m.Called rs (some stop)) (hh : m.Halting)
    (hnone : ∀ i, ¬m.IsBegun i) (hrs : m.scheduler.hasWorker = true → rs = []) :
    (m.stopWorker b stop).Halting ∧ (m.stopWorker b stop).Rested := by
  have hlogged : ∀ m' : Machine σ, ∀ level name members, Spares none m' (m'.log b level name members) :=
    fun _ _ _ _ => .same rfl rfl rfl
  -- the worker ends, this is logged, and the task is over
  have hended := (spares_retire hc).trans (hlogged (m.retire b) .info "watch_scheduler_stopped"
    [("cycles", .nat (m.retire b).scheduler.cycles)])
  have hs : Spares none m (m.stopWorker b stop) :=
    hended.trans (spares_finish ((hc.retire hrs).numbered.congr rfl rfl) nofun)
  exact ⟨hs.halting hh, hasWorker_stopWorker, fun i hi => hnone i (hs.isBegun hi)⟩

/-- The only cycle that may have begun is waited for, if it is live. -/
theorem halting_stopCycle (hc : m.Called rs (some stop)) (hacts : m.Acts stop .stop)
    (hh : m.Halting)
    (hrs : m.scheduler.hasWorker = true → (m.stopCycle b stop).scheduler.hasWorker = false → rs = []) :
    (m.stopCycle b stop).Halting ∧
      ((m.stopCycle b stop).Stops stop ∨ (m.stopCycle b stop).Rested) := by
  unfold stopCycle at hrs ⊢
  split at hrs
  · rename_i cycle hlive
    have hcycle : m.cycle = some cycle := (Option.filter_eq_some_iff.mp hlive).1
    refine ⟨hh.rests rfl rfl rfl hacts nofun, .inl (stops_awaitEnds (.inr ⟨rfl, fun i hi => ?_⟩))⟩
    rw [hh.begun i hi] at hcycle
    exact List.mem_singleton.mpr (Option.some.inj hcycle)
  · rename_i hdead
    have hnone : ∀ i, ¬m.IsBegun i := by
      intro i hi
      rw [hh.begun i hi, liveOf_of_mem hi.mem_ids] at hdead
      cases hdead
    exact (halting_stopWorker hc hh hnone fun hw => hrs hw hasWorker_stopWorker).imp_right .inr

/-- The last quiet time is cancelled, and with it all are. -/
theorem halting_beginStop (hc : m.Called rs (some stop)) (hacts : m.Acts stop .stop)
    (hrebuild : ∀ i st, m.At i st → st.role ≠ .rebuild)
    (hbegun : ∀ i, m.IsBegun i → m.cycle = some i)
    (hrs : m.scheduler.hasWorker = true → (m.beginStop b stop).scheduler.hasWorker = false → rs = []) :
    (m.beginStop b stop).Halting ∧
      ((m.beginStop b stop).Stops stop ∨ (m.beginStop b stop).Rested) := by
  have hc' : (m.update fun s => { s with phase := .stopping }).Called rs (some stop) :=
    hc.congr rfl rfl rfl rfl rfl rfl
  unfold beginStop at hrs ⊢
  dsimp only at hrs ⊢
  split at hrs
  · rename_i q hlive
    have hq : m.quiet = some q := (Option.filter_eq_some_iff.mp hlive).1
    have hcancel := hc'.cancel hq
    have hs : Spares none (m.update fun s => { s with phase := .stopping })
        ((m.update fun s => { s with phase := .stopping }).cancel q) := spares_cancel fun _ _ _ => nofun
    have hh : ((m.update fun s => { s with phase := .stopping }).cancel q).Halting := by
      refine ⟨hs.phase rfl, fun t ht hrole => ?_, fun i st hat => hrebuild i st (hs.at hat),
        fun i hi => hs.cycle.trans (hbegun i (hs.isBegun hi))⟩
      by_contra hn
      rw [Bool.not_eq_true] at hn
      have he := (hcancel.fits t ht).current hrole hn
      rw [quiet_cancel] at he
      rw [isCancelled_cancel ht (Option.some.inj (hq.symm.trans he)).symm] at hn
      cases hn
    -- the quiet time that is cancelled may have a turn to come yet, and the stopping waits for it
    exact ⟨hh.rests rfl rfl rfl (hacts.congr fun _ => at_cancel) nofun,
      .inl (stops_awaitEnds (.inl rfl))⟩
  · rename_i hdead
    refine halting_stopCycle hc' hacts ⟨rfl, fun t ht hrole => ?_, hrebuild, hbegun⟩ hrs
    by_contra hn
    rw [Bool.not_eq_true] at hn
    have he : m.quiet = some t.id := (hc.fits t ht).current hrole hn
    change m.liveOf m.quiet = none at hdead
    change t ∈ m.tasks at ht
    rw [he, liveOf_of_mem (List.mem_map_of_mem ht)] at hdead
    cases hdead

theorem take_eq_continueFrom {t : Task} {x : Turn} (ht : m.task? x.task = some t)
    (hearly : endsEarly t.stage = false) :
    m.take b x = continueFrom b t.id x.result m t.stage := by
  unfold take
  rw [ht]
  dsimp only
  rw [hearly, Bool.and_false, if_neg nofun]

/-- The task that stops the scheduler waits for all that has begun; so when its turn comes, that has ended. -/
theorem Stops.take {t : Task} {x : Turn} (hs : m.Stops t.id) (hc : m.Called rs (some t.id))
    (hh : m.Halting) (ht : m.task? x.task = some t)
    (hrs : m.scheduler.hasWorker = true → (m.take b x).scheduler.hasWorker = false → rs = []) :
    (m.take b x).Halting ∧ ((m.take b x).Stops t.id ∨ (m.take b x).Rested) := by
  have hmem := List.mem_of_find?_eq_some ht
  have hawaits := hc.not_awaits (i := t.id) (by rw [count_callers_some, if_pos rfl]; omega)
  have hacts := Acts.of_task? hc.numbered ht
  rcases hs.waits t hmem rfl with hst | ⟨hst, hall⟩
  · have hcycle : m.take b x = m.stopCycle b t.id := by
      rw [take_eq_continueFrom ht (by rw [hst]; rfl), hst]
      rfl
    rw [hst] at hacts
    rw [hcycle] at hrs ⊢
    exact halting_stopCycle hc hacts hh hrs
  · have hworker : m.take b x = m.stopWorker b t.id := by
      rw [take_eq_continueFrom ht (by rw [hst]; rfl), hst]
      rfl
    rw [hworker] at hrs ⊢
    -- whoever had begun is waited for, and who waits has no turn
    have hnone : ∀ i, ¬m.IsBegun i := fun i hi => hawaits t hmem rfl i (hall i hi)
    exact (halting_stopWorker hc hh hnone fun hw => hrs hw hasWorker_stopWorker).imp_right .inr

end Machine

open Machine

/-! ## Events -/

def Event.revives {σ : Type} : Event σ → Bool
  | .start => true
  | .rebuild => true
  | _ => false

namespace Scene

variable {σ : Type} {b : Backend σ} {s : Scene σ} {stop : Option TaskId}

/-- A scheduler is stopped by a task, if one is named, or it has stopped. -/
structure Closing (stop : Option TaskId) (s : Scene σ) : Prop where
  attended : s.Attended
  halting : s.machine.Halting
  ends : (∃ i ∈ stop, s.machine.Stops i) ∨ s.machine.Rested

theorem Closing.isRested (h : s.Closing none) : s.machine.Rested :=
  h.ends.resolve_left fun ⟨_, hi, _⟩ => nomatch hi

/-- When the task is gone, the scheduler has stopped. -/
theorem Closing.rested {i : TaskId} (h : s.Closing (some i)) (hgone : i ∉ s.machine.ids) :
    s.Closing none :=
  ⟨h.attended, h.halting, .inr (h.ends.resolve_left fun ⟨_, hi, hs⟩ =>
    hgone (Option.some.inj hi ▸ hs.live))⟩

theorem Closing.spares {s' : Scene σ} (h : s.Closing stop) (ha : s'.Attended)
    (hs : ∀ only, Spares only s.machine s'.machine) : s'.Closing stop :=
  ⟨ha, (hs none).halting h.halting,
    h.ends.imp (fun ⟨i, hi, hstops⟩ => ⟨i, hi, (hs _).stops hstops⟩) (hs none).rested⟩

/-- A task that begins neither a cycle nor a rebuild does not keep a scheduler from closing. -/
theorem Closing.spawn {stage : Stage} (h : s.Closing stop) (ha : (s.on (·.spawn stage)).Attended)
    (hbegun : stage.isBegun = false) (hquiet : stage.role ≠ .quiet) (hrebuild : stage.role ≠ .rebuild) :
    (s.on (·.spawn stage)).Closing stop := by
  have hat : ∀ {i st}, (s.on (·.spawn stage)).machine.At i st →
      s.machine.At i st ∨ i = s.machine.created ∧ st = stage := at_spawn.mp
  have hmono : ∀ i, (s.on (·.spawn stage)).machine.IsBegun i → s.machine.IsBegun i := by
    rintro i ⟨st, hi, hst⟩
    rcases hat hi with hi | ⟨-, rfl⟩
    · exact ⟨st, hi, hst⟩
    · rw [hbegun] at hst
      cases hst
  refine ⟨ha, ⟨h.halting.phase, fun t ht hrole => ?_, fun i st hi => ?_,
    fun i hi => h.halting.begun i (hmono i hi)⟩, ?_⟩
  · rcases List.mem_append.mp ht with ht | ht
    · exact h.halting.cancelled t ht hrole
    · obtain rfl := List.mem_singleton.mp ht
      exact absurd hrole hquiet
  · rcases hat hi with hi | ⟨-, rfl⟩
    · exact h.halting.rebuild i st hi
    · exact hrebuild
  · rcases h.ends with ⟨k, hk, hs⟩ | hr
    · refine .inl ⟨k, hk, ?_, fun t ht hid => ?_⟩
      · obtain ⟨st, hi⟩ := At.of_mem_ids hs.live
        exact At.mem_ids (at_spawn.mpr (.inl hi))
      · rcases List.mem_append.mp ht with ht | ht
        · exact (hs.waits t ht hid).imp_right fun ⟨hst, hall⟩ => ⟨hst, fun i hi => hall i (hmono i hi)⟩
        · -- the new task has a number of its own
          obtain rfl := List.mem_singleton.mp ht
          have hlt := h.attended.called.numbered.lt _ hs.live
          rw [← hid] at hlt
          exact absurd hlt (Nat.lt_irrefl _)
    · exact .inr ⟨hr.1, fun i hi => hr.2 i (hmono i hi)⟩

/-- The task that stops the scheduler takes a turn, or another does. -/
theorem Closing.turn {n : Nat} (h : s.Closing stop)
    (hends : s.endsWorker b (.turn n) = true → s.running = none) :
    (s.step b (.turn n)).Closing stop := by
  have ha := h.attended.step hends
  cases h.attended.takes n hends with
  | idles turns hm _ _ =>
    refine h.spares ha fun only => .of_tasks only ?_ ?_ ?_ ?_ <;> rw [hm] <;> exact id
  | plays turns x t m hm ht hid hc htake hp _ =>
    have hacts := Acts.of_task? hc.numbered ht
    have hs : ∀ only, Spares only s.machine m := fun only => by
      rw [hm]
      exact .same rfl rfl rfl
    have hh := (hs none).halting h.halting
    have hmem := List.mem_of_find?_eq_some ht
    have hleaves := hp.leaves hc hacts hh fun hst => ⟨t.stage, ⟨t, hmem, rfl, rfl⟩, hst⟩
    rcases h.ends with ⟨i, hi, hstops⟩ | hrested
    · have hstops := (hs _).stops hstops
      by_cases hne : t.id = i
      · subst hne
        have hrs : m.scheduler.hasWorker = true →
            (m.take b x).scheduler.hasWorker = false → s.running.toList = [] := by
          intro hw hgone
          rw [← htake] at hgone
          rw [hm] at hw
          have hw : s.machine.scheduler.hasWorker = true := hw
          rw [hends (by rw [endsWorker, hw, hgone]; rfl)]
          rfl
        obtain ⟨hhalt, hend⟩ := hstops.take hc hh ht hrs
        exact ⟨ha, htake ▸ hhalt, hend.imp (fun hs => ⟨_, hi, htake ▸ hs⟩) fun hr => htake ▸ hr⟩
      · exact ⟨ha, hleaves.halting, .inl ⟨i, hi, hleaves.stops i hne hstops⟩⟩
    · exact ⟨ha, hleaves.halting, .inr (hleaves.rested ((hs none).rested hrested))⟩

/-- Every event but a start or a demand for a rebuild keeps a scheduler closing. -/
theorem Closing.step {e : Event σ} (h : s.Closing stop) (he : e.revives = false)
    (hends : s.endsWorker b e = true → s.running = none) : (s.step b e).Closing stop := by
  have ha := h.attended.step hends
  have hwake : ∀ i, (s.on (·.wake i none)).Attended →
      (∀ t ∈ s.machine.tasks, t.id = i → t.stage.role ≠ .stop ∨ ∀ j, ¬t.Awaits j) →
      (s.on (·.wake i none)).Closing stop := by
    intro i ha hfree
    have hs : Spares none s.machine (s.machine.wake i none) := spares_wake fun _ _ _ hi => by cases hi
    refine ⟨ha, hs.halting h.halting, h.ends.imp ?_ hs.rested⟩
    rintro ⟨k, hk, hstops⟩
    refine ⟨k, hk, ?_⟩
    refine (spares_wake fun t ht hi he => ?_ : Spares (some k) s.machine _).stops hstops
    have hid : t.id = k := hi.trans (Option.some.inj he)
    refine (hfree t ht hi).resolve_left fun hne => hne ?_
    rcases hstops.waits t ht hid with hst | ⟨hst, -⟩ <;> rw [hst] <;> rfl
  cases e with
  | change path =>
    refine h.spares ha fun only => ?_
    change Spares only s.machine (s.machine.noteChange b path)
    unfold noteChange
    dsimp only
    split
    · exact .of_tasks only rfl rfl (fun h => h) fun h => h
    · -- the path is collected, but no quiet time begins
      have hh : (s.machine.update (·.collect (Path.key s.machine.root path))).Halting :=
        ⟨h.halting.phase, h.halting.cancelled, h.halting.rebuild, h.halting.begun⟩
      rw [hh.restartQuiet]
      exact .of_tasks only rfl rfl (fun h => h) fun h => h
  | notices todo => apply h.spawn ha rfl <;> intro hr <;> cases hr
  | rebuild => cases he
  | idle deadline => apply h.spawn ha rfl <;> intro hr <;> cases hr
  | stop => apply h.spawn ha rfl <;> intro hr <;> cases hr
  | start => cases he
  | turn n => exact h.turn hends
  | pick =>
    rw [Scene.step] at ha ⊢
    split at ha
    · exact h.spares ha fun only => .same rfl rfl rfl
    · exact h
  | done =>
    rw [Scene.step] at ha ⊢
    split at ha
    · rename_i job hr
      refine h.spares ha fun only => spares_foldl_perform [job] ?_
      have hjobs := h.attended.called.job_not_awaits
      rw [hr] at hjobs
      exact fun x hx => hjobs x (List.mem_append_left _ hx)
    · exact h
  | timer n =>
    rw [Scene.step] at ha ⊢
    split at ha
    · rename_i x hx
      exact hwake _ ha fun t ht hid =>
        .inl (h.attended.timer_calls (List.mem_of_getElem? hx) t ht hid).2
    · exact h
  | answer id =>
    rw [Scene.step] at ha ⊢
    split at ha
    · rename_i hid
      rw [if_pos hid]
      refine hwake id ha fun t ht hi => .inr ?_
      rintro j ⟨ids, hw, -⟩
      rw [(h.attended.answer_waits hid).2 t ht hi] at hw
      cases hw
    · rename_i hid
      rw [if_neg hid]
      exact h
  | clock now => exact h.spares ha fun only => .same rfl rfl rfl
  | outside f => exact h.spares ha fun only => .same rfl rfl rfl

theorem Closing.runJoined {events : List (Event σ)} (h : s.Closing stop)
    (hevents : ∀ e ∈ events, e.revives = false) : (s.runJoined b events).Closing stop :=
  runJoined_keeps (fun _ e he hends h => h.step (he.elim (fun he => he ▸ rfl) (hevents e)) hends) h

/-- The stopping begins with a turn of its task. -/
theorem Attended.closing_step {n : Nat} {x : Turn} (h : s.Attended)
    (hx : s.machine.turns[n]? = some x) (hat : s.machine.At x.task .stop)
    (hrebuild : ∀ i st, s.machine.At i st → st.role ≠ .rebuild)
    (hbegun : ∀ i, s.machine.IsBegun i → s.machine.cycle = some i)
    (hends : s.endsWorker b (.turn n) = true → s.running = none) :
    (s.step b (.turn n)).Closing (some x.task) := by
  have ha := h.step hends
  have hc := h.called.erase hx
  have hends' : s.machine.scheduler.hasWorker = true →
      (s.step b (.turn n)).machine.scheduler.hasWorker = false → s.running.toList = [] := by
    intro hw hgone
    rw [hends (by rw [endsWorker, hw, hgone]; rfl)]
    rfl
  obtain ⟨t, ht⟩ := exists_task? (m := { s.machine with turns := s.machine.turns.eraseIdx n })
    hat.mem_ids
  have hid := task?_id ht
  have hst : t.stage = .stop :=
    hc.numbered.stage_unique (At.of_task? ht) (by rw [hid]; exact hat)
  have hacts := Acts.of_task? hc.numbered ht
  rw [hst] at hacts
  have hstep : (s.step b (.turn n)).machine =
      Machine.beginStop b t.id { s.machine with turns := s.machine.turns.eraseIdx n } := by
    rw [Scene.step, hx]
    change Machine.take b x _ = _
    rw [take_eq_continueFrom ht (by rw [hst]; rfl), hst]
    rfl
  rw [hstep] at hends'
  rw [← hid] at hc ⊢
  obtain ⟨hhalt, hend⟩ := halting_beginStop hc hacts hrebuild hbegun hends'
  exact ⟨ha, hstep ▸ hhalt, hend.imp (fun hs => ⟨_, rfl, hstep ▸ hs⟩) fun hr => hstep ▸ hr⟩

/-- The turn in which a stop begins leaves a scheduler that is closing, if there is no rebuild and nothing has
begun but the cycle that the stop waits for. -/
theorem Attended.closing {n : Nat} {x : Turn} (h : s.Attended)
    (hx : s.machine.turns[n]? = some x) (hat : s.machine.At x.task .stop)
    (hrebuild : ∀ i st, s.machine.At i st → st.role ≠ .rebuild)
    (hbegun : ∀ i, s.machine.IsBegun i → s.machine.cycle = some i) :
    (s.stepJoined b (.turn n)).Closing (some x.task) := by
  unfold Scene.stepJoined
  split
  · have hdone : (s.step b .done).Attended := h.step fun hends => by
      rw [not_endsWorker_done] at hends
      cases hends
    cases hr : s.running with
    | none =>
      -- there was no job to be done first
      have hsame : s.step b .done = s := by rw [Scene.step, hr]
      rw [hsame]
      exact h.closing_step hx hat hrebuild hbegun fun _ => hr
    | some job =>
      have hsame : s.step b .done = { machine := s.machine.perform b job, running := none } := by
        rw [Scene.step, hr]
      rw [hsame] at hdone ⊢
      refine hdone.closing_step ?_ (at_perform.mpr hat) (fun i st hi => hrebuild i st (at_perform.mp hi))
        (fun i hi => hbegun i (hi.mono at_perform.mp)) fun _ => rfl
      obtain ⟨hn, -⟩ := List.getElem?_eq_some_iff.mp hx
      exact (List.getElem?_append_left hn).trans hx
  · rename_i hends
    exact h.closing_step hx hat hrebuild hbegun fun hyes => absurd hyes hends

end Scene

end CodeIndex.Scheduler
