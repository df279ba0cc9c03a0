import CodeIndex.Proofs.Scheduler.Holder
import CodeIndex.Proofs.Scheduler.Wider

/-!
# One cycle at a time

A holder asks the extractor once and has its answer before it goes on, so that calls of the extractor
never overlap; and the store is changed by the worker only, one job after another.  To say so, the calls
are metered.
-/

namespace CodeIndex.Scheduler

open Machine

/-- A world with a count of the extractor's calls in progress, the greatest count so far, and the changes
of the store, the last first. -/
structure Metered (σ : Type) where
  world : σ
  asking : Nat := 0
  most : Nat := 0
  changes : List Work := []

variable {σ : Type}

/-- A backend whose calls of the extractor and of the store are metered. -/
def Backend.metered (b : Backend σ) : Backend (Metered σ) where
  log e w := { w with world := b.log e w.world }
  isFile p w := b.isFile p w.world
  has p w := b.has p w.world
  ask scan w :=
    { w with world := b.ask scan w.world, asking := w.asking + 1, most := max w.most (w.asking + 1) }
  isOpen w := b.isOpen w.world
  answer scan w :=
    ((b.answer scan w.world).1, { w with world := (b.answer scan w.world).2, asking := w.asking - 1 })
  perform work w :=
    ((b.perform work w.world).1,
      { w with world := (b.perform work w.world).2, changes := work :: w.changes })

def Machine.metered (m : Machine σ) : Machine (Metered σ) :=
  { m with world := { world := m.world } }

def Event.metered : Event σ → Event (Metered σ)
  | .change path => .change path
  | .notices todo => .notices todo
  | .rebuild => .rebuild
  | .idle deadline => .idle deadline
  | .start => .start
  | .stop => .stop
  | .turn n => .turn n
  | .pick => .pick
  | .done => .done
  | .timer n => .timer n
  | .answer id => .answer id
  | .clock now => .clock now
  | .outside f => .outside fun w => { w with world := f w.world }

theorem Event.isStop_metered (e : Event σ) : e.metered.isStop = e.isStop := by
  cases e <;> rfl

theorem Backend.shows_metered (b : Backend σ) : b.metered.Shows Metered.world b :=
  ⟨fun _ _ => rfl, fun _ _ => rfl, fun _ _ => rfl, fun _ _ => rfl, fun _ => rfl, fun _ _ => rfl,
    fun _ _ => rfl⟩

theorem Scene.seen_step_metered {b : Backend σ} {s : Scene (Metered σ)} (e : Event σ) :
    (s.step b.metered e.metered).seen Metered.world = (s.seen Metered.world).step b e := by
  have he : e.metered = e.widened fun f w => { w with world := f w.world } := by
    cases e <;> rfl
  rw [he]
  exact seen_step b.shows_metered (fun _ _ => rfl) e

/-- Metering changes nothing about what happens. -/
theorem Scene.seen_run_metered {b : Backend σ} {s : Scene (Metered σ)} (events : List (Event σ)) :
    (s.run b.metered (events.map Event.metered)).seen Metered.world =
      (s.seen Metered.world).run b events := by
  induction events generalizing s with
  | nil => rfl
  | cons e rest ih => rw [List.map_cons, Scene.run_cons, Scene.run_cons, ih, seen_step_metered]

/-- What an event changes in the store: the work of the job that it ends. -/
def Scene.changedBy (s : Scene σ) : Event σ → List Work
  | .done => (s.running.map Job.work).toList
  | _ => []

/-- The number of the extractor's calls in progress, as the holder tells it. -/
def callsOf (h : Option (TaskId × Stage)) : Nat :=
  (h.filter (·.2.isAsking)).toList.length

/-- The meter is right about the calls in progress, and there never were two. -/
def Metered.IsRight (w : Metered σ) (h : Option (TaskId × Stage)) : Prop :=
  w.asking = callsOf h ∧ w.most ≤ 1

theorem callsOf_asking (id : TaskId) (scan : Scan) : callsOf (some (id, scan.asking)) = 1 := by
  rw [callsOf, Option.filter_some, if_pos (isAsking_asking scan)]
  rfl

theorem callsOf_storing (id : TaskId) (scan : Scan) : callsOf (some (id, scan.storing)) = 0 := by
  rw [callsOf, Option.filter_some, if_neg (by rw [isAsking_storing]; decide)]
  rfl

theorem Machine.Logged.meter {b : Backend σ} {w w' : Metered σ} (h : Logged b.metered w w') :
    w'.asking = w.asking ∧ w'.most = w.most ∧ w'.changes = w.changes :=
  ⟨h.eq fun _ _ => rfl, h.eq fun _ _ => rfl, h.eq fun _ _ => rfl⟩

theorem Metered.IsRight.ask {b : Backend σ} {w w' : Metered σ} {scan : Scan} {id : TaskId}
    (hw : w.IsRight none) (hl : Logged b.metered (b.metered.ask scan w) w') :
    w'.IsRight (some (id, scan.asking)) ∧ w'.changes = w.changes := by
  obtain ⟨ha, hm, hc⟩ := hl.meter
  have hzero : w.asking = 0 := hw.1
  refine ⟨⟨?_, ?_⟩, hc⟩
  · rw [ha, callsOf_asking]
    change w.asking + 1 = 1
    rw [hzero]
  · rw [hm]
    change max w.most (w.asking + 1) ≤ 1
    rw [hzero]
    exact Nat.max_le.mpr ⟨hw.2, Nat.le_refl 1⟩

theorem Metered.IsRight.answer {b : Backend σ} {w w₁ w' : Metered σ} {scan : Scan} {id : TaskId}
    {r : Except Trouble (List Record)} (hw : w.IsRight (some (id, scan.asking)))
    (hans : b.metered.answer scan w = (r, w₁)) (hl : Logged b.metered w₁ w') :
    w'.asking = 0 ∧ w'.most ≤ 1 ∧ w'.changes = w.changes := by
  obtain ⟨ha, hm, hc⟩ := hl.meter
  obtain ⟨-, rfl⟩ := Prod.mk.inj hans
  refine ⟨?_, hm ▸ hw.2, hc⟩
  have hone := hw.1
  rw [callsOf_asking] at hone
  rw [ha]
  change w.asking - 1 = 0
  rw [hone]

theorem Metered.IsRight.logged {b : Backend σ} {w w' : Metered σ} {h : Option (TaskId × Stage)}
    (hw : w.IsRight h) (hl : Logged b.metered w w') : w'.IsRight h ∧ w'.changes = w.changes := by
  obtain ⟨ha, hm, hc⟩ := hl.meter
  exact ⟨⟨ha.trans hw.1, hm ▸ hw.2⟩, hc⟩

theorem Machine.Passes.meter {b : Backend σ} {h h' : Option (TaskId × Stage)} {w w' : Metered σ}
    (hp : Passes b.metered h h' w w') (hw : w.IsRight h) :
    w'.IsRight h' ∧ w'.changes = w.changes := by
  induction hp with
  | leaves hl => exact hw.logged hl
  | asks hl hl' =>
    obtain ⟨hw₁, hc₁⟩ := hw.logged hl
    obtain ⟨hw', hc'⟩ := hw₁.ask hl'
    exact ⟨hw', hc'.trans hc₁⟩
  | answers hans hl =>
    obtain ⟨ha, hm, hc⟩ := hw.answer hans hl
    exact ⟨⟨ha.trans (callsOf_storing _ _).symm, hm⟩, hc⟩
  | fails hans hl =>
    obtain ⟨ha, hm, hc⟩ := hw.answer hans hl
    exact ⟨⟨ha, hm⟩, hc⟩
  | ends hl =>
    obtain ⟨hw', hc⟩ := hw.logged hl
    exact ⟨⟨hw'.1.trans (callsOf_storing _ _), hw'.2⟩, hc⟩
  | asksAndGoes hl hp ih =>
    obtain ⟨hw₁, hc₁⟩ := hw.logged hl
    obtain ⟨hw₂, hc₂⟩ := hw₁.ask (.refl _ _)
    obtain ⟨hw', hc'⟩ := ih hw₂
    exact ⟨hw', hc'.trans (hc₂.trans hc₁)⟩

/-- What holds of a metered scene at any time: there is at most one holder, and the meter agrees. -/
structure Exclusive (s : Scene (Metered σ)) : Prop where
  steady : s.machine.Steady
  holder : ∃ h, s.machine.Holder h ∧ s.machine.world.IsRight h

/-- One event keeps it, and changes the store only if it ends the worker's job. -/
theorem Exclusive.step {b : Backend σ} {s : Scene (Metered σ)} (hs : Exclusive s) (e : Event σ)
    (he : e.isStop = false) :
    Exclusive (s.step b.metered e.metered) ∧
      (s.step b.metered e.metered).machine.world.changes =
        s.changedBy e.metered ++ s.machine.world.changes := by
  obtain ⟨h, hh, hw⟩ := hs.holder
  have hsteps := Scene.steps_step (b := b.metered) hs.steady e.metered
  have hsteady := hsteps.steady hs.steady (e.isStop_metered.trans he)
  obtain ⟨h', hh', ⟨hdone, hp⟩ | ⟨rfl, f, hf, hworld⟩ | ⟨rfl, job, hdone, hjob, hworld⟩⟩ :=
    hsteps.holder hs.steady hh
  · -- no job is done: the store is left alone
    obtain ⟨hw', hc⟩ := hp.meter hw
    refine ⟨⟨hsteady, h', hh', hw'⟩, ?_⟩
    rw [hc]
    cases e with
    | done =>
      change _ = (s.running.map Job.work).toList ++ _
      rw [hdone rfl]
      rfl
    | _ => rfl
  · cases e with
    | outside g =>
      obtain rfl := Event.outside.inj hf
      refine ⟨⟨hsteady, h', hh', ?_⟩, ?_⟩
      · rw [hworld]
        exact hw
      · rw [hworld]
        rfl
    | _ => cases hf
  · refine ⟨⟨hsteady, h', hh', ?_⟩, ?_⟩
    · rw [hworld]
      exact hw
    · rw [hworld, hdone]
      change _ = (s.running.map Job.work).toList ++ _
      rw [hjob]
      rfl

theorem Exclusive.run {b : Backend σ} {s : Scene (Metered σ)} (hs : Exclusive s)
    {events : List (Event σ)} (hstop : ∀ e ∈ events, e.isStop = false) :
    Exclusive (s.run b.metered (events.map Event.metered)) := by
  unfold Scene.run
  induction events generalizing s with
  | nil => exact hs
  | cons e rest ih =>
    rw [List.forall_mem_cons] at hstop
    rw [List.map_cons, List.foldl_cons]
    exact ih (hs.step e hstop.1).1 hstop.2

theorem Machine.IsFresh.exclusive {b : Backend σ} {m : Machine σ} (h : m.IsFresh) :
    Exclusive { machine := m.metered.start b.metered } := by
  have hfresh : m.metered.IsFresh := ⟨h.scheduler, h.tasks, h.turns, h.jobs, h.timers⟩
  refine ⟨hfresh.steady_start, none, hfresh.holder_start, ?_, ?_⟩
  · rw [hfresh.start_eq]
    rfl
  · rw [hfresh.start_eq]
    exact Nat.zero_le 1

/-- In every order of events after the start and before a stop, at most one cycle or rebuild is under way,
and the flag is set exactly while one is; no two calls of the extractor were ever in progress together;
and the store is changed by nothing but the one job that the worker does at a time. -/
theorem one_at_a_time (b : Backend σ) {m : Machine σ} (hm : m.IsFresh) {events : List (Event σ)}
    (hstop : ∀ e ∈ events, e.isStop = false) :
    let s := Scene.run b.metered { machine := m.metered.start b.metered }
      (events.map Event.metered)
    (s.machine.tasks.filter (·.stage.isUnderWay)).length = s.machine.scheduler.isBusy.toNat ∧
      s.machine.world.most ≤ 1 ∧
      ∀ e : Event σ, e.isStop = false →
        (s.step b.metered e.metered).machine.world.changes =
          s.changedBy e.metered ++ s.machine.world.changes := by
  intro s
  have hs : Exclusive s := (hm.exclusive (b := b)).run hstop
  obtain ⟨h, hh, hw⟩ := hs.holder
  exact ⟨hh.length hs.steady.numbered, hw.2, fun e he => (hs.step e he).2⟩

/-- A world without files, whose extractor takes its time and finds nothing. -/
def bareBackend : Backend Unit where
  log _ w := w
  isFile _ _ := false
  has _ _ := false
  ask _ w := w
  isOpen _ := false
  answer _ w := (.ok [], w)
  perform _ w := (.ok 0, w)

def bareMachine : Machine Unit :=
  { world := (), root := Path.ofString "/p" }

/-- A cycle and two rebuilds that want to begin at once, with notices that come while one of them waits
for the store. -/
def contended : List (Event Unit) :=
  [.change "a.ex", .turn 0, .timer 0, .turn 0, .rebuild, .rebuild, .turn 1, .turn 0, .turn 0,
    .notices [.delete "b.ex", .either "c.ex"], .turn 0, .answer 3, .answer 2, .turn 0, .pick]

theorem one_at_a_time_contended :
    let s := Scene.run bareBackend.metered
      { machine := bareMachine.metered.start bareBackend.metered } (contended.map Event.metered)
    (s.machine.scheduler.isBusy = true ∧ s.machine.world.most = 1 ∧ s.running.isSome = true) ∧
      (s.machine.tasks.filter (·.stage.isUnderWay)).length = s.machine.scheduler.isBusy.toNat ∧
      s.machine.world.most ≤ 1 ∧
      ∀ e : Event Unit, e.isStop = false →
        (s.step bareBackend.metered e.metered).machine.world.changes =
          s.changedBy e.metered ++ s.machine.world.changes := by
  have hfresh : bareMachine.IsFresh := ⟨rfl, rfl, rfl, rfl, rfl⟩
  have hstop : ∀ e ∈ contended, e.isStop = false := by decide
  exact ⟨by decide +kernel, one_at_a_time bareBackend hfresh hstop⟩

end CodeIndex.Scheduler
