import CodeIndex.Proofs.Scheduler.Exclusion
import CodeIndex.Proofs.Scheduler.Stopping

/-!
# After a stop

The calls of the extractor and of the store are written down as they come.  At any time what the extractor
found is what the store was given, but for the jobs that are still to be done, and the questions without an
answer are those of the tasks that wait for one.  So when a scheduler has stopped, everything it asked for
was answered and everything that was found is stored; and no call comes after.
-/

namespace CodeIndex.Scheduler

open Machine

/-- A call of the extractor or of the store. -/
inductive Call where
  | asked (scan : Scan)
  | answered (scan : Scan) (answer : Except Trouble (List Record))
  | changed (work : Work)

namespace Call

def isAsked : Call → Bool
  | .asked _ => true
  | _ => false

def isAnswered : Call → Bool
  | .answered _ _ => true
  | _ => false

def found? : Call → Option Work
  | .answered scan (.ok records) => some (scan.work records)
  | _ => none

/-- What is stored: a purge only removes. -/
def stored? : Call → Option Work
  | .changed (.purge _) => none
  | .changed work => some work
  | _ => none

theorem found?_answered (scan : Scan) (records : List Record) :
    (answered scan (.ok records)).found? = some (scan.work records) := rfl

theorem stored?_work (scan : Scan) (records : List Record) :
    (changed (scan.work records)).stored? = some (scan.work records) := by
  cases scan <;> rfl

end Call

/-- What the extractor found, in order. -/
def found (calls : List Call) : List Work :=
  calls.filterMap Call.found?

/-- What the store was given, in order. -/
def stored (calls : List Call) : List Work :=
  calls.filterMap Call.stored?

structure Overheard (σ : Type) where
  world : σ
  calls : List Call := []

variable {σ : Type}

def Backend.overheard (b : Backend σ) : Backend (Overheard σ) where
  log e w := { w with world := b.log e w.world }
  isFile p w := b.isFile p w.world
  has p w := b.has p w.world
  ask scan w := { world := b.ask scan w.world, calls := w.calls ++ [.asked scan] }
  isOpen w := b.isOpen w.world
  answer scan w :=
    ((b.answer scan w.world).1,
      { world := (b.answer scan w.world).2
        calls := w.calls ++ [.answered scan (b.answer scan w.world).1] })
  perform work w :=
    ((b.perform work w.world).1,
      { world := (b.perform work w.world).2, calls := w.calls ++ [.changed work] })

def Machine.overheard (m : Machine σ) : Machine (Overheard σ) :=
  { m with world := { world := m.world } }

def Event.overheard (e : Event σ) : Event (Overheard σ) :=
  e.widened fun f w => { w with world := f w.world }

theorem Backend.shows_overheard (b : Backend σ) : b.overheard.Shows Overheard.world b :=
  ⟨fun _ _ => rfl, fun _ _ => rfl, fun _ _ => rfl, fun _ _ => rfl, fun _ => rfl, fun _ _ => rfl,
    fun _ _ => rfl⟩

theorem Scene.seen_stepJoined_overheard {b : Backend σ} {s : Scene (Overheard σ)} (e : Event σ) :
    (s.stepJoined b.overheard e.overheard).seen Overheard.world =
      (s.seen Overheard.world).stepJoined b e := by
  have hstep : ∀ (s : Scene (Overheard σ)) (e : Event σ),
      (s.step b.overheard e.overheard).seen Overheard.world = (s.seen Overheard.world).step b e :=
    fun s e => seen_step b.shows_overheard (fun _ _ => rfl) e
  have hends : (s.seen Overheard.world).endsWorker b e = s.endsWorker b.overheard e.overheard := by
    rw [endsWorker, ← hstep]
    rfl
  unfold stepJoined
  rw [hends]
  split
  · exact (hstep (s.step b.overheard .done) e).trans (congrArg (·.step b e) (hstep s .done))
  · exact hstep s e

/-- Writing the calls down changes nothing about what happens. -/
theorem Scene.seen_runJoined_overheard {b : Backend σ} {s : Scene (Overheard σ)}
    (events : List (Event σ)) :
    (s.runJoined b.overheard (events.map Event.overheard)).seen Overheard.world =
      (s.seen Overheard.world).runJoined b events := by
  unfold runJoined
  induction events generalizing s with
  | nil => rfl
  | cons e rest ih =>
    rw [List.map_cons, List.foldl_cons, List.foldl_cons, ih, seen_stepJoined_overheard]

theorem Event.revives_overheard (e : Event σ) : e.overheard.revives = e.revives := by
  cases e <;> rfl

theorem isBegun_of_isAsking {stage : Stage} (h : stage.isAsking = true) : stage.isBegun = true := by
  cases stage <;> first | rfl | cases h

namespace Machine

/-! ## Who asks -/

def posts (m : Machine σ) : List (TaskId × Stage) :=
  m.tasks.map fun t => (t.id, t.stage)

/-- The number of tasks that wait for an answer, but for the one whose turn it is. -/
def asking (m : Machine σ) (turn : Option TaskId) : Nat :=
  m.posts.countP fun p => some p.1 != turn && p.2.isAsking

section Posts

variable {m : Machine σ} {id i : TaskId} {stage : Stage} {turn : Option TaskId}

theorem posts_of_map {f : Task → Task} (hid : ∀ t, (f t).id = t.id)
    (hstage : ∀ t, (f t).stage = t.stage) (tasks : List Task) :
    ((tasks.map f).map fun t => (t.id, t.stage)) = tasks.map fun t => (t.id, t.stage) := by
  rw [List.map_map]
  exact List.map_congr_left fun t _ => Prod.ext (hid t) (hstage t)

theorem posts_wake {result : Option (Except Trouble Nat)} : (m.wake i result).posts = m.posts :=
  posts_of_map (fun t => by split <;> rfl) (fun t => by split <;> rfl) m.tasks

theorem posts_foldl_wake (tasks : List Task) :
    (tasks.foldl (fun m t => m.wake t.id none) m).posts = m.posts := by
  induction tasks generalizing m with
  | nil => rfl
  | cons t rest ih => exact ih.trans posts_wake

theorem posts_cancel : (m.cancel i).posts = m.posts := by
  have hmarked : ({ m with tasks := m.tasks.map fun t =>
      if t.id == i then { t with isCancelled := true } else t } : Machine σ).posts = m.posts :=
    posts_of_map (fun t => by split <;> rfl) (fun t => by split <;> rfl) m.tasks
  unfold cancel
  split
  · rfl
  · dsimp only
    split
    · exact hmarked
    · exact posts_wake.trans hmarked

theorem posts_without : (m.tasks.filter (·.id != id)).map (fun t => (t.id, t.stage)) =
    m.posts.filter (·.1 != id) := by
  rw [posts, List.filter_map]
  rfl

theorem posts_finish {outcome : Outcome} :
    (m.finish id outcome).posts = m.posts.filter (·.1 != id) := by
  unfold finish
  rw [posts_foldl_wake, posts, posts_of_map (told_id id) (told_stage id), posts_without]

theorem countP_without (posts : List (TaskId × Stage)) :
    ((posts.filter (·.1 != id)).countP fun p => some p.1 != none && p.2.isAsking) =
      posts.countP fun p => some p.1 != some id && p.2.isAsking := by
  rw [List.countP_filter]
  refine List.countP_congr fun p _ => ?_
  simp [and_comm]

theorem asking_finish {outcome : Outcome} :
    (m.finish id outcome).asking none = m.asking (some id) := by
  rw [asking, posts_finish, countP_without]
  rfl

theorem asking_suspend {wait : Wait} :
    (m.suspend id stage wait).asking none = m.asking (some id) + stage.isAsking.toNat := by
  have hposts : (m.suspend id stage wait).posts = m.posts.filter (·.1 != id) ++ [(id, stage)] := by
    rw [posts, suspend, List.map_append, posts_without]
    rfl
  rw [asking, hposts, List.countP_append, countP_without, List.countP_singleton]
  cases stage.isAsking <;> rfl

theorem asking_spawn (hstage : stage.isAsking = false) :
    (m.spawn stage).asking turn = m.asking turn := by
  have hposts : (m.spawn stage).posts = m.posts ++ [(m.created, stage)] := List.map_append
  rw [asking, hposts, List.countP_append, List.countP_singleton, hstage, Bool.and_false]
  rfl

theorem asking_restartQuiet : m.restartQuiet.asking turn = m.asking turn := by
  unfold restartQuiet
  split
  · rfl
  · dsimp only
    split
    · rename_i q _
      refine (asking_spawn (m := m.cancel q) rfl).trans ?_
      rw [asking, posts_cancel]
      rfl
    · exact asking_spawn rfl

theorem posts_foldl_perform {b : Backend σ} (jobs : List Job) :
    (jobs.foldl (fun m job => m.perform b job) m).posts = m.posts := by
  induction jobs generalizing m with
  | nil => rfl
  | cons job rest ih => exact ih.trans posts_wake

theorem posts_retire {b : Backend σ} : (m.retire b).posts = m.posts := by
  unfold retire
  split
  · exact posts_foldl_perform (m := { m with jobs := [] }) m.jobs
  · rfl

/-- The task whose turn it is asks or does not. -/
theorem asking_none (hn : m.Numbered) {t : Task} (ht : t ∈ m.tasks) :
    m.asking none = m.asking (some t.id) + t.stage.isAsking.toNat := by
  obtain ⟨before, after, htasks⟩ := List.append_of_mem ht
  have hnodup := hn.nodup
  rw [ids, htasks, List.map_append, List.map_cons, List.nodup_append', List.nodup_cons] at hnodup
  obtain ⟨-, ⟨hafter, -⟩, hdisjoint⟩ := hnodup
  have hothers : ∀ rest : List Task, t.id ∉ rest.map Task.id →
      (rest.map fun u => (u.id, u.stage)).countP (fun p => some p.1 != none && p.2.isAsking) =
        (rest.map fun u => (u.id, u.stage)).countP fun p => some p.1 != some t.id && p.2.isAsking := by
    intro rest hrest
    refine List.countP_congr fun p hp => ?_
    obtain ⟨u, hu, rfl⟩ := List.mem_map.mp hp
    have hne : u.id ≠ t.id := fun he => hrest (he ▸ List.mem_map_of_mem hu)
    simp [hne]
  have hbefore : t.id ∉ before.map Task.id := fun hmem => hdisjoint hmem List.mem_cons_self
  rw [asking, asking, posts, htasks, List.map_append, List.map_cons, List.countP_append,
    List.countP_append, List.countP_cons, List.countP_cons, hothers before hbefore, hothers after hafter]
  cases t.stage.isAsking
  · simp
  · simp
    omega

end Posts

/-! ## What is written down -/

section Balanced

variable {b : Backend σ} {m m' : Machine (Overheard σ)} {r : Option Job} {rs : List Job}
  {id : TaskId} {st : Stage} {asking : Nat}

/-- What was found is what was stored or is to be, and so many questions have no answer yet. -/
structure Balanced (m : Machine (Overheard σ)) (rs : List Job) (asking : Nat) : Prop where
  found : found m.world.calls =
    stored (m.world.calls ++ (rs ++ m.jobs).map fun job => .changed job.work)
  asked : m.world.calls.countP Call.isAsked = m.world.calls.countP Call.isAnswered + asking

theorem Balanced.congr (h : m.Balanced rs asking) (hcalls : m'.world.calls = m.world.calls)
    (hjobs : m'.jobs = m.jobs) : m'.Balanced rs asking :=
  ⟨by rw [hcalls, hjobs]; exact h.found, by rw [hcalls]; exact h.asked⟩

theorem calls_logged {w w' : Overheard σ} (h : Logged b.overheard w w') : w'.calls = w.calls :=
  h.eq fun _ _ => rfl

theorem calls_finish {outcome : Outcome} :
    (m.finish id outcome).world.calls = m.world.calls :=
  congrArg Overheard.calls (foldl_wake_frame _ _).1

theorem Balanced.perform {job : Job} (h : m.Balanced (job :: rs) asking) :
    (m.perform b.overheard job).Balanced rs asking := by
  have hcalls : (m.perform b.overheard job).world.calls = m.world.calls ++ [.changed job.work] := rfl
  refine ⟨?_, ?_⟩
  · have hfound := h.found
    rw [List.cons_append, List.map_cons] at hfound
    rw [hcalls, Scheduler.found, List.filterMap_append, List.append_assoc]
    exact (List.append_nil _).trans hfound
  · rw [hcalls, List.countP_append, List.countP_append]
    exact h.asked

theorem Balanced.foldl_perform (h : m.Balanced rs asking) :
    (rs.foldl (fun m job => m.perform b.overheard job) m).Balanced [] asking := by
  induction rs generalizing m with
  | nil => exact h
  | cons job rest ih => exact ih h.perform

theorem Balanced.retire (h : m.Balanced r.toList asking)
    (hr : m.scheduler.hasWorker = true → r = none) :
    (m.retire b.overheard).Balanced r.toList asking := by
  unfold Machine.retire
  split
  · rename_i hw
    obtain rfl := hr hw
    have htaken : ({ m with jobs := [] } : Machine (Overheard σ)).Balanced m.jobs asking := by
      refine ⟨?_, h.asked⟩
      rw [List.append_nil]
      exact h.found
    have hdone := htaken.foldl_perform (b := b)
    exact ⟨hdone.found, hdone.asked⟩
  · exact ⟨h.found, h.asked⟩

/-- A call that changes nothing is made, and jobs may be handed in: those that store what it found. -/
theorem Balanced.call {c : Call} {jobs : List Job} {asking' : Nat} (h : m.Balanced rs asking)
    (hcalls : m'.world.calls = m.world.calls ++ [c]) (hjobs : m'.jobs = m.jobs ++ jobs)
    (hstored : c.stored? = none)
    (hfound : c.found?.toList = stored (jobs.map fun job => .changed job.work))
    (hasked : asking + c.isAsked.toNat = asking' + c.isAnswered.toNat) : m'.Balanced rs asking' := by
  have hbooks := h.found
  unfold Scheduler.found stored at hbooks
  unfold stored at hfound
  refine ⟨?_, ?_⟩
  · unfold Scheduler.found stored
    rw [hcalls, hjobs, ← List.append_assoc rs, List.map_append]
    simp only [List.filterMap_append, List.filterMap_cons, List.filterMap_nil, hstored, hbooks,
      List.append_assoc, ← hfound]
    cases c.found? <;> rfl
  · have hcount := h.asked
    have hone : ∀ p : Call → Bool, [c].countP p = (p c).toNat := fun p => by
      rw [List.countP_singleton]
      cases p c <;> rfl
    rw [hcalls, List.countP_append, List.countP_append, hcount, hone, hone]
    omega

/-- The extractor is asked, and there is one answer more to come. -/
theorem Balanced.begins {scan : Scan} {w : Overheard σ} (hw : Logged b.overheard m.world w)
    (hidle : st.isAsking = false) (h : m.Balanced rs (m.asking (some id) + st.isAsking.toNat)) :
    (m.begun b.overheard scan w).Balanced rs
      ((m.begun b.overheard scan w).asking (some id) + scan.asking.isAsking.toNat) := by
  have hcalls : (m.begun b.overheard scan w).world.calls = m.world.calls ++ [.asked scan] :=
    congrArg (· ++ [Call.asked scan]) (calls_logged hw)
  refine h.call hcalls (List.append_nil _).symm rfl rfl ?_
  rw [hidle, isAsking_asking]
  rfl

/-- The extractor fails: an answer is there, and nothing is found. -/
theorem Balanced.fails {scan : Scan} {t : Trouble} {w : Overheard σ}
    (ha : b.overheard.answer scan m.world = (.error t, w))
    (h : m.Balanced rs (m.asking (some id) + scan.asking.isAsking.toNat)) :
    ({ m with world := w } : Machine (Overheard σ)).Balanced rs
      (m.asking (some id) + scan.storing.isAsking.toNat) := by
  obtain ⟨hanswer, rfl⟩ := Prod.mk.inj ha
  refine h.call rfl (List.append_nil _).symm rfl ?_ ?_
  · rw [show (b.answer scan m.world.world).1 = .error t from hanswer]
    rfl
  · rw [isAsking_asking, isAsking_storing]
    rfl

/-- The extractor answers: what is found is handed in to be stored. -/
theorem Balanced.hands {scan : Scan} {records : List Record} {w : Overheard σ}
    (ha : b.overheard.answer scan m.world = (.ok records, w))
    (h : m.Balanced rs (m.asking (some id) + scan.asking.isAsking.toNat)) :
    (submit id scan.storing (scan.work records) { m with world := w }).Balanced rs
      ((submit id scan.storing (scan.work records) { m with world := w }).asking none) := by
  obtain ⟨hanswer, rfl⟩ := Prod.mk.inj ha
  refine h.call rfl rfl rfl ?_ ?_
  · rw [show (b.answer scan m.world.world).1 = .ok records from hanswer, Call.found?_answered]
    change _ = List.filterMap _ [Call.changed (scan.work records)]
    rw [List.filterMap_cons, Call.stored?_work]
    rfl
  · have hnext : (m.suspend id scan.storing .job).asking none = _ := asking_suspend
    rw [isAsking_storing] at hnext
    rw [isAsking_asking]
    exact congrArg (· + 1) hnext.symm

theorem Balanced.suspends {next : Stage} (hnext : st.Becomes next)
    (h : m.Balanced rs (m.asking (some id) + st.isAsking.toNat)) (wait : Wait) :
    (m.suspend id next wait).Balanced rs ((m.suspend id next wait).asking none) := by
  have hasking : (m.suspend id next wait).asking none = _ := asking_suspend
  rw [hnext.asking] at hasking
  exact ⟨h.found, h.asked.trans (congrArg _ hasking.symm)⟩

/-- A purge is a job that stores nothing. -/
theorem Balanced.purges {next : Stage} {path : String} (hnext : st.Becomes next)
    (h : m.Balanced rs (m.asking (some id) + st.isAsking.toNat)) :
    (m.submit id next (.purge path)).Balanced rs ((m.submit id next (.purge path)).asking none) := by
  have hbooks : (m.suspend id next .job).Balanced rs ((m.suspend id next .job).asking none) :=
    h.suspends hnext .job
  refine ⟨?_, hbooks.asked⟩
  have hjobs : (m.submit id next (.purge path)).jobs =
      m.jobs ++ [{ task := id, work := .purge path }] := rfl
  rw [hjobs, ← List.append_assoc, List.map_append, ← List.append_assoc, stored,
    List.filterMap_append]
  exact h.found.trans (List.append_nil _).symm

/-- A turn keeps the books balanced. -/
theorem Plays.balanced (h : Plays b.overheard r id st m m')
    (hr : m.Balanced r.toList (m.asking (some id) + st.isAsking.toNat)) :
    m'.Balanced r.toList (m'.asking none) := by
  induction h with
  | notes f _ _ _ ih => exact ih (hr.congr rfl rfl)
  | logs level name members _ ih => exact ih (hr.congr rfl rfl)
  | @rearms st m m' _ ih =>
    have hx := Extends.restartQuiet b.overheard m
    refine ih ?_
    rw [asking_restartQuiet]
    exact hr.congr (calls_logged hx.world) hx.jobs
  | @cancels st m m' q _ _ ih =>
    have hx := Extends.cancel b.overheard q m
    refine ih ?_
    rw [Machine.asking, posts_cancel]
    exact hr.congr (calls_logged hx.world) hx.jobs
  | begins scan w hw hst _ _ ih =>
    -- neither a new cycle nor a new rebuild has asked yet
    exact ih (hr.begins hw (by rcases hst with ⟨rfl, -⟩ | rfl <;> rfl))
  | fails scan t w ha _ ih => exact ih (hr.fails ha)
  | @retires st m m' _ hnone _ ih =>
    -- the jobs that were to be done are, in their order
    refine ih ?_
    rw [Machine.asking, posts_retire]
    exact hr.retire hnone
  | hands scan records w ha => exact hr.hands ha
  | purges next path _ hnext _ => exact hr.purges hnext
  | waits next wait timers hnext _ _ =>
    have hbooks := hr.suspends hnext wait
    exact ⟨hbooks.found, hbooks.asked⟩
  | yields next hnext =>
    have hbooks := hr.suspends hnext .turn
    exact ⟨hbooks.found, hbooks.asked⟩
  | @hatches m _ =>
    have hspawn : ({ m.spawn .cycle with cycle := some m.created } : Machine (Overheard σ)).asking
        (some id) = m.asking (some id) := asking_spawn rfl
    unfold endQuiet
    rw [asking_finish, hspawn]
    exact hr.congr calls_finish jobs_finish
  | @ends st m outcome hst =>
    rw [asking_finish]
    rw [hst] at hr
    exact hr.congr calls_finish jobs_finish

/-- A turn that finds neither a worker nor anything begun makes no call. -/
theorem Plays.silent (h : Plays b.overheard r id st m m')
    (hworker : m.scheduler.hasWorker = false) (hphase : m.scheduler.phase.isHalted = true)
    (hrole : st.role ≠ .rebuild) (hbegun : st.isBegun = false) :
    m'.world.calls = m.world.calls := by
  induction h with
  | notes f hw hp _ ih => exact ih (hw.trans hworker) (hp hphase) hrole hbegun
  | logs level name members _ ih => exact ih hworker hphase hrole hbegun
  | @rearms st m m' _ ih =>
    have hs : m.restartQuiet.scheduler = m.scheduler := scheduler_restartQuiet
    rw [hs] at ih
    exact (ih hworker hphase hrole hbegun).trans (calls_logged (Extends.restartQuiet b.overheard m).world)
  | @cancels st m m' q _ _ ih =>
    have hs : (m.cancel q).scheduler = m.scheduler := scheduler_cancel
    rw [hs] at ih
    exact (ih hworker hphase hrole hbegun).trans (calls_logged (Extends.cancel b.overheard q m).world)
  | begins scan w _ hst _ _ _ =>
    rcases hst with ⟨-, ha⟩ | rfl
    · rw [not_accepts_of_isHalted hphase] at ha
      cases ha
    · exact absurd rfl hrole
  | fails scan t w _ _ _ =>
    rw [isBegun_asking] at hbegun
    cases hbegun
  | @retires st m m' _ _ _ ih =>
    have hcalls : (m.retire b.overheard).world.calls = m.world.calls := by
      unfold Machine.retire
      rw [if_neg (by rw [hworker]; nofun)]
      rfl
    exact (ih rfl rfl hrole hbegun).trans hcalls
  | hands scan records w _ =>
    rw [isBegun_asking] at hbegun
    cases hbegun
  | purges next path hw _ _ =>
    -- without a worker nothing is purged
    rw [hworker] at hw
    cases hw
  | waits next wait timers _ _ _ => rfl
  | yields next _ => rfl
  | hatches _ => exact calls_finish
  | ends outcome _ => exact calls_finish

end Balanced

end Machine

/-! ## Events -/

namespace Scene

variable {b : Backend σ} {s : Scene (Overheard σ)} {stop : Option TaskId}

def IsBalanced (s : Scene (Overheard σ)) : Prop :=
  s.machine.Balanced s.running.toList (s.machine.asking none)

theorem IsBalanced.congr {s' : Scene (Overheard σ)} (h : s.IsBalanced)
    (hcalls : s'.machine.world.calls = s.machine.world.calls)
    (hjobs : s'.running.toList ++ s'.machine.jobs = s.running.toList ++ s.machine.jobs)
    (hasking : s'.machine.asking none = s.machine.asking none) : s'.IsBalanced :=
  ⟨by rw [hcalls, hjobs]; exact h.found, by rw [hcalls, hasking]; exact h.asked⟩

theorem asking_wake {m : Machine (Overheard σ)} {i : TaskId}
    {result : Option (Except Trouble Nat)} : (m.wake i result).asking none = m.asking none := by
  rw [asking, posts_wake]
  rfl

theorem asking_noteChange (path : String) (m : Machine (Overheard σ)) :
    (m.noteChange b.overheard path).asking none = m.asking none := by
  unfold noteChange
  dsimp only
  split
  · rfl
  · exact asking_restartQuiet

/-- Every event keeps the books balanced.  Only a turn and the end of a job touch them. -/
theorem IsBalanced.step {e : Event σ} (h : s.IsBalanced) (ha : s.Attended)
    (hends : s.endsWorker b.overheard e.overheard = true → s.running = none) :
    (s.step b.overheard e.overheard).IsBalanced := by
  cases e with
  | change path =>
    have hx := Extends.noteChange b.overheard path s.machine
    exact h.congr (calls_logged hx.world) (congrArg _ hx.jobs) (asking_noteChange path _)
  | notices todo => exact h.congr rfl rfl (asking_spawn rfl)
  | rebuild => exact h.congr rfl rfl (asking_spawn rfl)
  | idle deadline => exact h.congr rfl rfl (asking_spawn rfl)
  | stop => exact h.congr rfl rfl (asking_spawn rfl)
  | start =>
    change IsBalanced { s with machine := s.machine.start b.overheard }
    unfold Machine.start
    split
    · exact h
    · exact h.congr rfl rfl rfl
  | turn n =>
    change IsBalanced (s.step b.overheard (.turn n))
    cases ha.takes n hends with
    | idles turns hm _ hr =>
      refine h.congr (by rw [hm]) (by rw [hr, hm]) ?_
      rw [hm]
      rfl
    | plays turns x t m hm ht _ hc _ hp hr =>
      have hturn : m.Balanced s.running.toList (m.asking (some t.id) + t.stage.isAsking.toNat) := by
        rw [← asking_none hc.numbered (List.mem_of_find?_eq_some ht), hm]
        exact ⟨h.found, h.asked⟩
      have hdone := hp.balanced hturn
      rw [← hr] at hdone
      exact hdone
  | pick =>
    change IsBalanced (s.step b.overheard .pick)
    rw [Scene.step]
    split
    · rename_i job rest hr hjobs
      refine h.congr rfl ?_ rfl
      rw [hr, hjobs]
      rfl
    · exact h
  | done =>
    change IsBalanced (s.step b.overheard .done)
    rw [Scene.step]
    split
    · rename_i job hr
      have hjob : s.machine.Balanced [job] (s.machine.asking none) := by
        unfold IsBalanced at h
        rw [hr] at h
        exact h
      have hdone := hjob.perform (b := b)
      have hasking : (s.machine.perform b.overheard job).asking none = s.machine.asking none :=
        congrArg (List.countP _) posts_wake
      rw [← hasking] at hdone
      exact hdone
    · exact h
  | timer n =>
    change IsBalanced (s.step b.overheard (.timer n))
    rw [Scene.step]
    split
    · exact h.congr rfl rfl asking_wake
    · exact h
  | answer id =>
    change IsBalanced (s.step b.overheard (.answer id))
    rw [Scene.step]
    split
    · exact h.congr rfl rfl asking_wake
    · exact h
  | clock now => exact h.congr rfl rfl rfl
  | outside f => exact h.congr rfl rfl rfl

/-- When the scheduler has stopped, the worker has no job and is given none. -/
theorem Closing.jobs (h : s.Closing none) : s.running.toList ++ s.machine.jobs = [] := by
  refine List.eq_nil_iff_forall_not_mem.mpr fun job hjob => ?_
  exact h.isRested.2 _ (h.attended.owned h.isRested.1 job hjob)

/-- Once the scheduler has stopped, no event by itself brings a further call. -/
theorem Closing.silent {e : Event σ} (h : s.Closing none)
    (hends : s.endsWorker b.overheard e.overheard = true → s.running = none) :
    (s.step b.overheard e.overheard).machine.world.calls = s.machine.world.calls := by
  cases e with
  | change path => exact calls_logged (Extends.noteChange b.overheard path s.machine).world
  | turn n =>
    change (s.step b.overheard (.turn n)).machine.world.calls = _
    cases h.attended.takes n hends with
    | idles turns hm _ _ => rw [hm]
    | plays turns x t m hm ht _ hc _ hp _ =>
      have hrested := h.isRested
      have hat : s.machine.At t.id t.stage := by
        have hat := At.of_task? ht
        rw [hm] at hat
        exact hat
      have hsilent := hp.silent (by rw [hm]; exact hrested.1) (by rw [hm]; exact h.halting.phase)
        (h.halting.rebuild _ _ hat)
        (Bool.eq_false_iff.mpr fun hst => hrested.2 t.id ⟨_, hat, hst⟩)
      rw [hm] at hsilent
      exact hsilent
  | start =>
    change (s.machine.start b.overheard).world.calls = _
    unfold Machine.start
    split <;> rfl
  | pick =>
    change (s.step b.overheard .pick).machine.world.calls = _
    rw [Scene.step]
    split <;> rfl
  | done =>
    change (s.step b.overheard .done).machine.world.calls = _
    rw [Scene.step]
    split
    · rename_i job hr
      have hnil := h.jobs
      rw [hr] at hnil
      cases hnil
    · rfl
  | timer n =>
    change (s.step b.overheard (.timer n)).machine.world.calls = _
    rw [Scene.step]
    split <;> rfl
  | answer id =>
    change (s.step b.overheard (.answer id)).machine.world.calls = _
    rw [Scene.step]
    split <;> rfl
  | _ => rfl

theorem exists_overheard {events : List (Event σ)} {e : Event (Overheard σ)}
    (he : e = .done ∨ e ∈ events.map Event.overheard) :
    ∃ e' : Event σ, e = e'.overheard ∧ (e' = .done ∨ e' ∈ events) := by
  rcases he with rfl | he
  · exact ⟨.done, rfl, .inl rfl⟩
  · obtain ⟨e', hmem, rfl⟩ := List.mem_map.mp he
    exact ⟨e', rfl, .inr hmem⟩

theorem IsBalanced.runJoined (h : s.IsBalanced) (ha : s.Attended) (events : List (Event σ)) :
    (s.runJoined b.overheard (events.map Event.overheard)).IsBalanced := by
  refine (runJoined_keeps (P := fun s => s.Attended ∧ s.IsBalanced)
    (fun s e he hends h => ⟨h.1.step hends, ?_⟩) ⟨ha, h⟩).2
  obtain ⟨e', rfl, -⟩ := exists_overheard he
  exact h.2.step h.1 hends

/-- A scheduler that has stopped stays so, and makes no call. -/
theorem Closing.silent_run (h : s.Closing none) {events : List (Event σ)}
    (hevents : ∀ e ∈ events, e.revives = false) :
    (s.runJoined b.overheard (events.map Event.overheard)).Closing none ∧
      (s.runJoined b.overheard (events.map Event.overheard)).machine.world.calls =
        s.machine.world.calls := by
  refine runJoined_keeps (P := fun s' => s'.Closing none ∧
    s'.machine.world.calls = s.machine.world.calls) (fun s' e he hends hs' => ?_) ⟨h, rfl⟩
  obtain ⟨e', rfl, he'⟩ := exists_overheard he
  have hrevives : e'.overheard.revives = false := by
    rw [Event.revives_overheard]
    exact he'.elim (fun hdone => hdone ▸ rfl) (hevents e')
  exact ⟨hs'.1.step hrevives hends, (hs'.1.silent hends).trans hs'.2⟩

end Scene

theorem Machine.IsNew.overheard {m : Machine σ} (h : m.IsNew) : m.overheard.IsNew :=
  ⟨⟨h.scheduler, h.tasks, h.turns, h.jobs, h.timers⟩, h.quiet⟩

/-- A scheduler is told to stop, whatever was under way but for rebuilds and for cycles other than the last
one.  When that has returned, all its questions were answered, all that was found is stored, and until it
is started again or a rebuild is demanded nothing has begun and no call is made, in any order of events. -/
theorem silent_after_stop (b : Backend σ) {m : Machine σ} (hm : m.IsNew)
    {before after : List (Event σ)} {n : Nat} {x : Turn} {s₀ s₁ : Scene (Overheard σ)}
    (h₀ : Scene.runJoined b.overheard ⟨m.overheard, none⟩ (before.map Event.overheard) = s₀)
    (hx : s₀.machine.turns[n]? = some x) (hstop : s₀.machine.At x.task .stop)
    (hrebuild : ∀ i st, s₀.machine.At i st → st.role ≠ .rebuild)
    (hbegun : ∀ i, s₀.machine.IsBegun i → s₀.machine.cycle = some i)
    (hafter : ∀ e ∈ after, e.revives = false)
    (h₁ : s₀.runJoined b.overheard ((Event.turn n :: after).map Event.overheard) = s₁)
    (hreturned : s₁.machine.isLive x.task = false) :
    found s₁.machine.world.calls = stored s₁.machine.world.calls ∧
      s₁.machine.world.calls.countP Call.isAsked = s₁.machine.world.calls.countP Call.isAnswered ∧
      ∀ later : List (Event σ), (∀ e ∈ later, e.revives = false) →
        (∀ i, ¬(s₁.runJoined b.overheard (later.map Event.overheard)).machine.IsBegun i) ∧
          (s₁.runJoined b.overheard (later.map Event.overheard)).machine.world.calls =
            s₁.machine.world.calls := by
  have hnew := Scene.attended_new hm.overheard
  have hfresh : Scene.IsBalanced ⟨m.overheard, none⟩ := by
    refine ⟨?_, ?_⟩
    · change _ = List.filterMap _ (_ ++ (_ ++ m.jobs).map _)
      rw [hm.jobs]
      rfl
    · change 0 = 0 + List.countP _ (m.tasks.map _)
      rw [hm.tasks]
      rfl
  have ha₀ : s₀.Attended := h₀ ▸ hnew.runJoined _
  have hr₀ : s₀.IsBalanced := h₀ ▸ hfresh.runJoined hnew before
  -- the stopping begins with the turn, goes on with whatever comes, and has ended when its task is gone
  have hclosing : (s₀.stepJoined b.overheard (.turn n)).Closing (some x.task) :=
    ha₀.closing hx hstop hrebuild hbegun
  have hclosed : s₁.Closing (some x.task) := by
    rw [← h₁]
    refine hclosing.runJoined fun e he => ?_
    obtain ⟨e', he', rfl⟩ := List.mem_map.mp he
    rw [Event.revives_overheard]
    exact hafter e' he'
  have hstopped : s₁.Closing none := by
    refine hclosed.rested fun hmem => ?_
    have hlive := (Option.filter_eq_some_iff.mp (liveOf_of_mem hmem)).2
    rw [hreturned] at hlive
    cases hlive
  have hr₁ : s₁.IsBalanced := h₁ ▸ hr₀.runJoined ha₀ _
  have hnobody : ∀ i, ¬s₁.machine.IsBegun i := hstopped.isRested.2
  refine ⟨?_, ?_, fun later hlater => ?_⟩
  · have hfound := hr₁.found
    rw [hstopped.jobs, List.map_nil, List.append_nil] at hfound
    exact hfound
  · have hzero : s₁.machine.asking none = 0 := by
      refine List.countP_eq_zero.mpr fun p hp hasking => ?_
      obtain ⟨t, ht, rfl⟩ := List.mem_map.mp hp
      rw [Bool.and_eq_true] at hasking
      exact hnobody t.id ⟨t.stage, ⟨t, ht, rfl, rfl⟩, isBegun_of_isAsking hasking.2⟩
    have hasked := hr₁.asked
    rw [hzero] at hasked
    exact hasked
  · obtain ⟨hlast, hcalls⟩ := hstopped.silent_run (b := b) hlater
    exact ⟨hlast.isRested.2, hcalls⟩

/-- What becomes of a machine that does nothing at once. -/
def overhear (events : List (Event Unit)) : Scene (Overheard Unit) :=
  Scene.runJoined bareBackend.overheard ⟨bareMachine.overheard, none⟩ (events.map Event.overheard)

/-- A cycle waits for the extractor with events deferred when the scheduler is told to stop. -/
def stoppedMidCycle : List (Event Unit) :=
  [.start, .change "a.ex", .turn 0, .timer 0, .turn 0, .turn 0, .change "b.ex",
    .notices [.delete "c.ex"], .turn 0, .stop]

/-- The cycle hears its answer, merges and drains before the scheduler has stopped. -/
def completed : Scene (Overheard Unit) :=
  (overhear stoppedMidCycle).runJoined bareBackend.overheard
    ([.turn 0, .answer 1, .turn 0, .pick, .done, .turn 0, .pick, .done, .turn 0, .turn 0].map
      Event.overheard)

theorem silent_after_stop_interrupted :
    ((overhear stoppedMidCycle).machine.isLive 1 = true ∧
      (found completed.machine.world.calls).length = 1) ∧
    found completed.machine.world.calls = stored completed.machine.world.calls ∧
      completed.machine.world.calls.countP Call.isAsked =
        completed.machine.world.calls.countP Call.isAnswered ∧
      ∀ later : List (Event Unit), (∀ e ∈ later, e.revives = false) →
        (∀ i, ¬(completed.runJoined bareBackend.overheard
            (later.map Event.overheard)).machine.IsBegun i) ∧
          (completed.runJoined bareBackend.overheard
              (later.map Event.overheard)).machine.world.calls = completed.machine.world.calls := by
  have hturn : (overhear stoppedMidCycle).machine.turns[0]?.map Turn.task = some 3 := by decide +kernel
  obtain ⟨x, hx, hid⟩ := Option.map_eq_some_iff.mp hturn
  have hstop : ((overhear stoppedMidCycle).machine.tasks.any fun t =>
      t.id == 3 && t.stage matches .stop) = true := by decide +kernel
  have hrebuild : ((overhear stoppedMidCycle).machine.tasks.all fun t =>
      t.stage.role != .rebuild) = true := by decide +kernel
  have hbegun : ((overhear stoppedMidCycle).machine.tasks.all fun t =>
      !t.stage.isBegun || (overhear stoppedMidCycle).machine.cycle == some t.id) = true := by
    decide +kernel
  rw [List.all_eq_true] at hrebuild hbegun
  obtain ⟨t, ht, hst⟩ := List.any_eq_true.mp hstop
  rw [Bool.and_eq_true, beq_iff_eq] at hst
  have hat : (overhear stoppedMidCycle).machine.At x.task .stop := by
    refine ⟨t, ht, hst.1.trans hid.symm, ?_⟩
    cases hstage : t.stage <;> rw [hstage] at hst <;> first | rfl | cases hst.2
  have hnew : bareMachine.IsNew := ⟨⟨rfl, rfl, rfl, rfl, rfl⟩, rfl⟩
  have hnone : ∀ i st, (overhear stoppedMidCycle).machine.At i st → st.role ≠ .rebuild := by
    rintro i st ⟨u, hu, -, rfl⟩
    exact bne_iff_ne.mp (hrebuild u hu)
  have hlast : ∀ i, (overhear stoppedMidCycle).machine.IsBegun i →
      (overhear stoppedMidCycle).machine.cycle = some i := by
    rintro i ⟨st, ⟨u, hu, rfl, rfl⟩, hbegan⟩
    have h := hbegun u hu
    rw [hbegan] at h
    exact beq_iff_eq.mp h
  have hreturned : completed.machine.isLive x.task = false := by
    rw [hid]
    decide +kernel
  exact ⟨⟨by decide +kernel, by decide +kernel⟩,
    silent_after_stop bareBackend hnew rfl hx hat hnone hlast (by decide) rfl hreturned⟩

/-- Two quiet times end before the first cycle has, so that the scheduler knows of the second cycle only;
and it is told to stop. -/
def forgotten : List (Event Unit) :=
  [.start, .change "a.ex", .turn 0, .timer 0, .turn 0, .change "b.ex", .turn 0, .turn 0, .timer 0,
    .turn 0, .turn 0, .stop, .turn 0]

/-- A rebuild waits for the extractor when the scheduler is told to stop. -/
def unawaited : List (Event Unit) :=
  [.start, .rebuild, .turn 0, .stop, .turn 0]

/-- A stop waits neither for a cycle that the scheduler has lost sight of nor for a rebuild: they store what
they find after it has returned. -/
theorem stored_after_stop :
    ((overhear forgotten).machine.scheduler.phase = .stopped ∧
      (overhear forgotten).machine.isLive 4 = false ∧
      (stored (overhear forgotten).machine.world.calls).length = 0 ∧
      (stored (overhear (forgotten ++ [.answer 1, .turn 0, .pick, .done])).machine.world.calls).length =
        1) ∧
    ((overhear unawaited).machine.scheduler.phase = .stopped ∧
      (overhear unawaited).machine.isLive 1 = false ∧
      (stored (overhear unawaited).machine.world.calls).length = 0 ∧
      (stored (overhear (unawaited ++ [.answer 0, .turn 0, .pick, .done])).machine.world.calls).length =
        1) := by
  decide +kernel

end CodeIndex.Scheduler
