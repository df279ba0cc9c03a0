import CodeIndex.Proofs.Scheduler.Joining
import CodeIndex.Proofs.Scheduler.Purging

/-!
# When nothing is left to do

A caller may wait until nothing is left to do.  The wait looks at the last quiet time, at the last cycle, at
the flag, and at what is collected and deferred.  When it is answered, no quiet time runs, no cycle or
rebuild is under way, and what the scheduler was told is carried out or replaced by a later event of the
same path.  But the wait does not look at drains, at purges that were handed in, or at rebuilds that have
not begun: what those still hold may be left to do.
-/

namespace CodeIndex.Scheduler

variable {σ : Type}

def Operation.opposite : Operation → Operation
  | .change => .delete
  | .delete => .change

namespace Machine

variable {b : Backend σ} {m m' : Machine σ} {id : TaskId}

/-- No quiet time runs, no cycle or rebuild is under way, and nothing is collected or deferred. -/
structure IsResting (m : Machine σ) : Prop where
  quiet : ∀ t ∈ m.tasks, t.stage.role = .quiet → t.isCancelled = true
  calm : ∀ id, ¬m.IsUnderWay id
  isBusy : m.scheduler.isBusy = false
  pending : m.scheduler.pending = []
  deferred : m.scheduler.deferred = []

theorem isIdle_iff : m.isIdle = true ↔ m.liveOf m.quiet = none ∧ m.liveOf m.cycle = none ∧
    m.scheduler.isBusy = false ∧ m.scheduler.pending = [] ∧ m.scheduler.deferred = [] := by
  simp [isIdle, and_assoc]

/-- The flag is set while a cycle or a rebuild is under way, and any quiet time but the last was cancelled:
so the wait looks at all of them. -/
theorem Called.isResting {rs : List Job} {turn : Option TaskId} (hc : m.Called rs turn)
    (ho : m.Orderly) (h : m.isIdle = true) : m.IsResting := by
  obtain ⟨hquiet, -, hbusy, hpending, hdeferred⟩ := isIdle_iff.mp h
  refine ⟨hc.cancelled_of_quiet hquiet, fun id hunder => ?_, hbusy, hpending, hdeferred⟩
  obtain ⟨st, hh⟩ := ho.holder_of_isUnderWay hunder
  rw [hh.busy] at hbusy
  cases hbusy

theorem outcomes_finish {outcome : Outcome} :
    (m.finish id outcome).outcomes = m.outcomes ++ [(id, outcome)] := by
  have hwake : ∀ (tasks : List Task) (m : Machine σ),
      (tasks.foldl (fun m t => m.wake t.id none) m).outcomes = m.outcomes := by
    intro tasks
    induction tasks with
    | nil => exact fun _ => rfl
    | cons t rest ih => exact fun m => ih (m.wake t.id none)
  exact hwake _ _

/-- A wait says that nothing is left to do only if it sees nothing. -/
theorem isIdle_of_awaitIdle {deadline : Nat}
    (h : (m.awaitIdle id deadline).outcomes = m.outcomes ++ [(id, .flag true)]) :
    m.isIdle = true := by
  by_contra hnot
  rw [awaitIdle, if_neg hnot] at h
  split at h
  · rw [outcomes_finish] at h
    simp at h
  · split at h
    · simp [sleep, suspend] at h
    · simp [awaitEnds, suspend] at h

end Machine

open Machine

namespace Scene

variable {b : Backend σ} {s : Scene σ} {n : Nat} {p : String}

/-- With one of the turns a wait ends, and its answer is that nothing is left to do. -/
def IsAnswered (b : Backend σ) (s : Scene σ) (n : Nat) : Prop :=
  ∃ turn deadline, s.machine.turns[n]? = some turn ∧ s.machine.At turn.task (.idle deadline) ∧
    (s.step b (.turn n)).machine.outcomes = s.machine.outcomes ++ [(turn.task, .flag true)]

theorem IsAnswered.isIdle (h : s.IsAnswered b n) (hn : s.machine.Numbered) :
    s.machine.isIdle = true := by
  obtain ⟨turn, deadline, hturn, ⟨t, ht, hid, hst⟩, houtcomes⟩ := h
  have htask : (s.machine.without n).task? turn.task = some t := hid ▸ hn.task?_of_mem ht
  have htake : (s.machine.without n).take b turn =
      (s.machine.without n).awaitIdle t.id deadline := by
    rw [take, htask]
    dsimp only
    rw [hst, if_neg (by simp [endsEarly])]
    rfl
  rw [step, hturn] at houtcomes
  change ((s.machine.without n).take b turn).outcomes = _ at houtcomes
  rw [htake, ← hid] at houtcomes
  exact isIdle_of_awaitIdle (m := s.machine.without n) houtcomes

/-- An event of a path is carried out in a run: the extractor is asked for the path, or the store purges
it. -/
def CarriesOut (b : Backend σ) (s : Scene σ) (events : List (Event σ)) (p : String) :
    Operation → Prop
  | .change => ∃ scan ∈ s.asked b events, p ∈ scan.scope
  | .delete => .purge p ∈ s.changed b events

/-- An event of a path is still in the hands of a drain, or it is a deletion and the purge in those of the
worker. -/
inductive IsInHand (s : Scene σ) (p : String) : Operation → Prop where
  | held {op} (i : TaskId) (path : String) (rest : List (String × Operation)) (ending : Ending)
      (hat : s.machine.At i (.drained path rest ending)) (h : (p, op) ∈ rest) : IsInHand s p op
  | handed (job : Job) (hjob : job ∈ s.running.toList ++ s.machine.jobs) (h : job.work = .purge p) :
      IsInHand s p .delete

/-- Nothing is in hand when no drain goes on and no job is to be done. -/
theorem not_isInHand {op : Operation} (hdrains : ∀ t ∈ s.machine.tasks, t.stage.isDrain = false)
    (hjobs : s.running.toList ++ s.machine.jobs = []) : ¬s.IsInHand p op := by
  intro h
  cases h with
  | held i path rest ending hat h =>
    obtain ⟨t, ht, -, hst⟩ := hat
    have hdrain := hdrains t ht
    rw [hst] at hdrain
    cases hdrain
  | handed job hjob h =>
    rw [hjobs] at hjob
    cases hjob

theorem isInHand_of_remembers (hs : s.machine.IsResting) (h : s.machine.Remembers p) :
    s.IsInHand p .change := by
  cases h with
  | pending h => simp [hs.pending] at h
  | deferred h => simp [hs.deferred] at h
  | drained i path rest ending hat h => exact .held i path rest ending hat h

theorem isInHand_of_discards (hs : s.machine.IsResting) (h : s.Discards p) :
    s.IsInHand p .delete := by
  rcases h with h | ⟨job, hr, h⟩
  · cases h with
    | deferred h => simp [hs.deferred] at h
    | drained i path rest ending hat h => exact .held i path rest ending hat h
    | handed job hjob h => exact .handed job (List.mem_append_right _ hjob) h
  · exact .handed job (by simp [hr]) h

/-- What was told is carried out, replaced or in hand, once nothing is collected or deferred. -/
theorem carriesOut_or_isInHand {after : List (Event σ)} {e : Event σ} {op : Operation}
    {earlier later : List (String × Operation)} (hs : s.machine.Orderly) (he : e.isStop = false)
    (hstop : ∀ e ∈ after, e.isStop = false)
    (htold : s.tells b e = earlier ++ (p, op) :: later)
    (hrest : ((s.step b e).run b after).machine.IsResting) :
    (s.step b e).CarriesOut b after p op ∨
      (p, op.opposite) ∈ later ++ (s.step b e).told b after ∨
      ((s.step b e).run b after).IsInHand p op := by
  have hsteady := (orderly_step (b := b) hs he).steady
  cases op with
  | change =>
    rcases remembers_of_tells hs.steady htold with h | h
    · rcases remembers_run hsteady hstop h with h | h | h
      · exact .inr (.inr (isInHand_of_remembers hrest h))
      · exact .inl h
      · exact .inr (.inl (List.mem_append_right _ h))
    · exact .inr (.inl (List.mem_append_left _ h))
  | delete =>
    rcases discards_of_tells hs.steady htold with h | h
    · rcases discards_run hsteady hstop h with h | h | h
      · exact .inr (.inr (isInHand_of_discards hrest h))
      · exact .inl h
      · exact .inr (.inl (List.mem_append_right _ h))
    · exact .inr (.inl (List.mem_append_left _ h))

/-- A scheduler that is not told to stop keeps its worker. -/
theorem attended_run {events : List (Event σ)} (ha : s.Attended) (hs : s.machine.Steady)
    (hstop : ∀ e ∈ events, e.isStop = false) : (s.run b events).Attended := by
  induction events generalizing s with
  | nil => exact ha
  | cons e rest ih =>
    rw [List.forall_mem_cons] at hstop
    have hs' := (steps_step (b := b) hs e).steady hs hstop.1
    refine ih (ha.step fun hends => ?_) hs' hstop.2
    rw [endsWorker, hasWorker_of_accepts hs'.accepts, Bool.not_true, Bool.and_false] at hends
    cases hends

theorem attended_start {m : Machine σ} (hm : m.IsNew) :
    ({ machine := m.start b } : Scene σ).Attended :=
  (attended_new hm).step (e := .start) fun _ => rfl

end Scene

/-- In every order of events after the start and before a stop: when a wait is answered that nothing is left
to do, no quiet time runs, no cycle or rebuild is under way, and nothing is collected or deferred; and every
event of a path that the scheduler was told is carried out, unless the opposite was told of the path since,
or a drain or the worker has it in hand. -/
theorem carried_out_of_idle (b : Backend σ) {m : Machine σ} (hm : m.IsNew) {events : List (Event σ)}
    (hstop : ∀ e ∈ events, e.isStop = false) {n : Nat} :
    let start : Scene σ := { machine := m.start b }
    let s := start.run b events
    s.IsAnswered b n →
    s.machine.IsResting ∧
      ∀ before e after, events = before ++ e :: after →
        ∀ path op earlier later,
          (start.run b before).tells b e = earlier ++ (path, op) :: later →
          let told := (start.run b before).step b e
          told.CarriesOut b after path op ∨ (path, op.opposite) ∈ later ++ told.told b after ∨
            s.IsInHand path op := by
  intro start s hanswered
  have hstart : start.machine.Orderly := hm.toIsFresh.orderly_start
  have horderly : s.machine.Orderly := Scene.orderly_run hstart hstop
  have hattended : s.Attended :=
    Scene.attended_run (Scene.attended_start hm) hstart.steady hstop
  have hresting : s.machine.IsResting :=
    hattended.called.isResting horderly (hanswered.isIdle horderly.steady.numbered)
  refine ⟨hresting, ?_⟩
  rintro before e after rfl path op earlier later htold told
  rw [List.forall_mem_append, List.forall_mem_cons] at hstop
  have hs : s = told.run b after := by
    rw [← Scene.run_cons, ← Scene.run_append]
  rw [hs] at hresting ⊢
  exact Scene.carriesOut_or_isInHand (Scene.orderly_run hstart hstop.1) hstop.2.1 hstop.2.2 htold
    hresting

def bareScene (events : List (Event Unit)) : Scene Unit :=
  Scene.run bareBackend { machine := bareMachine.start bareBackend } events

/-- A path is deleted while a cycle runs, and all is done when a wait comes. -/
def tidied : List (Event Unit) :=
  [.change "a.ex", .turn 0, .timer 0, .turn 0, .turn 0, .notices [.delete "b.ex"], .turn 0, .answer 1,
    .turn 0, .pick, .done, .turn 0, .pick, .done, .turn 0, .idle 1000]

theorem carried_out_of_tidied :
    (bareScene tidied).IsAnswered bareBackend 0 ∧ (bareScene tidied).machine.IsResting ∧
      (bareScene (tidied.take 1)).CarriesOut bareBackend (tidied.drop 1) "a.ex" .change ∧
      (bareScene (tidied.take 7)).CarriesOut bareBackend (tidied.drop 7) "b.ex" .delete := by
  have hnew : bareMachine.IsNew := ⟨⟨rfl, rfl, rfl, rfl, rfl⟩, rfl⟩
  have hstop : ∀ e ∈ tidied, e.isStop = false := by decide
  have hanswered : (bareScene tidied).IsAnswered bareBackend 0 :=
    ⟨{ task := 3 }, 1000, rfl, ⟨_, .head _, rfl, rfl⟩, rfl⟩
  obtain ⟨hresting, htold⟩ := carried_out_of_idle bareBackend hnew hstop hanswered
  have hnone : ∀ p op, ¬(bareScene tidied).IsInHand p op := fun p op =>
    Scene.not_isInHand (by decide +kernel) rfl
  refine ⟨hanswered, hresting, ?_, ?_⟩
  · have hchange := htold [] (.change "a.ex") (tidied.drop 1) rfl "a.ex" .change [] []
      (by decide +kernel)
    refine hchange.resolve_right fun h => ?_
    have hopposite := h.resolve_right (hnone _ _)
    revert hopposite
    decide +kernel
  · have hdelete := htold (tidied.take 6) (.turn 0) (tidied.drop 7) rfl "b.ex" .delete [] []
      (by decide +kernel)
    refine hdelete.resolve_right fun h => ?_
    have hopposite := h.resolve_right (hnone _ _)
    revert hopposite
    decide +kernel

/-- The drain of a rebuild waits for a purge, and further events are still held by it, when a wait comes. -/
def halfDrained : List (Event Unit) :=
  [.rebuild, .turn 0, .notices [.delete "a.ex", .delete "b.ex", .change "c.ex"], .turn 0, .answer 0,
    .turn 0, .pick, .done, .turn 0, .idle 1000]

/-- One rebuild is over, and another one sleeps until it looks again whether it may begin, when a wait
comes. -/
def queuedUp : List (Event Unit) :=
  [.rebuild, .rebuild, .turn 0, .turn 0, .answer 0, .turn 0, .pick, .done, .turn 0, .idle 1000]

/-- A wait can be answered that nothing is left to do while a drain holds a deletion that the store has yet
to purge and a change that has yet to be extracted, or while a rebuild waits that is then still to scan all
files. -/
theorem idle_before_done :
    let after := [.turn 0, .pick, .done, .turn 0, .pick, .done, .turn 0, .turn 0, .timer 0, .turn 0,
      .turn 0]
    ((bareScene halfDrained).IsAnswered bareBackend 0 ∧
      (bareScene halfDrained).IsInHand "b.ex" .delete ∧
      (bareScene halfDrained).IsInHand "c.ex" .change ∧
      (bareScene halfDrained).changed bareBackend after = [.purge "a.ex", .purge "b.ex"] ∧
      (bareScene halfDrained).asked bareBackend after = [.paths ["c.ex"]]) ∧
    (bareScene queuedUp).IsAnswered bareBackend 0 ∧ (bareScene queuedUp).machine.At 1 .rebuild ∧
      (bareScene queuedUp).asked bareBackend [.turn 0, .timer 0, .turn 0] = [.all] := by
  have hdrain : (bareScene halfDrained).machine.At 0
      (.drained "a.ex" [("b.ex", .delete), ("c.ex", .change)] (.rebuild (.ok 0))) :=
    ⟨_, .head _, rfl, rfl⟩
  refine ⟨⟨⟨{ task := 2 }, 1000, rfl, ⟨_, .tail _ (.head _), rfl, rfl⟩, rfl⟩, ?_, ?_, rfl, ?_⟩,
    ⟨{ task := 2 }, 1000, rfl, ⟨_, .tail _ (.head _), rfl, rfl⟩, rfl⟩, ⟨_, .head _, rfl, rfl⟩, ?_⟩
  · exact .held 0 _ _ _ hdrain List.mem_cons_self
  · exact .held 0 _ _ _ hdrain (List.mem_cons_of_mem _ List.mem_cons_self)
  · decide +kernel
  · decide +kernel

end CodeIndex.Scheduler
