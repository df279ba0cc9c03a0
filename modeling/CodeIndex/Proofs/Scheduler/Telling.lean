import CodeIndex.Proofs.Scheduler.Steady

/-!
# What the scheduler is told and what it asks

The events of paths that notices amount to, one after another as they are given, and the scans that the
extractor is asked for.  The latter are seen by a backend that keeps record of them; a cycle or a rebuild
that begins is on record with its scan.
-/

namespace CodeIndex.Scheduler

/-- A world with a record of the scans that the extractor was asked for, the last first. -/
structure Recorded (σ : Type) where
  world : σ
  asked : List Scan := []

variable {σ : Type}

def Backend.recorded (b : Backend σ) : Backend (Recorded σ) where
  log e w := { w with world := b.log e w.world }
  isFile p w := b.isFile p w.world
  has p w := b.has p w.world
  ask scan w := { world := b.ask scan w.world, asked := scan :: w.asked }
  isOpen w := b.isOpen w.world
  answer scan w := ((b.answer scan w.world).1, { w with world := (b.answer scan w.world).2 })
  perform work w := ((b.perform work w.world).1, { w with world := (b.perform work w.world).2 })

namespace Machine

variable {b : Backend σ} {m m' : Machine σ} {id : TaskId} {stage : Stage} {next : Option Stage}
  {work : Option Work} {p : String}

def recorded (m : Machine σ) : Machine (Recorded σ) :=
  { m with world := { world := m.world } }

/-- A machine without one of its turns. -/
def without (n : Nat) (m : Machine σ) : Machine σ :=
  { m with turns := m.turns.eraseIdx n }

/-- The scans that the extractor is asked for in a turn. -/
def asks (b : Backend σ) (turn : Turn) (m : Machine σ) : List Scan :=
  (m.recorded.take b.recorded turn).world.asked

/-- The events of paths that the scheduler is told when a task goes on from a stage. -/
def toldFrom (b : Backend σ) (result : Option (Except Trouble Nat)) (m : Machine σ) :
    Stage → List (String × Operation)
  | .notices todo .finish => told b todo m
  | .purged path todo .finish => told b todo (m.notePurge b path result)
  | _ => []

/-- The events of paths that the scheduler is told in a turn. -/
def tells (b : Backend σ) (turn : Turn) (m : Machine σ) : List (String × Operation) :=
  match m.task? turn.task with
  | none => []
  | some t => m.toldFrom b turn.result t.stage

end Machine

namespace Scene

/-- The events of paths that the scheduler is told with an event of the scene. -/
def tells (b : Backend σ) (s : Scene σ) : Event σ → List (String × Operation)
  | .change path => [(Path.key s.machine.root path, .change)]
  | .turn n =>
    match s.machine.turns[n]? with
    | none => []
    | some turn => (s.machine.without n).tells b turn
  | _ => []

/-- The scans that the extractor is asked for with an event of the scene. -/
def asks (b : Backend σ) (s : Scene σ) : Event σ → List Scan
  | .turn n =>
    match s.machine.turns[n]? with
    | none => []
    | some turn => (s.machine.without n).asks b turn
  | _ => []

/-- The events of paths that the scheduler is told in a run. -/
def told (b : Backend σ) (s : Scene σ) : List (Event σ) → List (String × Operation)
  | [] => []
  | e :: rest => s.tells b e ++ (s.step b e).told b rest

/-- The scans that the extractor is asked for in a run. -/
def asked (b : Backend σ) (s : Scene σ) : List (Event σ) → List Scan
  | [] => []
  | e :: rest => s.asks b e ++ (s.step b e).asked b rest

end Scene

theorem Begins.unique {s : Scheduler} {stage : Stage} {scan scan' : Scan} (h : Begins s stage scan)
    (h' : Begins s stage scan') : scan = scan' := by
  cases h <;> cases h' <;> rfl

namespace Machine

variable {b : Backend σ} {m m' : Machine σ} {id : TaskId} {stage : Stage}

/-! ## What a turn asks -/

theorem Logged.asked {w w' : Recorded σ} (h : Logged b.recorded w w') : w'.asked = w.asked :=
  h.eq fun _ _ => rfl

theorem Drains.asked {m m' : Machine (Recorded σ)} {ending : Ending}
    {rest : List (String × Operation)} (hd : Drains b.recorded id ending rest m m') :
    m'.world.asked = m.world.asked := by
  cases hd with
  | purge changed path rest' hrest hs hm => exact hm.world.asked
  | finish changed hrest hs hm => exact hm.world.asked

theorem Hears.asked {m m' : Machine (Recorded σ)} {scan : Scan}
    (hh : Hears b.recorded id scan m m') : m'.world.asked = m.world.asked := by
  cases hh with
  | answered records w ha hs hm =>
    obtain ⟨-, rfl⟩ := Prod.mk.inj ha
    exact hm.world.asked
  | failed t w ha hc =>
    obtain ⟨-, rfl⟩ := Prod.mk.inj ha
    obtain ⟨ending, hd⟩ := hc
    exact hd.asked

/-- What a cycle or a rebuild begins with is on record. -/
theorem Goes.mem_asked {m m' : Machine (Recorded σ)} {scan : Scan}
    (hg : Goes b.recorded id stage m m') (hb : Begins m.scheduler stage scan)
    (hidle : m.scheduler.isBusy = false) : scan ∈ m'.world.asked := by
  cases hg with
  | rests hr hs hm =>
    cases hb with
    | cycle hp =>
      cases hr with
      | cycle h => exact absurd (h.resolve_left hp) (by rw [hidle]; decide)
    | rebuild =>
      cases hr with
      | rebuild h => exact absurd h (by rw [hidle]; decide)
  | asks scan' w hb' hidle' hw hs hm =>
    rw [hm.world.asked, hb.unique hb']
    exact List.mem_cons_self
  | asksAndHears scan' w hb' hidle' hw hg =>
    rw [hg.asked, hb.unique hb']
    exact List.mem_cons_self
  | hears scan' hg => cases scan' <;> cases hb
  | stored scan' hc => cases scan' <;> cases hb
  | drains hd => cases hb
  | notifies hst hg hgiven => cases hb <;> cases hst

theorem mem_asks (hs : m.Steady) {turn : Turn} {t : Task} {scan : Scan}
    (ht : m.task? turn.task = some t) (hb : Begins m.scheduler t.stage scan)
    (hidle : m.scheduler.isBusy = false) : scan ∈ m.asks b turn := by
  have hn : m.recorded.Numbered := ⟨hs.numbered.nodup, hs.numbered.lt⟩
  obtain ⟨hnone, -⟩ | ⟨t', ht', hg⟩ :=
    goes_of_take (b := b.recorded) (m := m.recorded) hn hs.accepts hs.plain turn
  · rw [show m.recorded.task? turn.task = m.task? turn.task from rfl, ht] at hnone
    cases hnone
  · rw [show m.recorded.task? turn.task = m.task? turn.task from rfl, ht] at ht'
    cases ht'
    exact hg.mem_asked hb hidle

/-! ## What a turn tells -/

theorem toldFrom_eq_nil (hst : isNotifying stage = false) (result : Option (Except Trouble Nat)) :
    m.toldFrom b result stage = [] := by
  cases stage <;> first | rfl | cases hst

/-- A turn of a task that gives notices gives those that its stage holds. -/
theorem notifies_of_take (hs : m.Steady) {turn : Turn} {t : Task} (ht : m.task? turn.task = some t)
    (hst : isNotifying t.stage = true) :
    Notifies b t.id (m.toldFrom b turn.result t.stage) m (m.take b turn) := by
  have hat := At.of_task? ht
  have hid := hs.numbered.at_lt hat
  have hw := hasWorker_of_accepts hs.accepts
  have hplain := hs.plain _ _ hat
  unfold take
  rw [ht]
  dsimp only
  cases hstage : t.stage with
  | notices todo follow =>
    rw [hstage] at hplain
    cases follow with
    | watch => cases hplain
    | finish =>
      rw [if_neg (by simp [endsEarly])]
      exact notifies hs.numbered hid hw todo
  | purged path todo follow =>
    rw [hstage] at hplain
    cases follow with
    | watch => cases hplain
    | finish =>
      rw [if_neg (by simp [endsEarly])]
      have hx := Extends.notePurge b path turn.result m
      have hmem := memory_notePurge (b := b) (m := m) path turn.result
      have hw' : (m.notePurge b path turn.result).scheduler.memory.hasWorker = true := by
        rw [hmem]
        exact hw
      exact (notifies (hx.numbered hs.numbered) (Nat.lt_of_lt_of_le hid hx.created) hw' todo).extend
        hx hmem
  | _ => rw [hstage] at hst; cases hst

theorem Notifies.moves {given : List (String × Operation)} (h : Notifies b id given m m') :
    m'.scheduler.memory = given.foldl hear m.scheduler.memory ∧
      ∃ next work, Moves b id next work m m' := by
  cases h with
  | purge before path todo hbusy hgiven hbefore hs hm => exact ⟨hs, _, _, hm⟩
  | finish hgiven hs hm => exact ⟨hs, _, _, hm⟩

end Machine

end CodeIndex.Scheduler
