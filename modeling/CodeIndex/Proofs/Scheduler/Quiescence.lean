import CodeIndex.Proofs.Scheduler.Desk
import CodeIndex.Proofs.Scheduler.Draining

/-!
# The last event wins

Whatever the order of events, a path is up to date when nothing is left to be done.  Two things have to be
granted for that.  No identity may occur in two files, since the store keeps one row for an identity, and
the file that was stored last has it.  And a drain that still holds a deletion must not be overtaken by
records of the same file.
-/

namespace CodeIndex.Scheduler

open Store (Tables Files Reads Lockstep)

namespace Machine

variable {σ : Type} {b : Backend σ} {v : View σ} {m m' : Machine σ} {t : Tables} {id : TaskId}
  {stage : Stage} {reported : Set String}

theorem Settling.hears (hs : Settling v m t reported) (hb : b.IsFaithful v) {scan : Scan}
    (hat : m.At id scan.asking) (hg : Hears b id scan m m')
    (hsafe : ∀ p ∈ reported, p ∈ scan.scope → m'.At id scan.storing → p ∉ m'.threatened v)
    (hsteady : m'.Steady) (hholder : ∃ h, m'.Holder h) :
    ∃ works : List Work, m'.jobs = m.jobs ++ works.map (Job.mk id) ∧
      Settling v m' (works.foldl applied t) reported := by
  cases hg with
  | answered records w ha hsch hm =>
    exact ⟨[scan.work records], hm.jobs, hs.answered hb hat ha hsch hm
      (fun p hp hscope => hsafe p hp hscope (hm.here rfl)) hsteady hholder⟩
  | failed trouble w ha _ =>
    obtain ⟨records, w', ha', -⟩ := hb.answer scan m.world
    rw [ha] at ha'
    cases ha'

/-- A turn keeps what is kept, and reports what it passes on. -/
theorem Settling.goes (hs : Settling v m t reported) (hb : b.IsFaithful v)
    (hlaid : (v.files m.world).IsLaidOut) (hat : m.At id stage) (hg : Goes b id stage m m')
    (hsafe : ∀ p ∈ reported, p ∉ m.overtaken v m') :
    ∃ works : List Work, m'.jobs = m.jobs ++ works.map (Job.mk id) ∧
      Settling v m' (works.foldl applied t)
        ((m.givenFrom b stage).foldl (Scene.heard (v.files m.world)) reported) := by
  have hn := hs.steady.numbered
  have hsteady := hg.steady hs.steady hat
  have hholder : ∃ h, m'.Holder h := by
    obtain ⟨h, hh⟩ := hs.holder
    obtain ⟨h', hh', -⟩ := hg.passes hn hat hh
    exact ⟨h', hh'⟩
  cases hg with
  | rests hr hsch hm =>
    have hgiven : m.givenFrom b stage = [] := by cases hr <;> rfl
    obtain ⟨hstage, hnext⟩ := hr.not_isTracked
    rw [hgiven]
    refine ⟨[], by rw [hm.jobs]; rfl, ?_⟩
    exact hs.stays (hm.stays hb hn hat hstage hnext) (by rw [hsch]) hsteady hholder
  | asks scan w hbegin hidle hw hsch hm =>
    have hgiven : m.givenFrom b stage = [] := by cases hbegin <;> rfl
    rw [hgiven]
    refine ⟨[], by rw [hm.jobs]; rfl, ?_⟩
    exact hs.asks hb hlaid hat hbegin hidle hw hsch hm hsteady hholder
  | asksAndHears scan w hbegin hidle hw hg =>
    have hgiven : m.givenFrom b stage = [] := by cases hbegin <;> rfl
    rw [hgiven]
    have hbegun : (m.begun b scan w).Numbered := hn.congr rfl rfl
    have hm := Moves.suspend b hbegun (hn.at_lt hat) scan.asking .answer
    -- the answer comes at once: it is as if the task had waited for it
    have hgoes : Goes b id stage m ((m.begun b scan w).suspend id scan.asking .answer) :=
      .asks scan w hbegin hidle hw rfl hm
    obtain ⟨h, hh⟩ := hs.holder
    obtain ⟨h', hh', -⟩ := hgoes.passes hn hat hh
    have hasked := hs.asks hb hlaid hat hbegin hidle hw rfl hm (hgoes.steady hs.steady hat)
      ⟨h', hh'⟩
    exact hasked.hears hb (hm.here rfl) hg (fun p hp hscope hat' h => hsafe p hp
      (mem_overtaken hn hat (hbegin.not_stores p) hscope hat' h)) hsteady hholder
  | hears scan hg =>
    have hgiven : m.givenFrom b scan.asking = [] := by cases scan <;> rfl
    rw [hgiven]
    exact hs.hears hb hat hg (fun p hp hscope hat' h => hsafe p hp
      (mem_overtaken hn hat (stores_asking scan p) hscope hat' h)) hsteady hholder
  | stored scan hg =>
    have hgiven : m.givenFrom b scan.storing = [] := by cases scan <;> rfl
    rw [hgiven]
    exact hs.concludes hb hat hg hsteady hholder
  | drains hd => exact hs.drains hb hat hd hsteady hholder
  | notifies hst hg hgiven =>
    rw [← hgiven hb.has_log]
    exact hs.notifies hb hat hst hg hsteady hholder

/-- Turns leave the store to the worker. -/
theorem Passes.tables (hb : b.IsFaithful v) {h h' : Option (TaskId × Stage)} {w w' : σ}
    (hp : Passes b h h' w w') : v.tables w' = v.tables w := by
  have hlogged : ∀ {w w' : σ}, Logged b w w' → v.tables w' = v.tables w := fun hl => (hl.view hb).1
  have hanswer : ∀ {scan w w₁ r}, b.answer scan w = (r, w₁) → v.tables w₁ = v.tables w := by
    intro scan w w₁ r ha
    obtain ⟨records, w', ha', -, ht, -⟩ := hb.answer scan w
    rw [ha] at ha'
    obtain ⟨-, rfl⟩ := Prod.mk.inj ha'
    exact ht
  induction hp with
  | leaves hw => exact hlogged hw
  | asks hw hw' => rw [hlogged hw', (hb.ask _ _).1, hlogged hw]
  | answers ha hw => rw [hlogged hw, hanswer ha]
  | fails ha hw => rw [hlogged hw, hanswer ha]
  | ends hw => exact hlogged hw
  | asksAndGoes hw _ ih => rw [ih, (hb.ask _ _).1, hlogged hw]

theorem Idles.mem_overtaken (h : Idles m m') {m'' : Machine σ} {p : String}
    (hp : p ∈ m'.overtaken v m'') : p ∈ m.overtaken v m'' := by
  obtain ⟨hthreat, t, ht, hst, hnew⟩ := hp
  refine ⟨hthreat, t, ht, hst, fun u hu hid => ?_⟩
  obtain ⟨u', hu', hid', hstage⟩ := (h.at_iff u.id u.stage).mpr ⟨u, hu, rfl, rfl⟩
  rw [← hstage]
  exact hnew u' hu' (hid'.trans hid)

theorem Settling.mono (hs : Settling v m t reported) {reported' : Set String}
    (h : ∀ p ∈ reported', p ∈ reported) : Settling v m t reported' :=
  { hs with due := fun p hp => hs.due p (h p hp) }

/-- Files change by themselves; where they do, nothing is promised until it is reported. -/
theorem Settling.outside (hs : Settling v m t reported) {w : σ}
    (hasked : v.asked w = v.asked m.world) {reported' : Set String}
    (hreported : ∀ p ∈ reported', p ∈ reported ∧ v.files w p = v.files m.world p) :
    Settling v { m with world := w } t reported' := by
  refine ⟨⟨hs.steady.numbered.congr rfl rfl, hs.steady.accepts, hs.steady.plain⟩, ?_, hs.idle,
    hs.nodup, hs.lockstep, fun i scan hat => ?_, fun p hp => ?_⟩
  · obtain ⟨h, hh⟩ := hs.holder
    exact ⟨h, hh.busy, hh.holds⟩
  · change (v.asked w).IsLaidOut
    rw [hasked]
    exact hs.asked i scan hat
  · obtain ⟨hp, hfiles⟩ := hreported p hp
    refine (hs.due p hp).same ?_ rfl
    exact ⟨fun h => h, fun _ => Iff.rfl, fun _ _ _ _ => Iff.rfl, fun _ _ => Iff.rfl, hfiles,
      congrFun hasked p⟩

end Machine

open Machine

namespace Scene

variable {σ : Type} {b : Backend σ} {v : View σ} {s s' : Scene σ} {reported : Set String}

theorem outlook_eq (hworks : s'.works = s.works)
    (htables : v.tables s'.machine.world = v.tables s.machine.world) :
    s'.outlook v = s.outlook v := by
  rw [outlook, hworks, Scene.tables, htables]
  rfl

theorem works_eq (hr : s'.running = s.running) (hjobs : s'.machine.jobs = s.machine.jobs) :
    s'.works = s.works := by
  rw [works, hr, hjobs]
  rfl

/-- The paths for which nothing has happened between two scenes that is to be reported anew. -/
def lasting (v : View σ) (s s' : Scene σ) (reported : Set String) : Set String :=
  {p | p ∈ reported ∧ p ∉ s.machine.overtaken v s'.machine ∧
    v.files s'.machine.world p = v.files s.machine.world p}

/-- The paths for which something is promised after an event. -/
def promisedAfter (b : Backend σ) (v : View σ) (s s' : Scene σ) (promised : Set String)
    (e : Event σ) : Set String :=
  (s.given b e).foldl (heard (v.files s.machine.world)) (s.lasting v s' promised)

theorem promisedAfter_of_given {e : Event σ} (h : s.given b e = []) :
    s.promisedAfter b v s' reported e = s.lasting v s' reported := by
  rw [promisedAfter, h]
  rfl

/-- A job is done as it was to be. -/
theorem tables_perform (hb : b.IsFaithful v) {work : Work} {w : σ}
    (hok : (b.perform work w).1.isOk = true) :
    (v.tables (b.perform work w).2).getD {} = applied ((v.tables w).getD {}) work := by
  obtain ⟨st, st', hbefore, hon, hafter, -⟩ := hb.perform work w
  rcases Store.change_cases (.ofWork work) st with ⟨n, t, st₁, hon', hwrote, heffect⟩ | ⟨e, st₁, hon', -⟩
  · obtain ⟨-, rfl⟩ := Prod.mk.inj (hon.symm.trans hon')
    rw [← hafter, hwrote.tables?, ← hbefore]
    exact heffect.eq_applied
  · rw [(Prod.mk.inj (hon.symm.trans hon')).1] at hok
    cases hok

/-- A turn hands its work in behind all other work. -/
theorem outlook_of_goes (hb : b.IsFaithful v) {m : Machine σ} {id : TaskId} {stage : Stage}
    (hm : Idles s.machine m) (hn : m.Numbered) (hh : ∃ h, m.Holder h) (hat : m.At id stage)
    (hg : Goes b id stage m s'.machine) (hr : s'.running = s.running) {works : List Work}
    (hjobs : s'.machine.jobs = m.jobs ++ works.map (Job.mk id)) :
    s'.outlook v = works.foldl applied (s.outlook v) := by
  have htables : v.tables s'.machine.world = v.tables s.machine.world := by
    obtain ⟨h, hh⟩ := hh
    obtain ⟨h', -, hp⟩ := hg.passes hn hat hh
    rw [hp.tables hb, hm.world]
  have hworks : s'.works = s.works ++ works := by
    rw [Scene.works, Scene.works, hr, hjobs, hm.jobs, ← List.append_assoc, List.map_append,
      List.map_map]
    congr 1
    exact List.map_id works
  rw [outlook, hworks, List.foldl_append, Scene.tables, htables]
  rfl

/-- The oldest work is still the oldest when the worker has taken it. -/
theorem outlook_of_pick {job : Job} {rest : List Job} (hjobs : s.machine.jobs = job :: rest)
    (hidle : s.running = none) (hm : s'.machine = { s.machine with jobs := rest })
    (hr : s'.running = some job) : s'.outlook v = s.outlook v := by
  have hworks : s'.works = s.works := by
    rw [Scene.works, Scene.works, hr, hidle, hm, hjobs]
    rfl
  exact outlook_eq hworks (by rw [hm])

/-- The oldest work goes from what is to be done into the tables. -/
theorem outlook_of_done (hb : b.IsFaithful v) {job : Job}
    (hok : (b.perform job.work s.machine.world).1.isOk = true) (hjob : s.running = some job)
    (hm : s'.machine = s.machine.perform b job) (hr : s'.running = none) :
    s'.outlook v = s.outlook v := by
  have hi := Idles.perform b job s.machine
  have hworks : s.works = job.work :: s'.works := by
    rw [Scene.works, Scene.works, hjob, hr, hm, hi.jobs]
    rfl
  have htables : s'.tables v = applied (s.tables v) job.work := by
    rw [Scene.tables, hm, hi.world]
    exact tables_perform hb hok
  rw [outlook, outlook, hworks, List.foldl_cons, htables]

theorem stays_perform (hb : b.IsFaithful v) (job : Job) (m : Machine σ) :
    Stays v m (m.perform b job) := by
  have hi := Idles.perform b job m
  obtain ⟨-, -, -, -, -, hfiles, hasked⟩ := hb.perform job.work m.world
  refine ⟨fun _ => hi.at_iff _ _, ?_, ?_⟩
  · rw [hi.world]
    exact hfiles
  · rw [hi.world]
    exact hasked

/-- A turn leaves the queue first, which changes nothing, and then its task goes on. -/
theorem settling_of_goes (hb : b.IsFaithful v) (hlaid : (v.files s.machine.world).IsLaidOut)
    {m : Machine σ} {id : TaskId} {stage : Stage} (hm : Idles s.machine m) (hat : m.At id stage)
    (hg : Goes b id stage m s'.machine) (hr : s'.running = s.running)
    (hset : Settling v s.machine (s.outlook v) reported) :
    Settling v s'.machine (s'.outlook v)
      ((m.givenFrom b stage).foldl (heard (v.files m.world)) (s.lasting v s' reported)) := by
  have hholder : ∃ h, m.Holder h := by
    obtain ⟨h, hh⟩ := hset.holder
    exact ⟨h, hh.of_idles hm⟩
  have hset₁ : Settling v m (s.outlook v) (s.lasting v s' reported) :=
    (hset.stays (hm.stays v) (by rw [hm.scheduler]) (hm.steady hset.steady) hholder).mono
      fun p hp => hp.1
  obtain ⟨works, hjobs, hset'⟩ := hset₁.goes hb (by rw [hm.world]; exact hlaid) hat hg
    fun p hp h => hp.2.1 (hm.mem_overtaken h)
  rw [outlook_of_goes hb hm hset₁.steady.numbered hholder hat hg hr hjobs]
  exact hset'

/-- Every event keeps what is kept. -/
theorem Steps.settling {e : Event σ} (hs : Steps b s s' e) (hb : b.IsFaithful v)
    (hfair : s.IsFair b v e) (hlaid : (v.files s.machine.world).IsLaidOut)
    (hset : Settling v s.machine (s.outlook v) reported) :
    Settling v s'.machine (s'.outlook v) (s.promisedAfter b v s' reported e) := by
  have hstop : e.isStop = false := by
    cases e with
    | stop => exact hfair.elim
    | _ => rfl
  have hsteady := hs.steady hset.steady hstop
  have hholder : ∃ h, s'.machine.Holder h := by
    obtain ⟨h, hh⟩ := hset.holder
    obtain ⟨h', hh', -⟩ := hs.holder hset.steady hh
    exact ⟨h', hh'⟩
  cases hs with
  | idles he hgiven hi hr =>
    rw [outlook_eq (works_eq hr hi.jobs) (by rw [hi.world]), promisedAfter_of_given hgiven]
    exact (hset.stays (hi.stays v) (by rw [hi.scheduler]) hsteady hholder).mono
      fun p hp => hp.1
  | change hx hmem hr =>
    rw [outlook_eq (works_eq hr hx.jobs) (hx.world.view hb).1]
    have hset₁ : Settling v s.machine (s.outlook v) (s.lasting v s' reported) :=
      hset.mono fun p hp => hp.1
    exact hset₁.changes (hx.stays hb) hmem hsteady hholder
  | call hstage hm hr =>
    have hgiven : s.given b e = [] := by cases e <;> first | rfl | cases hstage
    have hplain : ∀ {stage}, e.stage? = some stage → stage.isTracked = false := by
      intro stage hst
      cases e <;> cases hst <;> rfl
    rw [outlook_eq (works_eq hr (by rw [hm]; rfl)) (by rw [hm]; rfl), promisedAfter_of_given hgiven]
    refine (hset.stays ?_ (by rw [hm]; rfl) hsteady hholder).mono fun p hp => hp.1
    rw [hm]
    exact stays_spawn v (hplain hstage)
  | turn m id stage hm hat hgiven hg hr =>
    rw [promisedAfter, hgiven, ← hm.world]
    exact settling_of_goes hb hlaid hm hat hg hr hset
  | pick job rest hjobs hidle hm hr =>
    rw [outlook_of_pick hjobs hidle hm hr, promisedAfter_of_given rfl]
    refine (hset.stays ?_ (by rw [hm]) hsteady hholder).mono fun p hp => hp.1
    rw [hm]
    exact ⟨fun _ => Iff.rfl, rfl, rfl⟩
  | done job hjob hm hr =>
    rw [outlook_of_done hb (hfair job hjob) hjob hm hr, promisedAfter_of_given rfl]
    refine (hset.stays ?_ (by rw [hm]; rfl) hsteady hholder).mono fun p hp => hp.1
    rw [hm]
    exact stays_perform hb job s.machine
  | @outside f hm hr =>
    have hlasting : ∀ p ∈ s.lasting v s' reported, p ∈ reported ∧
        v.files s'.machine.world p = v.files s.machine.world p := fun p hp => ⟨hp.1, hp.2.2⟩
    rw [outlook_eq (works_eq hr (by rw [hm])) (by rw [hm]; exact hfair.1), promisedAfter_of_given rfl]
    rw [hm] at hlasting ⊢
    exact hset.outside hfair.2 hlasting

/-- A path is reported because it was before or because it was told, whatever else was reported. -/
theorem mem_foldl_heard {files : Files} {p : String} {given : List (String × Operation)}
    {before before' : Set String} (hp : p ∈ given.foldl (heard files) before)
    (h : p ∈ before → p ∈ before' ∨ p ∈ given.map Prod.fst) :
    p ∈ given.foldl (heard files) before' := by
  induction given generalizing before before' with
  | nil => exact (h hp).resolve_right List.not_mem_nil
  | cons e rest ih =>
    obtain ⟨path, op⟩ := e
    refine ih hp fun hp => ?_
    rw [List.map_cons, List.mem_cons] at h
    cases op with
    | change =>
      rcases hp with rfl | hp
      · exact .inl (.inl rfl)
      · rcases h hp with hp | rfl | hp
        · exact .inl (.inr hp)
        · exact .inl (.inl rfl)
        · exact .inr hp
    | delete =>
      rcases hp with hp | ⟨hne, hp⟩
      · exact .inl (.inl hp)
      · rcases h hp with hp | he | hp
        · exact .inl (.inr ⟨hne, hp⟩)
        · exact absurd he hne
        · exact .inr hp

theorem mem_promisedAfter {overtaken : Set String} {e : Event σ} {p : String}
    (hp : p ∈ s.reportedAfter b v s' reported e \ s.overtakenAfter b v s' overtaken e) :
    p ∈ s.promisedAfter b v s' (reported \ overtaken) e := by
  obtain ⟨hreported, hnot⟩ := hp
  refine mem_foldl_heard hreported fun h => ?_
  by_cases hgiven : p ∈ (s.given b e).map Prod.fst
  · exact .inr hgiven
  · exact .inl ⟨⟨h.1, fun hover => hnot (.inr ⟨hover, hgiven⟩)⟩, fun hover => hnot (.inl hover), h.2⟩

theorem settling_run (hb : b.IsFaithful v) {events : List (Event σ)} {overtaken : Set String}
    (hcourse : s.IsCourse b v events)
    (hlaid : s.Always b (fun s => (v.files s.machine.world).IsLaidOut) events)
    (hset : Settling v s.machine (s.outlook v) (reported \ overtaken)) :
    Settling v (s.run b events).machine ((s.run b events).outlook v)
      (s.reported b v reported events \ s.overtaken b v overtaken events) := by
  induction events generalizing s reported overtaken with
  | nil => exact hset
  | cons e rest ih =>
    have hstep := (steps_step hset.steady e).settling hb hcourse.1 hlaid.1 hset
    exact ih hcourse.2 hlaid.2 (hstep.mono fun p hp => mem_promisedAfter hp)

end Scene

/-- A scheduler that has just been started has nothing to do yet. -/
theorem Machine.IsFresh.settling {σ : Type} {b : Backend σ} {v : View σ} {m : Machine σ}
    (hm : m.IsFresh) {t : Tables} (ht : Lockstep t) : Settling v (m.start b) t ∅ := by
  have hdeferred : (m.start b).scheduler.deferred = [] := by
    rw [hm.start_eq]
    change m.scheduler.deferred = []
    rw [hm.scheduler]
  refine ⟨hm.steady_start, ⟨none, hm.holder_start⟩, fun _ => hdeferred, ?_, ht,
    fun i scan hat => absurd hat (hm.not_at_start i _), fun p hp => absurd hp (Set.notMem_empty p)⟩
  rw [hdeferred]
  exact List.nodup_nil

theorem Machine.IsFresh.outlook_start {σ : Type} {b : Backend σ} {v : View σ} {m : Machine σ}
    (hm : m.IsFresh) (hb : b.IsFaithful v) :
    Scene.outlook v { machine := m.start b } = (v.tables m.world).getD {} := by
  have hjobs : (m.start b).jobs = [] := by
    rw [hm.start_eq]
    exact hm.jobs
  have htables : v.tables (m.start b).world = v.tables m.world := by
    rw [hm.start_eq]
    exact (hb.log _ _).1
  rw [Scene.outlook, Scene.works, Scene.tables, hjobs, htables]
  rfl

/-- Once nothing is left to be done, what is stored for every reported path is what its file has, clause
by clause merged, if all the while no identity occurs in two files, and unless records of the path were on
their way to the store while a drain still held an older deletion of it.  Such a path is left out because the
scheduler is wrong there: the drain goes on to purge what a newer change, or a rebuild that overtook it,
has stored, and the file stays without its records. -/
theorem stored_of_quiet {σ : Type} {b : Backend σ} {v : View σ} (hb : b.IsFaithful v)
    {m : Machine σ} (hm : m.IsFresh) {store : Store} (hstore : store.disk.tables? = none)
    {calls : List Store.Call} (htables : v.tables m.world = (Store.run store calls).disk.tables?)
    {events : List (Event σ)} :
    let start : Scene σ := { machine := m.start b }
    let s := start.run b events
    start.IsCourse b v events →
    start.Always b (fun s => (v.files s.machine.world).IsLaidOut) events →
    s.IsQuiet → ∀ path ∈ start.reported b v ∅ events, path ∉ start.overtaken b v ∅ events →
      (s.tables v).stored path = (v.files s.machine.world).shown path := by
  intro start s hcourse hlaid hquiet path hreported hnot
  have hlock : Lockstep (start.outlook v) := by
    rw [hm.outlook_start hb, htables]
    cases ht : (Store.run store calls).disk.tables? with
    | none => exact Lockstep.empty
    | some t => exact Store.lockstep_run (by rw [hstore]; exact nofun) calls ht
  have hset : Settling v s.machine (s.outlook v)
      (start.reported b v ∅ events \ start.overtaken b v ∅ events) :=
    Scene.settling_run hb hcourse hlaid ((hm.settling hlock).mono fun p hp => hp.1)
  have hat : ∀ i st, ¬s.machine.At i st := by
    rintro i st ⟨task, htask, -⟩
    rw [hquiet.tasks] at htask
    cases htask
  have hout : s.outlook v = s.tables v := by
    rw [Scene.outlook, Scene.works, hquiet.running, hquiet.jobs]
    rfl
  -- all places but the store are empty
  cases hset.due path ⟨hreported, hnot⟩ with
  | pending h =>
    rw [hquiet.pending] at h
    cases h
  | deferredChange h =>
    rw [hquiet.deferred] at h
    cases h
  | deferredDelete h _ =>
    rw [hquiet.deferred] at h
    cases h
  | drainedChange i _ _ _ h _ => exact absurd h (hat i _)
  | drainedDelete i _ _ _ h _ _ _ => exact absurd h (hat i _)
  | asked i _ h _ _ _ => exact absurd h (hat i _)
  | stored h _ _ _ => rw [← hout, h]

namespace Desk

def entity : Entity :=
  { id := "x", container := "A", name := "f", arity := 1, path := "a.ex", startLine := 1, endLine := 2, lexicalText := ""
    references := ["B.g/0", "B.g/0"] }

def other : Entity :=
  { entity with id := "y", path := "b.ex" }

/-- One file gets a second clause, and the other is deleted while the cycle for the first is under
way. -/
def edited : List (Event Desk) :=
  [edit [entity, { entity with startLine := 4, endLine := 5 }, other], .change "a.ex", .turn 0,
    .timer 0, .turn 0, .turn 0, edit [entity, { entity with startLine := 4, endLine := 5 }],
    .notices [.either "b.ex"], .turn 0, .answer 1, .turn 0, .pick, .done, .turn 0, .pick, .done,
    .turn 0]

/-- An identity comes to stand in two files, and each has its cycle. -/
def doubled : List (Event Desk) :=
  [edit [entity, { entity with path := "b.ex" }], .change "a.ex", .turn 0, .timer 0, .turn 0, .turn 0,
    .answer 1, .turn 0, .pick, .done, .turn 0, .change "b.ex", .turn 0, .timer 0, .turn 0, .turn 0,
    .answer 3, .turn 0, .pick, .done, .turn 0]

/-- Both files are deleted during a rebuild.  While the first deletion is purged, the other file comes
back, and a second rebuild begins before the second deletion is purged. -/
def revived : List (Event Desk) :=
  [.rebuild, .turn 0, edit [], .notices [.delete "b.ex", .delete "a.ex"], .turn 0, .answer 0, .turn 0,
    .pick, .done, .turn 0, edit [entity], .change "a.ex", .rebuild, .turn 1, .answer 3, .turn 1, .pick,
    .done, .turn 1, .pick, .done, .turn 1, .pick, .done, .turn 1, .turn 0, .timer 0, .turn 0, .turn 0]

end Desk

open Desk

theorem stored_of_edited :
    let start := Desk.start [entity, other]
    let s := start.run backend edited
    s.IsQuiet ∧ ∀ path ∈ ["a.ex", "b.ex"], path ∈ start.reported backend view ∅ edited ∧
      path ∉ start.overtaken backend view ∅ edited ∧
      (s.tables view).stored path = (view.files s.machine.world).shown path := by
  have hquiet : ((Desk.start [entity, other]).run backend edited).IsQuiet := by decide +kernel
  have hreported : ∀ path ∈ ["a.ex", "b.ex"],
      path ∈ (Desk.start [entity, other]).reported backend view ∅ edited ∧
        path ∉ (Desk.start [entity, other]).overtaken backend view ∅ edited := by
    decide +kernel
  have hcourse : (Desk.start [entity, other]).IsCourse backend view edited :=
    isCourse (by simp [edited, Event.IsTame, edit, view]) (by decide +kernel)
  have hlaid : (Desk.start [entity, other]).Always backend
      (fun s => (view.files s.machine.world).IsLaidOut) edited :=
    isLaidOut (by unfold PlacedById; decide +kernel)
  have hnew : ({ path := "index.db" } : Store).disk.tables? = none := rfl
  have hstored := stored_of_quiet isFaithful (isFresh_machine [entity, other]) hnew
    (tables_machine [entity, other]) hcourse hlaid hquiet
  refine ⟨hquiet, fun path hp => ?_⟩
  obtain ⟨hin, hnot⟩ := hreported path hp
  exact ⟨hin, hnot, hstored path hin hnot⟩

/-- Neither condition can be spared.  Where an identity stands in two files, one of them goes without;
and the deletion that a drain still holds undoes the rebuild that overtakes it. -/
theorem not_stored_of_quiet :
    (let start := Desk.start [entity]
      let s := start.run backend doubled
      start.IsCourse backend view doubled ∧ s.IsQuiet ∧
        "a.ex" ∈ start.reported backend view ∅ doubled ∧
        "a.ex" ∉ start.overtaken backend view ∅ doubled ∧
        (s.tables view).stored "a.ex" ≠ (view.files s.machine.world).shown "a.ex") ∧
      let start := Desk.start [entity, other]
      let s := start.run backend revived
      start.IsCourse backend view revived ∧
        start.Always backend (fun s => (view.files s.machine.world).IsLaidOut) revived ∧ s.IsQuiet ∧
        "a.ex" ∈ start.reported backend view ∅ revived ∧
        (s.tables view).stored "a.ex" ≠ (view.files s.machine.world).shown "a.ex" := by
  refine ⟨⟨?_, ?_⟩, ?_, ?_, ?_⟩
  · exact isCourse (by simp [doubled, Event.IsTame, edit, view]) (by decide +kernel)
  · decide +kernel
  · exact isCourse (by simp [revived, Event.IsTame, edit, view]) (by decide +kernel)
  · exact isLaidOut (by unfold PlacedById; decide +kernel)
  · decide +kernel

end CodeIndex.Scheduler
