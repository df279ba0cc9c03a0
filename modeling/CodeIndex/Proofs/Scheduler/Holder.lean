import CodeIndex.Proofs.Scheduler.Steady

/-!
# The holder of the flag

At any time at most one task is between setting and clearing the busy flag: its holder.  A turn either
leaves the holder alone, or it is the turn of a task that becomes the holder while there is none, or it is
the holder's own turn, in which it goes on holding or clears the flag.
-/

namespace CodeIndex.Scheduler

/-- Whether a cycle or a rebuild has set the busy flag and not yet cleared it. -/
def Stage.isUnderWay : Stage → Bool
  | .cycleAnswered _ => true
  | .cycleMerged _ => true
  | .rebuildAnswered => true
  | .rebuildStored => true
  | _ => false

def Stage.isAsking : Stage → Bool
  | .cycleAnswered _ => true
  | .rebuildAnswered => true
  | _ => false

theorem isUnderWay_asking (scan : Scan) : scan.asking.isUnderWay = true := by cases scan <;> rfl

theorem isUnderWay_storing (scan : Scan) : scan.storing.isUnderWay = true := by cases scan <;> rfl

theorem isAsking_asking (scan : Scan) : scan.asking.isAsking = true := by cases scan <;> rfl

theorem isAsking_storing (scan : Scan) : scan.storing.isAsking = false := by cases scan <;> rfl

theorem Rests.not_isUnderWay {s : Scheduler} {stage : Stage} {next : Option Stage}
    (h : Rests s stage next) :
    stage.isUnderWay = false ∧ ∀ st, next = some st → st.isUnderWay = false := by
  cases h <;> exact ⟨rfl, fun st hst => by cases hst <;> rfl⟩

namespace Machine

variable {σ : Type} {b : Backend σ} {m m' : Machine σ} {id : TaskId} {stage : Stage}
  {next : Option Stage} {work : Option Work} {h : Option (TaskId × Stage)}

/-- The one task that is under way, with its stage, if there is one; the flag says whether there is. -/
structure Holder (m : Machine σ) (h : Option (TaskId × Stage)) : Prop where
  busy : m.scheduler.isBusy = h.isSome
  holds : ∀ i st, m.At i st ∧ st.isUnderWay = true ↔ h = some (i, st)

theorem Holder.eq_some (hh : Holder m h) (hat : m.At id stage) (hst : stage.isUnderWay = true) :
    h = some (id, stage) :=
  (hh.holds id stage).mp ⟨hat, hst⟩

theorem Holder.ne (hh : Holder m h) (hn : m.Numbered) (hat : m.At id stage)
    (hst : stage.isUnderWay = false) {i : TaskId} {st : Stage} (he : h = some (i, st)) : i ≠ id := by
  rintro rfl
  obtain ⟨hat', hst'⟩ := (hh.holds i st).mpr he
  rw [hn.stage_unique hat' hat, hst] at hst'
  cases hst'

theorem Holder.of_idles (hh : Holder m h) (hi : Idles m m') : Holder m' h where
  busy := hi.scheduler ▸ hh.busy
  holds i st := by rw [hi.at_iff, hh.holds]

/-- A task that was not under way and is not now leaves the holder alone. -/
theorem Holder.moves_other (hh : Holder m h) (hn : m.Numbered) (hat : m.At id stage)
    (hst : stage.isUnderWay = false) (hm : Moves b id next work m m')
    (hnext : ∀ st, next = some st → st.isUnderWay = false)
    (hbusy : m'.scheduler.isBusy = m.scheduler.isBusy) : Holder m' h where
  busy := hbusy.trans hh.busy
  holds i st := by
    constructor
    · rintro ⟨hat', hst'⟩
      rcases hm.old hat' with ⟨-, hold⟩ | ⟨-, he⟩ | rfl | rfl
      · exact hh.eq_some hold hst'
      · rw [hnext st he] at hst'
        cases hst'
      · cases hst'
      · cases hst'
    · intro he
      obtain ⟨hold, hst'⟩ := (hh.holds i st).mpr he
      exact ⟨hm.kept (hh.ne hn hat hst he) hold, hst'⟩

/-- A task takes over, or holds on, while no other task is under way. -/
theorem Holder.moves_on (hown : ∀ i st, m.At i st → st.isUnderWay = true → i = id)
    (hm : Moves b id (some stage) work m m') (hst : stage.isUnderWay = true)
    (hbusy : m'.scheduler.isBusy = true) : Holder m' (some (id, stage)) where
  busy := hbusy
  holds i st := by
    constructor
    · rintro ⟨hat', hst'⟩
      rcases hm.old hat' with ⟨hne, hold⟩ | ⟨rfl, he⟩ | rfl | rfl
      · exact absurd (hown i st hold hst') hne
      · rw [Option.some.inj he]
      · cases hst'
      · cases hst'
    · intro he
      obtain ⟨rfl, rfl⟩ := Prod.mk.inj (Option.some.inj he)
      exact ⟨hm.here rfl, hst⟩

/-- The only task that can be under way lets go. -/
theorem Holder.moves_off (hown : ∀ i st, m.At i st → st.isUnderWay = true → i = id)
    (hm : Moves b id next work m m') (hnext : ∀ st, next = some st → st.isUnderWay = false)
    (hbusy : m'.scheduler.isBusy = false) : Holder m' none where
  busy := hbusy
  holds i st := by
    refine ⟨?_, nofun⟩
    rintro ⟨hat', hst'⟩
    rcases hm.old hat' with ⟨hne, hold⟩ | ⟨-, he⟩ | rfl | rfl
    · exact absurd (hown i st hold hst') hne
    · rw [hnext st he] at hst'
      cases hst'
    · cases hst'
    · cases hst'

theorem Holder.own_of_none (hh : Holder m none) (i : TaskId) (st : Stage) (hat : m.At i st)
    (hst : st.isUnderWay = true) : i = id :=
  nomatch hh.eq_some hat hst

theorem Holder.own_of_some (hh : Holder m (some (id, stage))) (i : TaskId) (st : Stage)
    (hat : m.At i st) (hst : st.isUnderWay = true) : i = id :=
  (Prod.mk.inj (Option.some.inj (hh.eq_some hat hst))).1.symm

/-- The number of tasks under way is one if the flag is set, and else none. -/
theorem Holder.length (hh : Holder m h) (hn : m.Numbered) :
    (m.tasks.filter (·.stage.isUnderWay)).length = m.scheduler.isBusy.toNat := by
  have hids : ((m.tasks.filter (·.stage.isUnderWay)).map Task.id).Nodup :=
    hn.nodup.sublist (List.filter_sublist.map _)
  have hmem : ∀ t ∈ m.tasks.filter (·.stage.isUnderWay), h = some (t.id, t.stage) := by
    intro t ht
    rw [List.mem_filter] at ht
    exact hh.eq_some ⟨t, ht.1, rfl, rfl⟩ ht.2
  rw [hh.busy]
  cases h with
  | none =>
    have hnil : m.tasks.filter (·.stage.isUnderWay) = [] :=
      List.eq_nil_iff_forall_not_mem.mpr fun t ht => nomatch hmem t ht
    rw [hnil]
    rfl
  | some held =>
    obtain ⟨i, st⟩ := held
    obtain ⟨⟨t, ht, rfl, rfl⟩, hst⟩ := (hh.holds i st).mpr rfl
    have ht : t ∈ m.tasks.filter (·.stage.isUnderWay) := List.mem_filter.mpr ⟨ht, hst⟩
    revert ht hids hmem
    cases m.tasks.filter (·.stage.isUnderWay) with
    | nil => exact fun _ _ ht => nomatch ht
    | cons x rest =>
      intro hids hmem _
      cases rest with
      | nil => rfl
      | cons y rest =>
        -- two of them would have one number
        have hx := Prod.mk.inj (Option.some.inj (hmem x (by simp)))
        have hy := Prod.mk.inj (Option.some.inj (hmem y (by simp)))
        simp [← hx.1, ← hy.1] at hids

/-! ## What a turn does to the holder -/

/-- What a turn does to the holder and to the world.  All else that it does to the world is to write the
log. -/
inductive Passes (b : Backend σ) :
    Option (TaskId × Stage) → Option (TaskId × Stage) → σ → σ → Prop where
  | leaves {h w w'} (hw : Logged b w w') : Passes b h h w w'
  | asks {id scan w w₁ w'} (hw : Logged b w w₁) (hw' : Logged b (b.ask scan w₁) w') :
      Passes b none (some (id, scan.asking)) w w'
  | answers {id scan records w w₁ w'} (ha : b.answer scan w = (.ok records, w₁))
      (hw : Logged b w₁ w') :
      Passes b (some (id, scan.asking)) (some (id, scan.storing)) w w'
  | fails {id scan t w w₁ w'} (ha : b.answer scan w = (.error t, w₁)) (hw : Logged b w₁ w') :
      Passes b (some (id, scan.asking)) none w w'
  | ends {id : TaskId} {scan : Scan} {w w'} (hw : Logged b w w') : Passes b (some (id, scan.storing)) none w w'
  | asksAndGoes {id scan h' w w₁ w'} (hw : Logged b w w₁)
      (h : Passes b (some (id, scan.asking)) h' (b.ask scan w₁) w') : Passes b none h' w w'

theorem isBusy_memory (s : Scheduler) : s.memory.isBusy = s.isBusy := rfl

theorem Drains.calm {ending : Ending} {rest : List (String × Operation)}
    (hd : Drains b id ending rest m m') :
    ∃ next work, Moves b id next work m m' ∧ (∀ st, next = some st → st.isUnderWay = false) ∧
      m'.scheduler.isBusy = m.scheduler.isBusy := by
  cases hd with
  | purge changed path rest' hrest hs hm =>
    refine ⟨_, _, hm, fun st hst => by cases hst; rfl, ?_⟩
    rw [← isBusy_memory, hs, (foldl_collect_flags _ _).2]
    rfl
  | finish changed hrest hs hm =>
    refine ⟨_, _, hm, nofun, ?_⟩
    rw [← isBusy_memory, hs, (foldl_collect_flags _ _).2]
    rfl

theorem Notifies.calm {given : List (String × Operation)} (hg : Notifies b id given m m') :
    ∃ next work, Moves b id next work m m' ∧ (∀ st, next = some st → st.isUnderWay = false) ∧
      m'.scheduler.isBusy = m.scheduler.isBusy := by
  cases hg with
  | purge before path todo hbusy hgiven hbefore hs hm =>
    refine ⟨_, _, hm, fun st hst => by cases hst; rfl, ?_⟩
    rw [← isBusy_memory, hs, (foldl_hear_flags _ _).2]
    rfl
  | finish hgiven hs hm =>
    refine ⟨_, _, hm, nofun, ?_⟩
    rw [← isBusy_memory, hs, (foldl_hear_flags _ _).2]
    rfl

theorem Concludes.holder (hc : Concludes b id m m')
    (hown : ∀ i st, m.At i st → st.isUnderWay = true → i = id) :
    Holder m' none ∧ Logged b m.world m'.world := by
  obtain ⟨ending, hd⟩ := hc
  obtain ⟨next, work, hm, hnext, hbusy⟩ := hd.calm
  exact ⟨.moves_off (m := m.update Scheduler.conclude) hown hm hnext hbusy, hm.world⟩

theorem Hears.passes {scan : Scan} (hg : Hears b id scan m m')
    (hh : Holder m (some (id, scan.asking))) :
    ∃ h', Holder m' h' ∧ Passes b (some (id, scan.asking)) h' m.world m'.world := by
  cases hg with
  | answered records w ha hs hm =>
    refine ⟨_, .moves_on (m := { m with world := w }) hh.own_of_some hm (isUnderWay_storing scan) ?_,
      .answers ha hm.world⟩
    rw [hs, hh.busy]
    rfl
  | failed t w ha hc =>
    obtain ⟨hh', hw⟩ := hc.holder (m := { m with world := w }) hh.own_of_some
    exact ⟨none, hh', .fails ha hw⟩

/-- A turn passes the holding on as it may. -/
theorem Goes.passes (hg : Goes b id stage m m') (hn : m.Numbered) (hat : m.At id stage)
    (hh : Holder m h) : ∃ h', Holder m' h' ∧ Passes b h h' m.world m'.world := by
  cases hg with
  | rests hr hs hm =>
    exact ⟨h, hh.moves_other hn hat hr.not_isUnderWay.1 hm hr.not_isUnderWay.2 (by rw [hs]),
      .leaves hm.world⟩
  | asks scan w hb hidle hw hs hm =>
    obtain rfl : h = none := Option.isNone_iff_eq_none.mp (by simpa [hh.busy] using hidle)
    refine ⟨_, .moves_on (m := m.begun b scan w) hh.own_of_none hm (isUnderWay_asking scan) ?_,
      .asks hw hm.world⟩
    rw [hs]
    rfl
  | asksAndHears scan w hb hidle hw hg =>
    -- the task takes the flag, and goes on from there as if it had waited
    obtain rfl : h = none := Option.isNone_iff_eq_none.mp (by simpa [hh.busy] using hidle)
    have hn' : (m.begun b scan w).Numbered := hn.congr rfl rfl
    have hm := Moves.suspend b hn' (hn.at_lt hat) scan.asking .answer
    obtain ⟨h', hh', hp⟩ := hg.passes
      (.moves_on (m := m.begun b scan w) hh.own_of_none hm (isUnderWay_asking scan) rfl)
    exact ⟨h', hh', .asksAndGoes hw hp⟩
  | hears scan hg =>
    obtain rfl := hh.eq_some hat (isUnderWay_asking scan)
    exact hg.passes hh
  | stored scan hc =>
    -- nobody else is under way, so the flag that is cleared is its own
    obtain rfl := hh.eq_some hat (isUnderWay_storing scan)
    obtain ⟨hh', hw⟩ := hc.holder hh.own_of_some
    exact ⟨none, hh', .ends hw⟩
  | drains hd =>
    obtain ⟨next, work, hm, hnext, hbusy⟩ := hd.calm
    exact ⟨h, hh.moves_other hn hat rfl hm hnext hbusy, .leaves hm.world⟩
  | notifies hst hg hgiven =>
    obtain ⟨next, work, hm, hnext, hbusy⟩ := hg.calm
    have hcalm : stage.isUnderWay = false := by cases stage <;> first | rfl | cases hst
    exact ⟨h, hh.moves_other hn hat hcalm hm hnext hbusy, .leaves hm.world⟩

theorem Holder.extends (hh : Holder m h) (hx : Extends b m m')
    (hbusy : m'.scheduler.isBusy = m.scheduler.isBusy) : Holder m' h where
  busy := hbusy.trans hh.busy
  holds i st := by
    constructor
    · rintro ⟨hat', hst'⟩
      rcases hx.old hat' with hold | rfl | rfl
      · exact hh.eq_some hold hst'
      · cases hst'
      · cases hst'
    · intro he
      obtain ⟨hold, hst'⟩ := (hh.holds i st).mpr he
      exact ⟨hx.kept hold, hst'⟩

theorem Holder.spawn (hh : Holder m h) (hst : stage.isUnderWay = false) :
    Holder (m.spawn stage) h where
  busy := hh.busy
  holds i st := by
    rw [← hh.holds, at_spawn]
    constructor
    · rintro ⟨hat | ⟨-, rfl⟩, hst'⟩
      · exact ⟨hat, hst'⟩
      · rw [hst] at hst'
        cases hst'
    · exact fun h => ⟨.inl h.1, h.2⟩

theorem IsFresh.holder_start (hm : m.IsFresh) : (m.start b).Holder none where
  busy := by
    rw [hm.start_eq]
    change m.scheduler.isBusy = false
    rw [hm.scheduler]
  holds i st := by
    constructor
    · exact fun h => absurd h.1 (hm.not_at_start i st)
    · intro h
      cases h

end Machine

open Machine

/-- What an event does to the holder and to the world. -/
theorem Scene.Steps.holder {σ : Type} {b : Backend σ} {s s' : Scene σ} {e : Event σ}
    (hs : Steps b s s' e) (hsteady : s.machine.Steady) {h : Option (TaskId × Stage)}
    (hh : s.machine.Holder h) :
    ∃ h', s'.machine.Holder h' ∧
      ((e = .done → s.running = none) ∧ Passes b h h' s.machine.world s'.machine.world ∨
        h' = h ∧ (∃ f, e = .outside f ∧ s'.machine.world = f s.machine.world) ∨
        h' = h ∧ ∃ job, e = .done ∧ s.running = some job ∧
          s'.machine.world = (b.perform job.work s.machine.world).2) := by
  cases hs with
  | idles he hgiven hi hr =>
    exact ⟨h, hh.of_idles hi, .inl ⟨he, .leaves (by rw [hi.world]; exact .refl b _)⟩⟩
  | change hx hmem hr =>
    refine ⟨h, hh.extends hx ?_, .inl ⟨nofun, .leaves hx.world⟩⟩
    rw [← isBusy_memory, hmem]
    exact (foldl_hear_flags [(_, .change)] s.machine.scheduler.memory).2
  | call hstage hm hr =>
    rw [hm]
    refine ⟨h, hh.spawn ?_, .inl ⟨fun he => ?_, .leaves (.refl b _)⟩⟩
    · cases e <;> cases hstage <;> rfl
    · rw [he] at hstage
      cases hstage
  | turn m id stage hm hat hgiven hg hr =>
    obtain ⟨h', hh', hp⟩ := hg.passes (hm.numbered hsteady.numbered) hat (hh.of_idles hm)
    rw [hm.world] at hp
    exact ⟨h', hh', .inl ⟨nofun, hp⟩⟩
  | pick job rest hjobs hidle hm hr =>
    rw [hm]
    exact ⟨h, ⟨hh.busy, hh.holds⟩, .inl ⟨nofun, .leaves (.refl b _)⟩⟩
  | done job hjob hm hr =>
    rw [hm]
    have hh' : Holder (s.machine.performed b job) h := ⟨hh.busy, hh.holds⟩
    exact ⟨h, hh'.of_idles (.perform b job _), .inr (.inr ⟨rfl, job, rfl, hjob, rfl⟩)⟩
  | outside hm hr =>
    rw [hm]
    exact ⟨h, ⟨hh.busy, hh.holds⟩, .inr (.inl ⟨rfl, _, rfl, rfl⟩)⟩

end CodeIndex.Scheduler
