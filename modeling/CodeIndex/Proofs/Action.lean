import CodeIndex.Failure.Basic

/-!
# Steps that may end early

A step works on a state and ends with a value or with what ended it early; either way it has changed the
state.  What two steps in a row come to, and what a step comes to whose early end is dealt with.
-/

namespace CodeIndex

variable {σ α β : Type}

/-- The second of two steps is done if the first ends well. -/
theorem run_bind (act : ExceptT Trouble (StateM σ) α) (f : α → ExceptT Trouble (StateM σ) β) (s : σ) :
    (act >>= f).run.run s =
      match act.run.run s with
      | (.ok a, s) => (f a).run.run s
      | (.error t, s) => (.error t, s) := by
  simp only [ExceptT.run_bind, StateT.run_bind]
  rcases act.run.run s with ⟨r, s'⟩
  cases r <;> rfl

/-- A handler goes on with the state that the step left. -/
theorem run_tryCatch (act : ExceptT Trouble (StateM σ) α)
    (h : Trouble → ExceptT Trouble (StateM σ) α) (s : σ) :
    (tryCatch act h : ExceptT Trouble (StateM σ) α).run.run s =
      match act.run.run s with
      | (.ok a, s) => (.ok a, s)
      | (.error t, s) => (h t).run.run s := by
  rcases hr : act.run.run s with ⟨r, s'⟩
  simp only [tryCatch, tryCatchThe, MonadExceptOf.tryCatch, ExceptT.tryCatch, ExceptT.run,
    ExceptT.mk, StateT.run, bind, StateT.bind] at hr ⊢
  rw [hr]
  cases r <;> rfl

end CodeIndex
