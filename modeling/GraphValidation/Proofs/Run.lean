/-
**Steps of a run, applied to a state.**

A step that is applied to a state gives a result and a state, or an error and a state.  These are
the equations of the operations that steps are made of, for the steps of a validation and for those
of the machines that validations are compared with; all later proofs open a step with them.
-/
import GraphValidation.Context

namespace GraphValidation

namespace Run

section Steps

variable {ε σ α β : Type}

@[simp] theorem pure_apply (a : α) (state : σ) : (pure a : EStateM ε σ α) state = .ok a state := rfl

theorem bind_apply (step : EStateM ε σ α) (next : α → EStateM ε σ β) (state : σ) :
    (step >>= next) state = match step state with
      | .ok a state => next a state
      | .error error state => .error error state := by
  show EStateM.bind step next state = _
  unfold EStateM.bind
  cases step state <;> rfl

@[simp] theorem get_apply (state : σ) : (get : EStateM ε σ σ) state = .ok state state := rfl

@[simp] theorem set_apply (later state : σ) :
    (set later : EStateM ε σ PUnit) state = .ok ⟨⟩ later :=
  rfl

@[simp] theorem modify_apply (change : σ → σ) (state : σ) :
    (modify change : EStateM ε σ PUnit) state = .ok ⟨⟩ (change state) := rfl

@[simp] theorem throw_apply (error : ε) (state : σ) :
    (throw error : EStateM ε σ α) state = .error error state := rfl

/-- A step that has succeeded hands its result on. -/
theorem bind_of_ok {step : EStateM ε σ α} {next : α → EStateM ε σ β} {state later : σ} {a : α}
    (ok : step state = .ok a later) : (step >>= next) state = next a later := by
  rw [bind_apply, ok]

/-- A step that has failed ends the run. -/
theorem bind_of_error {step : EStateM ε σ α} {next : α → EStateM ε σ β} {state later : σ}
    {error : ε} (failed : step state = .error error later) :
    (step >>= next) state = .error error later := by
  rw [bind_apply, failed]

end Steps

section Contexts

variable {α ε : Type}

@[simp] theorem record_apply (event : Event) (context : Context) :
    record event context = .ok () { context with journal := event :: context.journal } := rfl

theorem restoring_apply (step : Run α) (restore : Context → Context) (context : Context) :
    restoring step restore context = match step context with
      | .ok result context => .ok result (restore context)
      | .error error context => .error error (restore context) := rfl

theorem markVisited_apply (ref : BeanRef) (context : Context) :
    markVisited ref context = if context.visited.contains ref.id then .ok false context
      else .ok true { context with visited := ref.id :: context.visited } := by
  simp only [markVisited, bind_apply, get_apply]
  split <;> rfl

theorem markProcessed_apply (place : NodePlace) (context : Context) :
    markProcessed place context = match context.bean.bean? with
      | none => .ok true context
      | some ref =>
        if context.processed.contains (ref.id, place) then .ok false context
        else .ok true { context with processed := (ref.id, place) :: context.processed } := by
  simp only [markProcessed, bind_apply, get_apply]
  cases context.bean.bean? with
  | none => rfl
  | some ref =>
    dsimp only
    split <;> rfl

end Contexts

end Run

end GraphValidation
