/-
TwinRegion.Step — steps on a state that may fail.

A step ends with a value or a failure, and either way with the state that
it has reached: a medium cannot take back what was written before the
failure. The equations say what the building blocks of a step do when it
is run, so that `simp` can run one.
-/
import TwinRegion.Error

namespace TwinRegion

/-- A step on a state: a value or a failure, and in both cases the state reached. -/
abbrev StepM (σ : Type) := EStateM Failure σ

/-- A computation that reads no state joins a step as it is. -/
instance {σ : Type} : MonadLift (Except Failure) (StepM σ) where
  monadLift
    | .ok value => pure value
    | .error failure => throw failure

namespace StepM

variable {σ τ α : Type}

/-- Turns a refusal into a value; a fault still ends the step. -/
def attempt (step : StepM σ α) : StepM σ (Except Error α) := fun s =>
  match step.run s with
  | .ok value s => .ok (.ok value) s
  | .error (.refused error) s => .ok (.error error) s
  | .error (.fault fault) s => .error (.fault fault) s

/-- Runs a step on a part of the state and puts the part back, failed or not. -/
def focus (get : τ → σ) (set : σ → τ → τ) (step : StepM σ α) : StepM τ α := fun t =>
  match step.run (get t) with
  | .ok value s => .ok value (set s t)
  | .error failure s => .error failure (set s t)

@[simp] theorem run_lift_ok (value : α) (s : σ) :
    EStateM.run (liftM (Except.ok value : Except Failure α) : StepM σ α) s = .ok value s := rfl

@[simp] theorem run_lift_error (failure : Failure) (s : σ) :
    EStateM.run (liftM (Except.error failure : Except Failure α) : StepM σ α) s =
      .error failure s := rfl

@[simp] theorem run_refuse (error : Error) (s : σ) :
    EStateM.run (liftM (refuse error : Except Failure α) : StepM σ α) s =
      .error (.refused error) s := rfl

@[simp] theorem run_throw (failure : Failure) (s : σ) :
    EStateM.run (throw failure : StepM σ α) s = .error failure s := rfl

@[simp] theorem run_attempt (step : StepM σ α) (s : σ) :
    EStateM.run step.attempt s =
      match step.run s with
      | .ok value s => .ok (.ok value) s
      | .error (.refused error) s => .ok (.error error) s
      | .error (.fault fault) s => .error (.fault fault) s := rfl

@[simp] theorem run_focus (get : τ → σ) (set : σ → τ → τ) (step : StepM σ α) (t : τ) :
    EStateM.run (focus get set step) t =
      match step.run (get t) with
      | .ok value s => .ok value (set s t)
      | .error failure s => .error failure (set s t) := rfl

@[simp] theorem run_ite (p : Prop) [Decidable p] (yes no : StepM σ α) (s : σ) :
    EStateM.run (if p then yes else no) s = if p then yes.run s else no.run s := by
  split <;> rfl

end StepM

end TwinRegion
