import StepGraph.Proofs.Running.Primitives

/-!
# Observed runs

The operations that lead back into a run are its calls. An observer is told when a call begins
and when it ends with a value, and may keep an account in the state. A run with a silent observer
is the run itself, so that what holds of observed runs holds of runs.
-/
namespace StepGraph

/-- An operation that leads back into a run, with all it is given. -/
inductive Call where
  /-- A path is looked for in a context. -/
  | resolve (id : ContextId) (path : String)
  /-- A step is run in a context. -/
  | perform (id : ContextId) (step : Step)
  /-- A graph is activated under a name, on inputs and with a caller to read from. -/
  | activate (name : String) (graph : Graph) (inputs : Option Value) (parent : Option ContextId)
deriving DecidableEq

/-- An account that is kept of the calls of a run. -/
structure Observer (σ : Type) where
  /-- The state once a call has begun. -/
  began : Call → State σ → State σ
  /-- The state once a call has ended with a value. -/
  ended : Call → State σ → State σ

variable {σ α : Type}

/-- The observer that keeps no account. -/
def Observer.silent : Observer σ := ⟨fun _ => id, fun _ => id⟩

/-- A run as the call it is, with its begin and its end observed. -/
def Observer.around (observer : Observer σ) (call : Call) (run : Run σ α) : Run σ α := fun state =>
  match run (observer.began call state) with
  | .done value state => .done value (observer.ended call state)
  | .failed failure state => .failed failure state
  | .stuck reason => .stuck reason

namespace Interpreter

/-- The operations at a level, each call being observed. -/
def observed (settings : Settings σ) (observer : Observer σ) : Nat → Interpreter σ
  | 0 =>
    { resolve := fun _ _ => Run.stuck .cutOff
      perform := fun _ _ => Run.stuck .cutOff
      activate := fun _ _ _ _ => Run.stuck .cutOff }
  | below + 1 =>
    let inner := observed settings observer below
    { resolve := fun id path =>
        observer.around (.resolve id path) (tryResolve settings inner id path)
      perform := fun id step =>
        observer.around (.perform id step) (dispatch settings inner id step)
      activate := fun name graph inputs parent =>
        observer.around (.activate name graph inputs parent)
          (nested settings inner name graph inputs parent) }

/-- The silent observer changes nothing. -/
theorem around_silent (call : Call) (run : Run σ α) : Observer.silent.around call run = run := by
  funext state
  show (match run state with
    | .done value state => .done value state
    | .failed failure state => .failed failure state
    | .stuck reason => .stuck reason) = run state
  cases run state <;> rfl

/-- The operations at a level are those that a silent observer sees. -/
theorem observed_silent (settings : Settings σ) (n : Nat) :
    observed settings .silent n = level settings n := by
  induction n with
  | zero => rfl
  | succ below ih => simp only [observed, level, ih, around_silent]

end Interpreter

end StepGraph
