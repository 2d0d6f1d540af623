import StepGraph.Document.Loading
import StepGraph.Evaluation.Resolution

/-!
# Activations

Activating a graph runs its steps in a new context, unless activations are nested as deeply as
allowed. The operations that refer to each other are tied together by levels: at level zero
everything is cut off, and each level runs on the one below it. An activation uses up depth, a
step that is run is never run again in its context, and asking the caller shortens the path, so
that a level computed from the graph is enough for every run of it.
-/
namespace StepGraph

namespace Interpreter

variable {σ : Type} (settings : Settings σ)

/-- The output of a graph that is run under a name. -/
def nested (inner : Interpreter σ) (name : String) (graph : Graph) (inputs : Option Value)
    (parent : Option ContextId) : Run σ Object := do
  let state ← Run.getState
  if settings.config.maxDepth ≤ state.depth then
    Run.fail (.cyclicReference name settings.config.maxDepth)
  else
    Run.inside (Context.start graph inputs parent)
      (executeAll inner state.contexts.length (Graph.hoisted graph))

/-- The operations at a level. -/
def level : Nat → Interpreter σ
  | 0 =>
    { resolve := fun _ _ => Run.stuck .cutOff
      perform := fun _ _ => Run.stuck .cutOff
      activate := fun _ _ _ _ => Run.stuck .cutOff }
  | below + 1 =>
    { resolve := fun id path state => tryResolve settings (level below) id path state
      perform := fun id step state => dispatch settings (level below) id step state
      activate := fun name graph inputs parent state =>
        nested settings (level below) name graph inputs parent state }

end Interpreter

namespace Step

/-- The texts of a value that are resolved as paths when it stands for parameters. -/
def pathsOfParams : Value → List String
  | .object entries => entries.filterMap fun entry => entry.2.string?
  | .string path => [path]
  | _ => []

/-- The texts of an action that are resolved as paths. -/
def pathsOfAction : Action → List String
  | .static _ => []
  | .alias mirror => [mirror]
  | .dereference objectPath propNamePath => [objectPath, propNamePath]
  | .branch test _ nodeNames => test :: nodeNames.filterMap Value.string?
  | .transform _ params => pathsOfParams params
  | .comment => []

/-- The texts of a step that are resolved as paths in its own context. -/
def paths : Step → List String
  | .action _ done => pathsOfAction done
  | .graph _ invocation _ => (invocation.inputs.map pathsOfParams).getD []

mutual
/-- The number of steps in a step and its bodies. -/
def size : Step → Nat
  | .graph _ _ (.inline steps) => sizeOfAll steps + 1
  | .graph _ _ (.template _) => 1
  | .action _ _ => 1

/-- The number of steps in a list and in all bodies. -/
def sizeOfAll : List Step → Nat
  | [] => 0
  | step :: rest => size step + sizeOfAll rest
end

/-- The length of the longest of some texts. -/
def longest (texts : List String) : Nat := (texts.map String.length).foldr max 0

mutual
/-- The length of the longest path in a step and its bodies. -/
def longestPath : Step → Nat
  | .graph header invocation (.inline steps) =>
    max (longest (paths (.graph header invocation (.inline steps)))) (longestPathOfAll steps)
  | .graph header invocation (.template name) =>
    longest (paths (.graph header invocation (.template name)))
  | .action header done => longest (paths (.action header done))

/-- The length of the longest path in a list of steps and in all bodies. -/
def longestPathOfAll : List Step → Nat
  | [] => 0
  | step :: rest => max (longestPath step) (longestPathOfAll rest)
end

end Step

/-- A level that is enough for every run of a graph with so much depth. Each activation is paid for
by one unit of depth, which is worth one more than all steps of the graph together; each step
that is run is paid for by itself; and each is worth running it and a walk from caller to caller
along the longest path. -/
def sufficientLevel (graph : Graph) (maxDepth : Nat) : Nat :=
  maxDepth * (Step.sizeOfAll graph + 1) * (Step.longestPathOfAll graph + 3) + 1

/-- The name of the first activation of a run. -/
def rootName : String := "<root>"

namespace Run

variable {σ : Type} (settings : Settings σ)

/-- The output of a graph on inputs. What an earlier run left behind is cleared away first. -/
def graph (graph : Graph) (inputs : Value) : Run σ Object := do
  update State.reset
  (Interpreter.level settings (sufficientLevel graph settings.config.maxDepth)).activate
    rootName graph (some inputs) none

/-- The output of a stored document on inputs. -/
def document (stored : Value) (inputs : Value) : Run σ Object :=
  match Document.load stored with
  | .error cause => fail (.graph cause)
  | .ok document => do
    trace settings (.executing document.label document.data.length)
    Run.graph settings document.data inputs

end Run

end StepGraph
