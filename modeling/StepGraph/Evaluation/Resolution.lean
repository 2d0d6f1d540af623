import StepGraph.Evaluation.Steps

/-!
# Resolving paths

A path is looked for among the published values of a context. Where it is not found, the step
that its first segment refers to is run, then the template of that name is called, and last, for
a path into the inputs, the context of the caller is asked for the rest. After each attempt the
path is looked for again.
-/
namespace StepGraph

/-- What comes before the name of a template in the name of a call that a path brought about. -/
def implicitCallMark : String := "__implicit__"

/-- The characters after those of another list, if they stand in front. -/
def charactersAfter? : List Char → List Char → Option (List Char)
  | [], text => some text
  | wanted :: others, character :: text =>
    if wanted = character then charactersAfter? others text else none
  | _ :: _, [] => none

/-- The path that is left inside the inputs. -/
def insideInputs? (path : String) : Option String :=
  (charactersAfter? (inputsKey ++ ".").toList path.toList).map String.ofList

namespace Interpreter

variable {σ : Type} (settings : Settings σ) (inner : Interpreter σ) (id : ContextId)

/-- The published value at a path. -/
def lookup (path : String) : Run σ (Option Value) := do
  let context ← Run.context id
  match Path.resolve context.values path with
  | .ok found => pure found
  | .error cause => Run.fail (.path cause)

/-- Run the step that a path refers to, unless it has been run, and look again. -/
def resolveByStep (path : String) : Run σ (Option Value) := do
  let context ← Run.context id
  match Graph.findStep? context.graph (Path.head path) with
  | some step =>
    if context.hasExecuted step.name then pure none
    else do
      execute inner id step
      lookup id path
  | none => pure none

/-- Call a template on the values of this context and publish its output, hidden, under its name.
A template is called in this way once; tell whether it was called now. -/
def callTemplate (name : String) (graph : Graph) : Run σ Bool := do
  let call := implicitCallMark ++ name
  if ← Run.mark id call then
    Run.trace settings (.implicitCall name)
    let output ← inner.activate call graph none (some id)
    Run.publish settings id name (.object output) true
    pure true
  else pure false

/-- Call the template that a path refers to, and look again. -/
def resolveByTemplate (path : String) : Run σ (Option Value) := do
  match ← Run.template? (Path.head path) with
  | some graph =>
    if ← callTemplate settings inner id (Path.head path) graph then lookup id path
    else pure none
  | none => pure none

/-- Resolve a path into the inputs in the context of the caller. -/
def resolveByCaller (path : String) : Run σ (Option Value) := do
  let context ← Run.context id
  match insideInputs? path, context.parent with
  | some rest, some parent => inner.resolve parent rest
  | _, _ => pure none

/-- The value at a path, whatever has to be run for it. -/
def tryResolve (path : String) : Run σ (Option Value) :=
  Run.orElse (lookup id path) <|
    Run.orElse (resolveByStep inner id path) <|
      Run.orElse (resolveByTemplate settings inner id path) <|
        resolveByCaller inner id path

end Interpreter

end StepGraph
