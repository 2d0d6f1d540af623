import StepGraph.Evaluation.Run
import StepGraph.Value.Equality

/-!
# Running steps

Each step is run by resolving its paths and publishing what comes of it. Three operations lead
back into the run as a whole, resolving a path, running a step and activating a graph; they are
taken from an `Interpreter`, so that everything here is plain composition.
-/
namespace StepGraph

/-- The three operations that lead back into the run as a whole. -/
structure Interpreter (σ : Type) where
  /-- The value at a path in a context, or nothing. -/
  resolve : ContextId → String → Run σ (Option Value)
  /-- Run a step in a context, whether it has been run or not. -/
  perform : ContextId → Step → Run σ Unit
  /-- The output of a graph run under a name, on inputs and with a caller to read from. -/
  activate : String → Graph → Option Value → Option ContextId → Run σ Object

/-- The case that matches any tested value. -/
def defaultCase : String := "_default_"

/-- The input that a body is run over. -/
def collectionInput : String := "collection"

/-- The input that holds the element a body is run for. -/
def itemInput : String := "item"

/-- Whether a case matches any tested value. -/
def isDefaultCase (case : Value) : Bool := case.string? == some defaultCase

/-- The position of the case that a tested value selects: the first one loosely equal to it,
failing that the first default. -/
def selectedCase? (cases : List Value) (tested : Value) : Option Nat :=
  (cases.findIdx? fun case => case.looselyEqual tested).or (cases.findIdx? isDefaultCase)

/-- The entry that a key selects: of an object by the text of the key, of an array by the position
that it names. An entry that is not there is null. -/
def entryAt (step : String) (holder key : Value) : Except Failure Value :=
  match holder, key with
  | .object fields, .string name => .ok ((Dictionary.find? fields name).getD .null)
  | .object fields, .number number => .ok ((Dictionary.find? fields number.text).getD .null)
  | .array items, .number number =>
    .ok ((number.position?.bind fun position => items[position]?).getD .null)
  | .array items, .string text =>
    .ok (((Path.position? text).bind fun position => items[position]?).getD .null)
  | holder, key => .error (.typeMismatch step (.index holder.kind key.kind))

/-- The failure of a path with a wildcard that nothing answers to. -/
def unresolvedWildcard (path : String) : PathError :=
  match Path.wildcardTarget? path with
  | some target => .notIterable path target
  | none => .unsupported path

namespace Interpreter

variable {σ : Type}

section Resolving

variable (inner : Interpreter σ) (id : ContextId)

/-- The value of a path: what it resolves to, or its own text with a warning when nothing answers
to it. A path with a wildcard has no text to fall back to. -/
def resolvePath (path : String) : Run σ Value := do
  match ← inner.resolve id path with
  | some value => pure value
  | none =>
    if Path.hasWildcard path then Run.fail (.path (unresolvedWildcard path))
    else do
      Run.warn (.unresolved path)
      pure (.string path)

/-- The value of a text as a path, and of anything else as itself. -/
def resolveValue (value : Value) : Run σ Value :=
  match value with
  | .string path => resolvePath inner id path
  | literal => pure literal

/-- Entries with their values resolved in order. -/
def resolveEntries (entries : Object) : Run σ Object :=
  Run.collect (fun entry => do pure (entry.1, ← resolveValue inner id entry.2)) entries

/-- Parameters resolved: entry by entry in an object, as one value otherwise. -/
def resolveParams (params : Value) : Run σ Value :=
  match params with
  | .object entries => do pure (.object (← resolveEntries inner id entries))
  | other => resolveValue inner id other

/-- The inputs that a step gives its body. -/
def resolveInputs (step : String) (inputs : Option Value) : Run σ Object :=
  match inputs with
  | none => pure []
  | some inputs => do
    match ← resolveParams inner id inputs with
    | .object fields => pure fields
    | other => Run.fail (.typeMismatch step (.inputs other.kind))

end Resolving

section Running

variable (settings : Settings σ) (inner : Interpreter σ) (id : ContextId)

/-- The value of the node that a branch selects. -/
def runBranch (step test : String) (cases nodeNames : List Value) : Run σ Value := do
  let tested ← resolvePath inner id test
  match (selectedCase? cases tested).bind fun position => nodeNames[position]? with
  | some node => resolveValue inner id node
  | none => Run.fail (.noMatchingCase step tested)

/-- The answer of a function on resolved parameters. -/
def runTransform (step function : String) (params : Value) : Run σ Value :=
  if settings.registry.contains function then do
    let params ← resolveParams inner id params
    Run.trace settings (.calling step function params)
    match ← Run.call settings function params with
    | .ok value => pure value
    | .error cause => Run.fail (.transform step function cause)
  else Run.fail (.unknownTransform step function)

/-- The result of an action, if it has one. -/
def runAction (step : String) (action : Action) : Run σ (Option Value) :=
  match action with
  | .static value => pure (some value)
  | .alias mirror => do pure (some (← resolvePath inner id mirror))
  | .dereference objectPath propNamePath => do
    let holder ← resolvePath inner id objectPath
    let key ← resolvePath inner id propNamePath
    match entryAt step holder key with
    | .ok value => pure (some value)
    | .error failure => Run.fail failure
  | .branch test cases nodeNames => do
    pure (some (← runBranch inner id step test cases nodeNames))
  | .transform function params => do
    pure (some (← runTransform settings inner id step function params))
  | .comment => pure none

/-- The steps of a body. -/
def bodyGraph (step : String) (body : Body Step) : Run σ Graph :=
  match body with
  | .inline steps => pure steps
  | .template name => do
    match ← Run.template? name with
    | some graph => pure graph
    | none => Run.fail (.undefinedTemplate step name)

/-- Run a body in a context of its own. -/
def runPlain (header : Header) (inputs : Option Value) (graph : Graph) : Run σ Unit := do
  let inputs ← resolveInputs inner id header.name inputs
  let output ← inner.activate header.name graph (some (.object inputs)) none
  Run.publish settings id header.name (.object output) header.isHidden

/-- The output of a body for one element of a collection. -/
def runElement (step : String) (graph : Graph) (inputs : Object) (element : Value) :
    Run σ Value := do
  let inputs := Dictionary.insert inputs itemInput element
  pure (.object (← inner.activate step graph (some (.object inputs)) none))

/-- Run a body for each element of the input collection, each time in a context of its own. -/
def runMap (header : Header) (inputs : Option Value) (graph : Graph) : Run σ Unit := do
  let inputs ← resolveInputs inner id header.name inputs
  match Dictionary.find? inputs collectionInput with
  | some (.array elements) => do
    let outputs ← Run.collect (runElement inner header.name graph inputs) elements
    Run.publish settings id header.name (.array outputs) header.isHidden
  | other => Run.fail (.typeMismatch header.name (.collection (other.map Value.kind)))

/-- Run a body in a context that may read from this one. -/
def runNamespaced (header : Header) (key : String) (inputs : Option Value) (graph : Graph) :
    Run σ Unit := do
  let inputs ←
    match inputs with
    | none => pure none
    | some inputs => do
      pure (some (Value.object (← resolveInputs inner id header.name (some inputs))))
  let output ← inner.activate header.name graph inputs (some id)
  Run.publish settings id key (.object output) header.isHidden

/-- Run a body in a mode. -/
def runBody (header : Header) (inputs : Option Value) (graph : Graph) (mode : Mode) :
    Run σ Unit :=
  match mode with
  | .plain => runPlain settings inner id header inputs graph
  | .map => runMap settings inner id header inputs graph
  | .namespaced key => runNamespaced settings inner id header key inputs graph

/-- Define the template of a step, or run its body. -/
def runGraph (header : Header) (invocation : Invocation) (body : Body Step) : Run σ Unit := do
  let graph ← bodyGraph header.name body
  match invocation.mode? body with
  | none => do
    Run.trace settings (.templateDefined header.name)
    Run.define header.name graph
  | some mode => do
    Run.trace settings (.subgraphStarted header.name mode)
    runBody settings inner id header invocation.inputs graph mode
    Run.trace settings (.subgraphEnded header.name)

/-- Run a step, whether it has been run or not. -/
def dispatch (step : Step) : Run σ Unit :=
  match step with
  | .action header action => do
    match ← runAction settings inner id header.name action with
    | some value => Run.publish settings id header.name value header.isHidden
    | none => pure ()
  | .graph header invocation body => runGraph settings inner id header invocation body

end Running

section Executing

variable (inner : Interpreter σ) (id : ContextId)

/-- Run a step unless it does nothing or has been run in this context. -/
def execute (step : Step) : Run σ Unit :=
  if step.isComment then pure ()
  else do
    if ← Run.mark id step.name then inner.perform id step

/-- Run steps in order. -/
def executeAll (steps : List Step) : Run σ Unit :=
  Run.forEach (execute inner id) steps

end Executing

end Interpreter

end StepGraph
