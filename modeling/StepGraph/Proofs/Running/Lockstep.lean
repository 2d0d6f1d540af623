import StepGraph.Proofs.Running.Simulation

/-!
# Runs in lockstep

Two runs of the same graphs, with settings and observers of their own, stay in lockstep when each
primitive keeps them related. `Lockstep` lists what the relation has to be kept by; it is a
simulation in which everything is paired with itself, so that `Lockstep.level` draws the conclusion
for every level. An invariant of one run is the case in which both runs are the same.

The runs stay within a scope: they run graphs that are known and look up texts that may be met. So
they need not be in the same contexts, as long as they cannot tell these apart.
-/
namespace StepGraph

variable {σ τ α : Type}

namespace Context

/-- Contexts that a run within a scope cannot tell apart: it reads the same values in them, asks the
same caller, and has the same steps and calls still to run. -/
structure Alike (scope : Scope) (left right : Context) : Prop where
  /-- The same is published. -/
  values : left.values = right.values
  /-- The caller is the same. -/
  parent : left.parent = right.parent
  /-- Paths wait for the same steps. -/
  awaits : ∀ {path}, scope.met path → left.awaited? path = right.awaited? path
  /-- A step that a path waits for stands in a known graph. -/
  known : ∀ {path step}, scope.met path → left.awaited? path = some step →
    scope.known left.graph
  /-- Of the steps of a known graph the same have been run. -/
  runs : scope.known left.graph → ∀ step ∈ left.graph,
    left.hasExecuted step.name = right.hasExecuted step.name
  /-- The same calls have been made. -/
  calls : ∀ {name}, scope.met name →
    left.hasExecuted (implicitCallMark ++ name) = right.hasExecuted (implicitCallMark ++ name)

/-- A context of a known graph cannot be told apart from itself. -/
theorem Alike.refl {scope : Scope} {context : Context} (known : scope.known context.graph) :
    context.Alike scope context :=
  ⟨rfl, rfl, fun _ => rfl, fun _ _ => known, fun _ _ _ => rfl, fun _ => rfl⟩

/-- Contexts that a run within a scope cannot tell apart cannot be told apart where every step is
run in its own place. -/
theorem Alike.paired {scope : Scope} {left right : Context} (alike : left.Alike scope right) :
    left.Paired (.same scope) right where
  values := alike.values
  parent := alike.parent
  awaits := by
    intro path met
    rw [← alike.awaits met]
    cases awaited : left.awaited? path with
    | none => exact .none
    | some step =>
      obtain ⟨member, acts, -⟩ :=
        Graph.findStep?_eq_some (awaited?_eq_some_iff.mp awaited).1
      exact .some ⟨rfl, alike.known met awaited, member, acts⟩
  runs := by
    rintro step _ ⟨rfl, known, member, -⟩
    exact alike.runs known step member
  calls := alike.calls

end Context

/-- What keeps two runs in lockstep, in contexts that they may reach and within a scope. -/
structure Lockstep (fail : List Graph → State σ → State τ → Prop) (left : Settings σ)
    (right : Settings τ) (watch : Observer σ) (watch' : Observer τ)
    (live : List Graph → ContextId → Prop) (scope : Scope)
    (rel : Frame → State σ → State τ → Prop) : Prop where
  /-- Outside of contexts the runs agree. -/
  basis : ∀ frame, Interpreter.Basis True (fail frame.graphs) (rel frame) scope left right
  /-- Both runs may nest equally deep. -/
  maxDepth : left.config.maxDepth = right.config.maxDepth
  /-- Activations are nested equally deep, and as many contexts are alive as the frame has
  graphs. -/
  shape : ∀ {frame first second}, rel frame first second → first.depth = second.depth ∧
    first.contexts.length = frame.graphs.length ∧ second.contexts.length = frame.graphs.length
  /-- The latest context runs the latest graph and may be reached. -/
  latest : ∀ {frame before before' first second graph}, rel frame before before' →
    rel (frame.deeper graph) first second →
    live (frame.deeper graph).graphs frame.graphs.length ∧
      ∃ context, first.contexts[frame.graphs.length]? = some context ∧ context.graph = graph
  /-- A context that may be reached cannot be told apart from the one in its place in the other
  run, and its caller may be reached. -/
  context : ∀ {frame first second id context}, rel frame first second → live frame.graphs id →
    first.contexts[id]? = some context →
    (∃ context', second.contexts[id]? = some context' ∧ context.Alike scope context') ∧
      ∀ caller, context.parent = some caller → live frame.graphs caller
  /-- The search for a path begins. -/
  resolveBegins : ∀ {frame first second id path}, rel frame first second → live frame.graphs id →
    rel frame (watch.began (.resolve id path) first) (watch'.began (.resolve id path) second)
  /-- The search for a path ends. -/
  resolveEnds : ∀ {frame first second id path}, rel frame first second → live frame.graphs id →
    rel frame (watch.ended (.resolve id path) first) (watch'.ended (.resolve id path) second)
  /-- A step is marked and begins to be run. -/
  stepBegins : ∀ {frame first second id context context' step}, rel frame first second →
    live frame.graphs id →
    first.contexts[id]? = some context → second.contexts[id]? = some context' →
    scope.known context.graph → step ∈ context.graph → step.isComment = false →
    context.hasExecuted step.name = false →
    rel (frame.begin id (.step step))
      (watch.began (.perform id step) (first.setContext id (context.mark step.name)))
      (watch'.began (.perform id step) (second.setContext id (context'.mark step.name)))
  /-- A step commits its effect and ends. -/
  stepEnds : ∀ {frame id step effect}, live frame.graphs id → step.isComment = false →
    effect.Fits scope.known step →
    Run.Agrees True (fail frame.graphs) (rel (frame.begin id (.step step)))
      (fun _ first second => rel frame (watch.ended (.perform id step) first)
        (watch'.ended (.perform id step) second))
      (Interpreter.commit left id step effect) (Interpreter.commit right id step effect)
  /-- The call of a template is marked and begins. -/
  callBegins : ∀ {frame first second id context context' name graph}, rel frame first second →
    live frame.graphs id →
    first.contexts[id]? = some context → second.contexts[id]? = some context' →
    scope.met name → Dictionary.find? first.templates name = some graph →
    context.hasExecuted (implicitCallMark ++ name) = false →
    rel (frame.begin id (.call name))
      (first.setContext id (context.mark (implicitCallMark ++ name)))
      (second.setContext id (context'.mark (implicitCallMark ++ name)))
  /-- The call of a template publishes its output and ends. -/
  callEnds : ∀ {frame id name output}, live frame.graphs id →
    Run.Agrees True (fail frame.graphs) (rel (frame.begin id (.call name))) (fun _ => rel frame)
      (Run.publish left id name output true) (Run.publish right id name output true)
  /-- An activation begins. -/
  activateBegins : ∀ {frame first second graph caller} (name : String) (inputs : Option Value),
    rel frame first second → scope.known graph →
    (∀ id, caller = some id → live frame.graphs id) →
    rel frame (watch.began (.activate name graph inputs caller) first)
      (watch'.began (.activate name graph inputs caller) second)
  /-- The context of an activation is entered. -/
  enters : ∀ {frame first second graph caller} (name : String) (inputs : Option Value),
    scope.known graph → (∀ id, caller = some id → live frame.graphs id) →
    rel frame first second →
    (watch.began (.activate name graph inputs caller) first).depth < left.config.maxDepth →
    rel (frame.deeper graph)
      ((watch.began (.activate name graph inputs caller) first).enter
        (Context.start graph inputs caller))
      ((watch'.began (.activate name graph inputs caller) second).enter
        (Context.start graph inputs caller))
  /-- The context of an activation is left, which ends. -/
  leaves : ∀ {frame before before' first second graph} (name : String) (inputs : Option Value)
    (caller : Option ContextId), (∀ id, caller = some id → live frame.graphs id) →
    rel frame before before' → rel (frame.deeper graph) first second →
    first.latestOutput = second.latestOutput ∧
      rel frame (watch.ended (.activate name graph inputs caller) first.leave)
        (watch'.ended (.activate name graph inputs caller) second.leave)
  /-- The context of an activation is left after a failure. -/
  abandons : ∀ {frame before before' first second graph}, rel frame before before' →
    fail (frame.deeper graph).graphs first second →
    fail frame.graphs first.leave second.leave

/-- Two sets of operations agree on everything that may be reached. -/
structure Interpreter.Follows (fail : List Graph → State σ → State τ → Prop) (watch : Observer σ)
    (watch' : Observer τ) (live : List Graph → ContextId → Prop) (scope : Scope)
    (rel : Frame → State σ → State τ → Prop) (inner : Interpreter σ) (inner' : Interpreter τ) :
    Prop where
  /-- Looking for a path agrees. -/
  resolve : ∀ {frame id path}, live frame.graphs id → scope.met path →
    Run.Preserve True (fail frame.graphs) (rel frame) (inner.resolve id path)
      (inner'.resolve id path)
  /-- Running a step that is about to begin agrees. -/
  perform : ∀ {frame first second id graph step}, live frame.graphs id → scope.known graph →
    step ∈ graph → step.isComment = false →
    rel (frame.begin id (.step step)) (watch.began (.perform id step) first)
      (watch'.began (.perform id step) second) →
    Outcome.Agrees True (fail frame.graphs) (fun _ => rel frame) (inner.perform id step first)
      (inner'.perform id step second)
  /-- Activating a graph agrees. -/
  activate : ∀ {frame name graph inputs caller}, scope.known graph →
    (∀ id, caller = some id → live frame.graphs id) →
    Run.Preserve True (fail frame.graphs) (rel frame) (inner.activate name graph inputs caller)
      (inner'.activate name graph inputs caller)

namespace Lockstep

open Interpreter

variable {fail : List Graph → State σ → State τ → Prop} {left : Settings σ} {right : Settings τ}
  {watch : Observer σ} {watch' : Observer τ} {live : List Graph → ContextId → Prop}
  {scope : Scope} {rel : Frame → State σ → State τ → Prop}

/-- Runs in lockstep simulate each other with everything in its own place. -/
theorem simulation (lockstep : Lockstep fail left right watch watch' live scope rel) :
    Simulation fail left right watch watch' (fun graphs id _ => live graphs id) (.same scope)
      rel where
  congruence := fun frame => (lockstep.basis frame).congruence
  aborts := fun frame => (lockstep.basis frame).aborts
  templates := fun {frame _ _ _} related met => (lockstep.basis frame).templates_paired related met
  maxDepth := lockstep.maxDepth
  shape := lockstep.shape
  latest := lockstep.latest
  context := by
    intro frame first second id graph context related reached alive
    obtain ⟨⟨context', alive', alike⟩, callers⟩ := lockstep.context related reached alive
    exact ⟨reached, ⟨context', alive', alike.paired⟩,
      fun caller calls => ⟨graph, callers caller calls⟩⟩
  resolveBegins := lockstep.resolveBegins
  resolveEnds := lockstep.resolveEnds
  stepBegins := by
    rintro frame first second id context context' step _ related reached alive alive'
      ⟨rfl, known, member, acts⟩ fresh
    exact lockstep.stepBegins related reached alive alive' known member acts fresh
  stepEnds := by
    rintro frame id graph step _ effect effect' reached ⟨rfl, -, -, acts⟩ effects
    obtain ⟨rfl, fits⟩ := effects.fits
    exact lockstep.stepEnds reached acts fits
  callBegins := lockstep.callBegins
  callEnds := lockstep.callEnds
  activateBegins := by
    rintro frame first second graph _ caller name inputs related ⟨rfl, known⟩ callers
    exact lockstep.activateBegins name inputs related known fun id same =>
      (callers id same).elim fun _ reached => reached
  enters := by
    rintro frame first second graph _ caller name inputs ⟨rfl, known⟩ callers related shallow
    exact lockstep.enters name inputs known
      (fun id same => (callers id same).elim fun _ reached => reached) related shallow
  leaves := by
    rintro frame before before' first second graph _ name inputs caller ⟨rfl, -⟩ callers begun
      related
    exact lockstep.leaves name inputs caller
      (fun id same => (callers id same).elim fun _ reached => reached) begun related
  abandons := lockstep.abandons

/-- Operations that follow each other are those that simulate each other with everything in its own
place. -/
theorem follows_iff {inner : Interpreter σ} {inner' : Interpreter τ} :
    Follows fail watch watch' live scope rel inner inner' ↔
      Simulates fail watch watch' (fun graphs id _ => live graphs id) (.same scope) rel inner
        inner' := by
  constructor
  · intro follows
    refine ⟨fun _ => follows.resolve, ?_, ?_⟩
    · rintro frame first second id graph step _ reached ⟨rfl, known, member, acts⟩ begun
      exact follows.perform reached known member acts begun
    · rintro frame name graph _ inputs caller ⟨rfl, known⟩ callers
      exact follows.activate known fun id same => (callers id same).elim fun _ reached => reached
  · intro simulates
    exact ⟨simulates.resolve [], fun reached known member acts begun =>
        simulates.perform reached ⟨rfl, known, member, acts⟩ begun,
      fun known reached => simulates.activate ⟨rfl, known⟩ fun id same => ⟨[], reached id same⟩⟩

/-- Running steps of the graph of the latest context agrees. -/
theorem preserve_executeAll (lockstep : Lockstep fail left right watch watch' live scope rel)
    {inner : Interpreter σ} {inner' : Interpreter τ}
    (follows : Follows fail watch watch' live scope rel inner inner') {frame : Frame}
    {before : State σ} {before' : State τ} (begun : rel frame before before') {graph : Graph}
    (known : scope.known graph) {steps : List Step} (members : ∀ step ∈ steps, step ∈ graph) :
    Run.Preserve True (fail (frame.deeper graph).graphs) (rel (frame.deeper graph))
      (executeAll inner frame.graphs.length steps)
      (executeAll inner' frame.graphs.length steps) := by
  refine lockstep.simulation.preserve_executeAll (follows_iff.mp follows) begun
    (List.forall₂_same.mpr fun step member => ?_)
  obtain ⟨there, acts⟩ := Graph.mem_acting.mp member
  exact ⟨rfl, known, members step there, acts⟩

/-- Operations at a level agree with those at any level from there on. -/
theorem level (lockstep : Lockstep fail left right watch watch' live scope rel) (n m : Nat)
    (enough : n ≤ m) :
    Follows fail watch watch' live scope rel (observed left watch n) (observed right watch' m) :=
  follows_iff.mpr (lockstep.simulation.level n m enough)

end Lockstep

end StepGraph
