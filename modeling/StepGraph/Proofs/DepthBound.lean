import StepGraph.Proofs.Running.Recording

/-!
# The bound on the depth

Activations nest no deeper than a run is allowed, and a run that would go deeper is cut off by a
failure. Nothing else depends on the bound: no step reads it, and no failure is ever caught, so that
a run which is not cut off takes the same course under every larger bound. `Run.Extends` says this of
single operations, for all states alike, and is kept by the ways in which runs are put together; only
where an activation begins do the two bounds make a difference, and there the run with the smaller
one is cut off.
-/
namespace StepGraph

variable {σ α β : Type}

/-- The settings with another bound on the depth. -/
def Settings.within (settings : Settings σ) (maxDepth : Nat) : Settings σ :=
  ⟨settings.registry, { settings.config with maxDepth }⟩

/-- Listing calls does not depend on the bound. -/
theorem Settings.recording_within (settings : Settings σ) (maxDepth : Nat) :
    (settings.within maxDepth).recording = settings.recording.within maxDepth := rfl

/-- A run that has no end, or has failed because it would have gone too deep. -/
def Outcome.IsCut : Outcome σ α → Prop
  | .stuck _ => True
  | .failed (.cyclicReference _ _) _ => True
  | _ => False

/-- A run that is neither stuck nor has gone too deep is not cut off. -/
theorem Outcome.not_isCut {outcome : Outcome σ α} (ends : ∀ reason, outcome ≠ .stuck reason)
    (shallow : ∀ activation depth last,
      outcome ≠ .failed (.cyclicReference activation depth) last) : ¬outcome.IsCut := by
  intro cut
  cases outcome with
  | done value last => exact cut
  | failed failure last =>
    cases failure with
    | cyclicReference activation depth => exact shallow activation depth last rfl
    | _ => exact cut
  | stuck reason => exact ends reason rfl

namespace Run

/-- A run comes to the same as another one from every state, unless that one is cut off. -/
def Extends (longer shorter : Run σ α) : Prop :=
  ∀ state, (shorter state).IsCut ∨ longer state = shorter state

namespace Extends

/-- A run comes to the same as itself. -/
theorem refl (run : Run σ α) : run.Extends run := fun _ => .inr rfl

/-- A run that is cut off is extended by every run. -/
theorem of_stuck (longer : Run σ α) (reason : Stuck) : longer.Extends (Run.stuck reason) :=
  fun _ => .inl trivial

/-- Runs may be extended one after the other. -/
theorem bind {longer shorter : Run σ α} {next next' : α → Run σ β}
    (first : longer.Extends shorter) (onward : ∀ value, (next value).Extends (next' value)) :
    (longer >>= next).Extends (shorter >>= next') := by
  intro state
  rcases first state with cut | same
  · left
    cases ends : shorter state with
    | done value last =>
      rw [ends] at cut
      exact cut.elim
    | failed failure last =>
      rw [ends] at cut
      rw [Run.bind_apply_of_failed ends]
      cases failure <;> trivial
    | stuck reason =>
      rw [Run.bind_apply_of_stuck ends]
      trivial
  · cases ends : shorter state with
    | done value last =>
      rw [Run.bind_apply_of_done ends, Run.bind_apply_of_done (same.trans ends)]
      exact onward value last
    | failed failure last =>
      rw [Run.bind_apply_of_failed ends, Run.bind_apply_of_failed (same.trans ends)]
      exact .inr rfl
    | stuck reason =>
      rw [Run.bind_apply_of_stuck ends]
      exact .inl trivial

/-- A second look for what the first did not find may be extended with it. -/
theorem orElse {first second first' second' : Run σ (Option α)} (one : first.Extends first')
    (two : second.Extends second') : (Run.orElse first second).Extends (Run.orElse first' second') := by
  refine one.bind fun found => ?_
  cases found with
  | some value => exact refl _
  | none => exact two

/-- What is done for each item of a list may be extended. -/
theorem forEach {action action' : α → Run σ Unit} (each : ∀ item, (action item).Extends (action' item))
    (items : List α) : (Run.forEach action items).Extends (Run.forEach action' items) := by
  induction items with
  | nil => exact refl _
  | cons item rest ih => exact (each item).bind fun _ => ih

/-- What runs inside a context may be extended. -/
theorem inside {longer shorter : Run σ Unit} (body : longer.Extends shorter) (context : Context) :
    (Run.inside context longer).Extends (Run.inside context shorter) := by
  intro state
  rw [Run.inside_apply, Run.inside_apply]
  rcases body (state.enter context) with cut | same
  · left
    generalize shorter (state.enter context) = outcome at cut ⊢
    cases outcome with
    | done value last => exact cut.elim
    | failed failure last => cases failure <;> trivial
    | stuck reason => trivial
  · rw [same]
    exact .inr rfl

end Extends

end Run

namespace Interpreter

/-- Operations that come to the same as others, unless those are cut off. -/
structure Extends (longer shorter : Interpreter σ) : Prop where
  /-- Looking for a path does. -/
  resolve : ∀ id path, (longer.resolve id path).Extends (shorter.resolve id path)
  /-- Running a step does. -/
  perform : ∀ id step, (longer.perform id step).Extends (shorter.perform id step)
  /-- Activating a graph does. -/
  activate : ∀ name graph inputs caller,
    (longer.activate name graph inputs caller).Extends (shorter.activate name graph inputs caller)

section Extending

variable {settings : Settings σ} {deep shallow : Nat} {longer shorter : Interpreter σ}

/-- Runs under two bounds do the same outside of activations. -/
theorem congruence_extends (settings : Settings σ) (deep shallow : Nat) :
    Congruence (settings.within deep) (settings.within shallow) Run.Extends where
  done := fun value => .refl (pure value)
  fails := fun failure _ => .refl (Run.fail failure)
  bind := Run.Extends.bind
  contains := fun _ => rfl
  calls := fun function params => .refl (Run.call (settings.within shallow) function params)
  traces := fun event _ => .refl (Run.trace (settings.within shallow) event)
  warns := fun warning => .refl (Run.warn warning)

/-- Committing an effect does not depend on the bound. -/
theorem commit_within (settings : Settings σ) (deep shallow : Nat) (id : ContextId) (step : Step)
    (effect : Effect) :
    commit (settings.within deep) id step effect = commit (settings.within shallow) id step effect := by
  cases effect <;> rfl

/-- Running a step may be extended. -/
theorem extends_dispatch (inner : longer.Extends shorter) (id : ContextId) (step : Step) :
    (dispatch (settings.within deep) longer id step).Extends
      (dispatch (settings.within shallow) shorter id step) := by
  have congruence := congruence_extends settings deep shallow
  rw [dispatch_eq, dispatch_eq]
  refine Run.Extends.bind ?_ fun effect => by
    rw [commit_within settings deep shallow]
    exact .refl _
  cases step with
  | action header action =>
    refine (congruence.runAction fun path _ => inner.resolve id path).bind fun result => ?_
    cases result <;> exact .refl _
  | graph header invocation body =>
    refine (Run.Extends.refl _).bind fun graph => ?_
    cases invocation.mode? body with
    | none => exact .refl _
    | some mode =>
      refine (congruence.traces _ rfl).bind fun _ => ?_
      exact (congruence.bodyValue rfl (fun path _ => inner.resolve id path) fun given caller _ =>
        inner.activate header.name graph given caller).bind fun value => .refl _

/-- Running a step unless it has been run may be extended. -/
theorem extends_execute (inner : longer.Extends shorter) (id : ContextId) (step : Step) :
    (execute longer id step).Extends (execute shorter id step) := by
  unfold execute
  split
  · exact .refl _
  · refine (Run.Extends.refl _).bind fun fresh => ?_
    split
    · exact inner.perform id step
    · exact .refl _

/-- Running the step that a path refers to may be extended. -/
theorem extends_resolveByStep (inner : longer.Extends shorter) (id : ContextId) (path : String) :
    (resolveByStep longer id path).Extends (resolveByStep shorter id path) := by
  refine (Run.Extends.refl _).bind fun context => ?_
  cases Graph.findStep? context.graph (Path.head path) with
  | none => exact .refl _
  | some step =>
    dsimp only
    split
    · exact .refl _
    · exact (extends_execute inner id step).bind fun _ => .refl _

/-- Calling a template may be extended. -/
theorem extends_callTemplate (inner : longer.Extends shorter) (id : ContextId) (name : String)
    (graph : Graph) :
    (callTemplate (settings.within deep) longer id name graph).Extends
      (callTemplate (settings.within shallow) shorter id name graph) := by
  refine (Run.Extends.refl _).bind fun fresh => ?_
  split
  · refine (Run.Extends.refl _).bind fun _ => ?_
    exact (inner.activate (implicitCallMark ++ name) graph none (some id)).bind fun _ => .refl _
  · exact .refl _

/-- Calling the template that a path refers to may be extended. -/
theorem extends_resolveByTemplate (inner : longer.Extends shorter) (id : ContextId)
    (path : String) :
    (resolveByTemplate (settings.within deep) longer id path).Extends
      (resolveByTemplate (settings.within shallow) shorter id path) := by
  refine (Run.Extends.refl _).bind fun found => ?_
  cases found with
  | none => exact .refl _
  | some graph => exact (extends_callTemplate inner id (Path.head path) graph).bind fun _ => .refl _

/-- Asking the caller for a path may be extended. -/
theorem extends_resolveByCaller (inner : longer.Extends shorter) (id : ContextId) (path : String) :
    (resolveByCaller longer id path).Extends (resolveByCaller shorter id path) := by
  refine (Run.Extends.refl _).bind fun context => ?_
  split
  · exact inner.resolve _ _
  · exact .refl _

/-- Activating a graph may be extended to a larger bound: where only the smaller one forbids it, the
run under the smaller one is cut off. -/
theorem extends_nested (inner : longer.Extends shorter) (deeper : shallow ≤ deep) (name : String)
    (graph : Graph) (inputs : Option Value) (caller : Option ContextId) :
    (nested (settings.within deep) longer name graph inputs caller).Extends
      (nested (settings.within shallow) shorter name graph inputs caller) := by
  intro state
  rw [nested_apply, nested_apply]
  -- Where the larger bound forbids it, so does the smaller one, which cuts the run off.
  by_cases forbidden : (settings.within shallow).config.maxDepth ≤ state.depth
  · rw [if_pos forbidden]
    exact .inl trivial
  · have allowed : ¬(settings.within deep).config.maxDepth ≤ state.depth :=
      fun reached => forbidden (Nat.le_trans deeper reached)
    rw [if_neg forbidden, if_neg allowed]
    exact (Run.Extends.forEach (extends_execute inner state.contexts.length)
      (Graph.hoisted graph)).inside _ state

/-- The operations at a level may be extended to a larger bound and to all levels from there on. -/
theorem extends_level (settings : Settings σ) (deeper : shallow ≤ deep) {n m : Nat}
    (enough : n ≤ m) :
    (level (settings.within deep) m).Extends (level (settings.within shallow) n) := by
  -- At level zero all operations are cut off.
  induction n generalizing m with
  | zero =>
    exact ⟨fun _ _ => .of_stuck _ _, fun _ _ => .of_stuck _ _, fun _ _ _ _ => .of_stuck _ _⟩
  | succ below ih =>
    obtain ⟨m, rfl⟩ : ∃ above, m = above + 1 := ⟨m - 1, by omega⟩
    have inner : (level (settings.within deep) m).Extends (level (settings.within shallow) below) :=
      ih (by omega)
    refine ⟨fun id path => ?_, extends_dispatch inner, extends_nested inner deeper⟩
    exact (Run.Extends.refl _).orElse <| (extends_resolveByStep inner id path).orElse <|
      (extends_resolveByTemplate inner id path).orElse (extends_resolveByCaller inner id path)

end Extending

end Interpreter

namespace DepthBound

variable {settings : Settings σ} {shallow deep : Nat} {graph : Graph} {inputs : Value}
  {state : State σ}

/-- A run that does not go too deep under a bound comes to the same under every larger one. -/
theorem graph_eq (deeper : shallow ≤ deep) (ends : ∀ activation depth last,
    Run.graph (settings.within shallow) graph inputs state ≠
      .failed (.cyclicReference activation depth) last) :
    Run.graph (settings.within deep) graph inputs state =
      Run.graph (settings.within shallow) graph inputs state := by
  obtain ⟨n, levels⟩ := Run.exists_level (settings.within deep) (settings.within shallow) graph
    graph inputs inputs state state
  obtain ⟨longer, shorter⟩ := levels n (Nat.le_refl n)
  have extended := (Interpreter.extends_level settings deeper (Nat.le_refl n)).activate rootName
    graph (some inputs) none state.reset
  rw [shorter, longer] at extended
  refine extended.resolve_left (Outcome.not_isCut (fun reason => ?_) ends)
  exact Run.graph_ne_stuck (settings.within shallow) graph inputs state reason

/-- A run that does not go too deep does not go too deep while its calls are listed. -/
theorem recording_ne (ends : ∀ activation depth last,
    Run.graph settings graph inputs state ≠ .failed (.cyclicReference activation depth) last)
    (activation : String) (depth : Nat) (last : State (σ × List FunctionCall)) :
    Run.graph settings.recording graph inputs (state.carrying []) ≠
      .failed (.cyclicReference activation depth) last := by
  intro failed
  have agree := Run.graph_recording settings graph inputs state
  rw [failed] at agree
  obtain ⟨last', same, -⟩ := agree.of_failed
  exact ends activation depth last' same

/-- A run that does not go too deep under a bound has the same output or the same failure under every
larger one, and makes the same calls of functions in the same order. -/
theorem graph_deeper (deeper : shallow ≤ deep) (ends : ∀ activation depth last,
    Run.graph (settings.within shallow) graph inputs state ≠
      .failed (.cyclicReference activation depth) last) :
    Run.graph (settings.within deep) graph inputs state =
        Run.graph (settings.within shallow) graph inputs state ∧
      Run.graphCalls (settings.within deep) graph inputs state =
        Run.graphCalls (settings.within shallow) graph inputs state := by
  have shallow_ne := recording_ne ends
  rw [Settings.recording_within] at shallow_ne
  refine ⟨graph_eq deeper ends, ?_⟩
  rw [Run.graphCalls, Run.graphCalls, Settings.recording_within, Settings.recording_within,
    graph_eq deeper shallow_ne]

/-- A function that counts its calls. -/
def ticking : Settings Nat :=
  ⟨Registry.empty.register "tick" fun params host => ⟨.ok params, [], host + 1⟩, {}⟩

/-- A template that calls the function, called because a path refers to it. -/
def tickingGraph : Graph :=
  [.action ⟨"once", false, none⟩ (.alias "work.t"),
    .graph ⟨"work", false, none⟩ {}
      (.inline [.action ⟨"t", false, none⟩ (.transform "tick" (.object []))])]

/-- With two activations inside each other the graph is run as with any more. -/
theorem ticking_deeper :
    2 ≤ 128 ∧
      (∀ activation depth last,
        Run.graph (ticking.within 2) tickingGraph (.object []) (State.start 0) ≠
          .failed (.cyclicReference activation depth) last) ∧
      Run.graph (ticking.within 128) tickingGraph (.object []) (State.start 0) =
        Run.graph (ticking.within 2) tickingGraph (.object []) (State.start 0) ∧
      Run.graphCalls (ticking.within 128) tickingGraph (.object []) (State.start 0) =
        [⟨"tick", .object []⟩] := by
  have deeper : 2 ≤ 128 := by decide
  have ends : ∀ activation depth last,
      Run.graph (ticking.within 2) tickingGraph (.object []) (State.start 0) ≠
        .failed (.cyclicReference activation depth) last := by
    intro activation depth last failed
    have valued : (match Run.graph (ticking.within 2) tickingGraph (.object []) (State.start 0) with
        | .done _ _ => true
        | .failed _ _ => false
        | .stuck _ => false) = true := by decide +kernel
    rw [failed] at valued
    cases valued
  have listed : Run.graphCalls (ticking.within 2) tickingGraph (.object []) (State.start 0) =
      [⟨"tick", .object []⟩] := by decide +kernel
  obtain ⟨same, calls⟩ := graph_deeper deeper ends
  exact ⟨deeper, ends, same, calls.trans listed⟩

/-- With one activation alone the run is cut off. -/
example :
    (match Run.graph (ticking.within 1) tickingGraph (.object []) (State.start 0) with
      | .failed (.cyclicReference _ _) _ => true
      | _ => false) = true := by
  decide +kernel

end DepthBound

end StepGraph
