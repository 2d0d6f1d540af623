import StepGraph.Proofs.Running.Closure
import StepGraph.Proofs.Running.Invariant

/-!
# Discipline of contexts

Contexts are referred to by their positions in the stack of those that are alive, which grows and
shrinks while steps are run in contexts at any height of it. That no reference is ever lost rests on
three facts that hold at every moment of a run: the depth counts the contexts that are alive, every
caller stands below the contexts that may read from it, and every call is made in a context that is
alive. Each activation gives back the stack as high as it found it, whether it has an output or
fails, so that a run leaves nothing behind that a later one could come across.
-/
namespace StepGraph

variable {σ α : Type}

/-- The contexts that a call refers to. -/
def Call.contextIds : Call → List ContextId
  | .resolve id _ => [id]
  | .perform id _ => [id]
  | .activate _ _ _ caller => caller.toList

/-- A moment at which the contexts that are alive are a stack, and the call refers only to these. -/
structure Moment.Stacked (maxDepth : Nat) (moment : Moment σ) : Prop where
  /-- The depth counts the contexts that are alive. -/
  depth : moment.state.depth = moment.state.contexts.length
  /-- Activations nest as deeply as allowed. -/
  nested : moment.state.depth ≤ maxDepth
  /-- Every caller comes before the context that reads from it. -/
  callers : ∀ {id : ContextId} {context caller}, moment.state.contexts[id]? = some context →
    context.parent = some caller → caller < id
  /-- Every context that the call refers to is alive. -/
  alive : ∀ id ∈ moment.call.contextIds, id < moment.state.contexts.length

/-- What is known all along a run: activations are nested as deeply as there are contexts, and the
contexts were a stack at every moment. -/
structure Stacks (maxDepth : Nat) (frame : Frame) (notes : List (Moment σ)) (state : State σ) :
    Prop where
  /-- The depth counts the contexts. -/
  depth : state.depth = frame.graphs.length
  /-- Activations nest as deeply as allowed. -/
  nested : frame.graphs.length ≤ maxDepth
  /-- Contexts were a stack at every moment. -/
  past : ∀ moment ∈ notes, moment.Stacked maxDepth

namespace Stacks

variable {root : Graph} {maxDepth : Nat} {frame frame' : Frame} {notes : List (Moment σ)}
  {state state' : State σ}

/-- A change that keeps the depth and the graphs of the contexts keeps the stack. -/
theorem keep (stack : Stacks maxDepth frame notes state) (depth : state'.depth = state.depth)
    (graphs : frame'.graphs = frame.graphs) : Stacks maxDepth frame' notes state' :=
  ⟨by rw [depth, graphs, stack.depth], graphs ▸ stack.nested, stack.past⟩

/-- A moment may be noted whose call refers to contexts that are alive. -/
theorem note (stack : Stacks maxDepth frame notes state) (orderly : Orderly root frame state)
    (call : Call) (ended : Bool) (alive : ∀ id ∈ call.contextIds, id < frame.graphs.length) :
    Stacks maxDepth frame (⟨call, ended, state⟩ :: notes) state := by
  refine ⟨stack.depth, stack.nested, List.forall_mem_cons.mpr ⟨⟨?_, ?_, ?_, ?_⟩, stack.past⟩⟩
  · exact stack.depth.trans orderly.length
  · exact stack.depth ▸ stack.nested
  · exact orderly.within.callers
  · exact orderly.length ▸ alive

end Stacks

/-- The contexts of the callers that a call may have are those it refers to. -/
theorem Call.forall_contextIds_activate {name : String} {graph : Graph} {inputs : Option Value}
    {caller : Option ContextId} {bound : Nat} (below : ∀ id, caller = some id → id < bound) :
    ∀ id ∈ (Call.activate name graph inputs caller).contextIds, id < bound :=
  fun id member => below id (Option.mem_toList.mp member)

/-- That the contexts are a stack is invariant. -/
theorem Invariant.stack (root : Graph) (maxDepth : Nat) :
    Invariant root maxDepth (Stacks maxDepth : Frame → List (Moment σ) → State σ → Prop)
      fun notes => ∀ moment ∈ notes, moment.Stacked maxDepth where
  aborts := fun stack => stack.past
  fields := fun stack _ _ depth => stack.keep depth rfl
  searches := fun orderly stack inside =>
    stack.note orderly (.resolve _ _) _ fun _ member => List.mem_singleton.mp member ▸ inside
  stepBegins := by
    intro frame notes state id context step orderly stack alive member acts fresh
    have inside : id < frame.graphs.length := orderly.length ▸ Orderly.lt_length alive
    have belongs : Task.Belongs root context (.step step) := ⟨member, acts⟩
    have begun : Stacks maxDepth (frame.begin id (.step step)) notes
        (state.setContext id (context.mark step.name)) := stack.keep rfl rfl
    exact begun.note (orderly.begin alive belongs fresh) (.perform id step) false
      fun _ member => List.mem_singleton.mp member ▸ inside
  stepPublishes := by
    intro frame notes state id context step value orderly stack alive _
    have inside : id < frame.graphs.length := orderly.length ▸ Orderly.lt_length alive
    have published : Stacks maxDepth frame notes (state.setContext id
        (context.publish step.publishKey value step.isHidden)) := stack.keep rfl rfl
    exact published.note (orderly.publish alive _ _ _).finish (.perform id step) true
      fun _ member => List.mem_singleton.mp member ▸ inside
  stepDefines := by
    intro frame notes state id step graph orderly stack defines inside
    obtain ⟨context, alive, -, -⟩ := orderly.marked List.mem_cons_self
    have there : id < frame.graphs.length := orderly.length ▸ Orderly.lt_length alive
    have defined : Stacks maxDepth frame notes (state.define step.name graph) :=
      stack.keep rfl rfl
    exact defined.note (orderly.define defines inside).finish (.perform id step) true
      fun _ member => List.mem_singleton.mp member ▸ there
  callBegins := fun _ stack _ _ _ => stack.keep rfl rfl
  callPublishes := fun _ stack _ => stack.keep rfl rfl
  activates := fun orderly stack _ below =>
    stack.note orderly (.activate _ _ _ _) _ (Call.forall_contextIds_activate below)
  enters := by
    intro frame notes state name graph inputs caller orderly stack inside below shallow
    have noted := stack.note orderly (.activate name graph inputs caller) false
      (Call.forall_contextIds_activate below)
    refine ⟨?_, ?_, noted.past⟩
    · rw [State.enter_depth, stack.depth, Frame.deeper, List.length_append,
        List.length_singleton]
    · rw [stack.depth] at shallow
      rw [Frame.deeper, List.length_append, List.length_singleton]
      exact shallow
  leaves := by
    intro frame earlier before notes state name graph inputs caller below begun held orderly stack
    have depth : state.leave.depth = frame.graphs.length := by
      rw [State.leave_depth, stack.depth, Frame.deeper, List.length_append,
        List.length_singleton, Nat.add_sub_cancel]
    have left : Stacks maxDepth frame notes state.leave := ⟨depth, held.nested, stack.past⟩
    exact left.note (begun.leave orderly) (.activate name graph inputs caller) true
      (Call.forall_contextIds_activate below)

/-- The contexts are a stack at every moment of a run. -/
theorem Run.stacked_of_mem_history {settings : Settings σ} {root : Graph} {inputs : Value}
    {state : State σ} {moment : Moment σ}
    (member : moment ∈ Run.history settings root inputs state) :
    moment.Stacked settings.config.maxDepth :=
  (Invariant.stack root settings.config.maxDepth).history inputs state
    ⟨rfl, Nat.zero_le _, nofun⟩ moment (List.mem_reverse.mpr member)

/-- A moment of a run has a sound state. -/
theorem Run.sound_of_mem_history {settings : Settings σ} {root : Graph} {inputs : Value}
    {state : State σ} {moment : Moment σ}
    (member : moment ∈ Run.history settings root inputs state) :
    moment.state.Sound root settings.config.maxDepth moment.state.shares := by
  have stacked := Run.stacked_of_mem_history member
  refine ⟨(Run.reached_of_mem_history member).within, stacked.depth, ?_, ?_, ?_⟩
  · exact stacked.depth ▸ stacked.nested
  · rw [State.shares, List.map_map]
    rfl
  · intro id context share there held
    rw [State.shares, List.getElem?_map, there, Option.map_some] at held
    exact Option.some.inj held ▸ Nat.le_refl _

/-- A search in a context that is alive at a moment of a run ends at every level from some one
on. -/
theorem Run.exists_level_resolve {settings : Settings σ} {root : Graph} {inputs : Value}
    {state : State σ} {moment : Moment σ}
    (member : moment ∈ Run.history settings root inputs state) {id : ContextId}
    (alive : id < moment.state.contexts.length) (path : String) :
    ∃ n, ∀ m, n ≤ m →
      ((Interpreter.level settings m).resolve id path moment.state).HasEnd := by
  have sound := Run.sound_of_mem_history member
  refine ⟨worth root settings.config.maxDepth moment.state.shares * unit root +
    Call.cost root (.resolve id path), fun m enough => ?_⟩
  exact (Outcome.eq_of_agrees_steady ((Interpreter.ends_level settings root m m
    (Nat.le_refl m)).resolve (moment.state.shares_length ▸ alive) enough moment.state moment.state
      ⟨rfl, sound.exact⟩)).2

/-- An outcome that leaves so many contexts alive and so many activations nested, whether it is a
value or a failure, or a run that may be cut off and is stuck. -/
def Outcome.Leaves (contexts depth : Nat) (cutOff : Prop) : Outcome σ α → Prop
  | .done _ last => last.contexts.length = contexts ∧ last.depth = depth
  | .failed _ last => last.contexts.length = contexts ∧ last.depth = depth
  | .stuck _ => cutOff

/-- A run that keeps to a budget leaves as many contexts as the budget has shares. -/
theorem Outcome.leaves_of_agrees_steady {root : Graph} {maxDepth : Nat} {budget : Budget}
    {lenient cutOff : Prop} {outcome other : Outcome σ α}
    (agree : Agrees lenient (Steady root maxDepth budget) (fun _ => Steady root maxDepth budget)
      outcome other) (passes : lenient → cutOff) :
    outcome.Leaves budget.length budget.length cutOff := by
  cases agree with
  | done value related =>
    have kept := related.2
    exact ⟨kept.length.symm, kept.depth.trans kept.length.symm⟩
  | failed failure related =>
    have kept := related.2
    exact ⟨kept.length.symm, kept.depth.trans kept.length.symm⟩
  | stuck _ _ lets => exact passes lets

namespace Discipline

open Interpreter

section Activations

variable {root graph : Graph} {settings : Settings σ} {budget : Budget} {state : State σ}
  {caller : Option ContextId}

/-- An activation gives back the stack as it was, at every level at which it ends. -/
theorem activate_leaves (sound : state.Sound root settings.config.maxDepth budget)
    (inside : root.Includes graph) (below : ∀ id, caller = some id → id < state.contexts.length)
    (name : String) (given : Option Value) (n : Nat) :
    ((level settings n).activate name graph given caller state).Leaves state.contexts.length
      state.depth (n < sufficientLevel root settings.config.maxDepth) := by
  have callers (id : ContextId) (same : caller = some id) : id < state.shares.length :=
    state.shares_length ▸ below id same
  rw [sound.depth, ← state.shares_length]
  rcases Nat.lt_or_ge n (sufficientLevel root settings.config.maxDepth) with low | enough
  · exact Outcome.leaves_of_agrees_steady ((keeps_level settings root n n (Nat.le_refl n)).activate
      inside callers trivial state state ⟨rfl, sound.exact⟩) fun _ => low
  · exact Outcome.leaves_of_agrees_steady
      (sound.agrees_activate enough (Nat.le_refl n) inside below name given) False.elim

/-- The steps of an activation give back the stack as it was, with the context of the activation on
top, at every level at which they end. -/
theorem executeAll_leaves (sound : state.Sound root settings.config.maxDepth budget)
    (inside : root.Includes graph) (below : ∀ id, caller = some id → id < state.contexts.length)
    (given : Option Value) (shallow : state.depth < settings.config.maxDepth) (n : Nat) :
    (executeAll (level settings n) state.contexts.length (Graph.hoisted graph)
      (state.enter (Context.start graph given caller))).Leaves (state.contexts.length + 1)
        (state.depth + 1) (n < sufficientLevel root settings.config.maxDepth) := by
  rw [sound.depth] at shallow ⊢
  have entered := sound.exact.enter shallow inside given below
  have members (step : Step) (member : step ∈ Graph.hoisted graph) : step ∈ graph :=
    Graph.mem_hoisted.mp member
  have higher : (state.shares ++ [(graph, graph.length)]).length = state.contexts.length + 1 := by
    rw [List.length_append, List.length_singleton, state.shares_length]
  rw [← higher, ← state.shares_length]
  rcases Nat.lt_or_ge n (sufficientLevel root settings.config.maxDepth) with low | enough
  · exact Outcome.leaves_of_agrees_steady (preserve_executeAll
      (keeps_level settings root n n (Nat.le_refl n)) members (fun _ => trivial) _ _
        ⟨rfl, entered⟩) fun _ => low
  · have paid := affordable_activate sound (Nat.le_succ_of_le enough) rootName graph given caller
    rw [← state.shares_length] at shallow
    exact Outcome.leaves_of_agrees_steady (preserve_executeAll
      (ends_level settings root n n (Nat.le_refl n)) members
        (fun lower => (grants_affordable n).enter paid inside shallow lower) _ _
          ⟨rfl, entered⟩) False.elim

end Activations

/-- A run comes to the same from any two states in which the registered functions answer alike. -/
theorem sameResult_of_answersAlike {settings : Settings σ} (root : Graph) (inputs : Value)
    {state other : State σ} (hosts : settings.registry.AnswersAlike state.host other.host) :
    (Run.graph settings root inputs state).SameResult (Run.graph settings root inputs other) := by
  have depths : state.reset.depth = other.reset.depth := rfl
  have templates : state.reset.templates = other.reset.templates := rfl
  have sizes : state.reset.contexts.length = other.reset.contexts.length := rfl
  have agree := agrees_activate_apart (.refl settings) depths templates sizes hosts
    (Nat.le_refl (sufficientLevel root settings.config.maxDepth)) rootName root (some inputs)
  exact agree.sameResult (Run.graph_hasEnd settings root inputs state)

/-- The contexts of a run are a stack at every moment. Every activation that begins gives it back as
it was, at every level that is enough, and runs its steps with its own context on top. The run leaves
nothing behind, and comes to the same whatever an earlier one has left. -/
theorem contexts_stacked (settings : Settings σ) (root : Graph) (inputs : Value)
    (state : State σ) :
    (∀ moment ∈ Run.history settings root inputs state,
      moment.Stacked settings.config.maxDepth ∧
        ∀ name graph given caller, moment.call = .activate name graph given caller →
          moment.ended = false → ∀ n,
            ((level settings n).activate name graph given caller moment.state).Leaves
              moment.state.contexts.length moment.state.depth
              (n < sufficientLevel root settings.config.maxDepth) ∧
            (moment.state.depth < settings.config.maxDepth →
              (executeAll (level settings n) moment.state.contexts.length (Graph.hoisted graph)
                (moment.state.enter (Context.start graph given caller))).Leaves
                  (moment.state.contexts.length + 1) (moment.state.depth + 1)
                  (n < sufficientLevel root settings.config.maxDepth))) ∧
      (Run.graph settings root inputs state).Leaves 0 0 False ∧
      ∀ fresh, settings.registry.AnswersAlike state.host fresh →
        (Run.graph settings root inputs state).SameResult
          (Run.graph settings root inputs (State.start fresh)) := by
  refine ⟨fun moment member => ?_, ?_, fun fresh hosts => ?_⟩
  · have sound := Run.sound_of_mem_history member
    refine ⟨Run.stacked_of_mem_history member, fun name graph given caller called begins n => ?_⟩
    obtain ⟨inside, below⟩ := (Run.reached_of_mem_history member).activates called begins
    exact ⟨activate_leaves sound inside below name given n,
      fun shallow => executeAll_leaves sound inside below given shallow n⟩
  · exact Outcome.leaves_of_agrees_steady (Run.graph_ends settings root inputs state) id
  · exact sameResult_of_answersAlike root inputs hosts

/-- A graph with a body that reads from the context of its step. -/
def upwardGraph : Graph :=
  [.action ⟨"a", false, none⟩ (.static .null),
   .graph ⟨"c", false, none⟩ { namespaceKey := some "n" }
     (.inline [.action ⟨"v", false, none⟩ (.alias "inputs.a")])]

/-- A state in which a context and a template are left over. -/
def leftoverState : State Unit := ⟨[.start upwardGraph none none], [("a", [])], 1, (), []⟩

/-- While the body looks for the step of its caller two contexts are alive, and the run comes to what
it comes to where nothing is left over. -/
theorem upward_stacked :
    let settings : Settings Unit := ⟨Registry.empty, { maxDepth := 2 }⟩
    (∃ moment ∈ Run.history settings upwardGraph (.object []) leftoverState,
      moment.call = .resolve 1 "inputs.a" ∧ moment.state.contexts.length = 2 ∧ moment.Stacked 2) ∧
      (Run.graph settings upwardGraph (.object []) leftoverState).SameResult
        (Run.graph settings upwardGraph (.object []) (State.start ())) := by
  intro settings
  obtain ⟨stacked, -, fresh⟩ :=
    contexts_stacked settings upwardGraph (.object []) leftoverState
  let moment := (Run.history settings upwardGraph (.object []) leftoverState).get
    ⟨6, by decide +kernel⟩
  have member : moment ∈ Run.history settings upwardGraph (.object []) leftoverState :=
    List.get_mem _ _
  exact ⟨⟨moment, member, by decide +kernel, by decide +kernel, (stacked moment member).1⟩,
    fresh () (.inl rfl)⟩

end Discipline

end StepGraph
