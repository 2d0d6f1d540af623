import StepGraph.Proofs.Graph.Nesting
import StepGraph.Proofs.Running.Primitives

/-!
# States within a graph

Whatever a run of a graph does, it stays within the graph: every context that is alive runs a graph
inside it, every template is a graph inside it, and every context reads from callers that are
older than itself. Each primitive keeps this, with the side conditions that its lemma lists.
-/
namespace StepGraph.State

variable {σ : Type}

/-- A state that a run of a graph can be in. -/
structure Within (root : Graph) (state : State σ) : Prop where
  /-- Every context runs a graph inside the whole. -/
  graphs : ∀ {id : ContextId} {context}, state.contexts[id]? = some context →
    root.Includes context.graph
  /-- Every caller comes before the context that reads from it. -/
  callers : ∀ {id : ContextId} {context caller}, state.contexts[id]? = some context →
    context.parent = some caller → caller < id
  /-- Every template is a graph inside the whole. -/
  templates : ∀ {name graph}, Dictionary.find? state.templates name = some graph →
    root.Includes graph

namespace Within

variable {root : Graph} {state state' : State σ}

/-- The log and the state of the functions do not matter. -/
theorem of_unmoved (within : state.Within root) (unmoved : state.Unmoved state') :
    state'.Within root where
  graphs := by
    rw [unmoved.contexts]
    exact within.graphs
  callers := by
    rw [unmoved.contexts]
    exact within.callers
  templates := by
    rw [unmoved.templates]
    exact within.templates

/-- A context may be changed as long as it keeps its graph and its caller. -/
theorem setContext (within : state.Within root) {id : ContextId} {old new : Context}
    (alive : state.contexts[id]? = some old) (graph : new.graph = old.graph)
    (parent : new.parent = old.parent) : (state.setContext id new).Within root where
  graphs := by
    intro other context there
    rcases eq_or_of_getElem?_setContext there with ⟨rfl, rfl⟩ | ⟨-, before⟩
    · exact graph ▸ within.graphs alive
    · exact within.graphs before
  callers := by
    intro other context caller there calls
    rcases eq_or_of_getElem?_setContext there with ⟨rfl, rfl⟩ | ⟨-, before⟩
    · exact within.callers alive (parent ▸ calls)
    · exact within.callers before calls
  templates := within.templates

/-- A graph inside the whole may be defined as a template. -/
theorem define (within : state.Within root) (name : String) {graph : Graph}
    (inside : root.Includes graph) : (state.define name graph).Within root where
  graphs := within.graphs
  callers := within.callers
  templates := by
    intro other found there
    rw [define_templates] at there
    by_cases same : other = name
    · subst same
      rw [Dictionary.find?_insert_self] at there
      exact Option.some.inj there ▸ inside
    · rw [Dictionary.find?_insert_of_ne _ _ same] at there
      exact within.templates there

/-- An activation of a graph inside the whole may be entered. -/
theorem enter (within : state.Within root) {graph : Graph} (inside : root.Includes graph)
    (inputs : Option Value) {caller : Option ContextId}
    (below : ∀ id, caller = some id → id < state.contexts.length) :
    (state.enter (Context.start graph inputs caller)).Within root where
  graphs := by
    intro id context there
    rcases eq_or_of_getElem?_enter there with ⟨-, before⟩ | ⟨-, rfl⟩
    · exact within.graphs before
    · exact inside
  callers := by
    intro id context other there calls
    rcases eq_or_of_getElem?_enter there with ⟨-, before⟩ | ⟨rfl, rfl⟩
    · exact within.callers before calls
    · exact below other calls
  templates := within.templates

/-- An activation may be left. -/
theorem leave (within : state.Within root) : state.leave.Within root :=
  ⟨fun there => within.graphs (of_getElem?_leave there).2,
    fun there => within.callers (of_getElem?_leave there).2, within.templates⟩

end Within

/-- A state in which a run begins is within every graph. -/
theorem within_reset (root : Graph) (state : State σ) : state.reset.Within root where
  graphs := nofun
  callers := nofun
  templates := by
    intro name graph there
    cases there

end StepGraph.State
