import StepGraph.Proofs.Running.Lockstep

/-!
# Growth of states

What a call does to the contexts that were alive before it: they keep their graphs and their callers
and lose no mark, templates are never taken back, and the stack is as high as before. A call in a
context reaches that context, those below it and those of its own activations; the contexts above
it are left exactly as they are.
-/
namespace StepGraph

variable {σ : Type}

/-- A context that has been changed by runs in it. -/
structure Context.Grows (old new : Context) : Prop where
  /-- The graph is the same. -/
  graph : new.graph = old.graph
  /-- The caller is the same. -/
  parent : new.parent = old.parent
  /-- Whatever has been run is still marked. -/
  marks : ∀ name, old.hasExecuted name = true → new.hasExecuted name = true

namespace Context.Grows

variable {old middle new : Context}

/-- A context that is left alone. -/
theorem refl (context : Context) : context.Grows context := ⟨rfl, rfl, fun _ run => run⟩

/-- Changes add up. -/
theorem trans (first : old.Grows middle) (second : middle.Grows new) : old.Grows new :=
  ⟨second.graph.trans first.graph, second.parent.trans first.parent,
    fun name run => second.marks name (first.marks name run)⟩

/-- Marking a name. -/
theorem mark (context : Context) (name : String) : context.Grows (context.mark name) :=
  ⟨context.mark_graph name, context.mark_parent name,
    fun _ run => Context.hasExecuted_mark_of_executed name run⟩

/-- Publishing a result. -/
theorem publish (context : Context) (key : String) (value : Value) (hidden : Bool) :
    context.Grows (context.publish key value hidden) := ⟨rfl, rfl, fun _ run => run⟩

end Context.Grows

/-- A context that a call may reach, given what was alive before it: that of the call, one below it,
or one of its own activations. -/
def Reachable (top : ContextId) (base : State σ) (id : ContextId) : Prop :=
  id ≤ top ∨ base.contexts.length ≤ id

namespace State

/-- Every caller comes before the context that reads from it. -/
def Descending (state : State σ) : Prop :=
  ∀ ⦃id : ContextId⦄ ⦃context caller⦄, state.contexts[id]? = some context →
    context.parent = some caller → caller < id

/-- What a call in a context does, in its course, to what was there before it. -/
structure Extends (top : ContextId) (base state : State σ) : Prop where
  /-- What was alive is alive, changed by runs in it, and not at all above the context of the
  call. -/
  contexts : ∀ {id : ContextId} {context}, base.contexts[id]? = some context →
    ∃ context', state.contexts[id]? = some context' ∧ context.Grows context' ∧
      (top < id → context' = context)
  /-- No template has been taken back. -/
  templates : ∀ {name}, Dictionary.find? state.templates name = none →
    Dictionary.find? base.templates name = none

/-- What a call in a context comes to for what was there before it. -/
structure Grows (top : ContextId) (base last : State σ) : Prop extends Extends top base last where
  /-- As many contexts are alive. -/
  length : last.contexts.length = base.contexts.length

namespace Extends

variable {top : ContextId} {base state state' : State σ} {id : ContextId} {context : Context}

/-- Nothing has happened. -/
theorem refl (state : State σ) (top : ContextId) : Extends top state state :=
  ⟨fun alive => ⟨_, alive, .refl _, fun _ => rfl⟩, id⟩

/-- What happens after each other in the same context adds up. -/
theorem trans {middle : State σ} (first : Extends top base middle)
    (second : Extends top middle state) : Extends top base state where
  contexts := by
    intro id context alive
    obtain ⟨between, there, grown, same⟩ := first.contexts alive
    obtain ⟨context', there', grown', same'⟩ := second.contexts there
    exact ⟨context', there', grown.trans grown', fun above => (same' above).trans (same above)⟩
  templates := fun missing => first.templates (second.templates missing)

/-- The log and the state of the functions do not matter. -/
theorem of_unmoved (grown : Extends top base state) (unmoved : state.Unmoved state') :
    Extends top base state' where
  contexts := by
    rw [unmoved.contexts]
    exact grown.contexts
  templates := by
    rw [unmoved.templates]
    exact grown.templates

/-- A context that may be reached is changed. -/
theorem setContext (grown : Extends top base state) (reached : Reachable top base id)
    (alive : state.contexts[id]? = some context) {new : Context} (grows : context.Grows new) :
    Extends top base (state.setContext id new) where
  contexts := by
    intro other old there
    obtain ⟨held, here, kept, same⟩ := grown.contexts there
    by_cases target : other = id
    · subst target
      obtain rfl := Option.some.inj (alive.symm.trans here)
      refine ⟨new, State.getElem?_setContext_self alive new, kept.trans grows, fun above => ?_⟩
      have before : other < base.contexts.length := (List.getElem?_eq_some_iff.mp there).choose
      rcases reached with low | high
      · exact absurd above (Nat.not_lt.mpr low)
      · exact absurd before (Nat.not_lt.mpr high)
    · refine ⟨held, ?_, kept, same⟩
      rw [State.setContext_contexts, List.getElem?_set_ne (Ne.symm target)]
      exact here
  templates := grown.templates

/-- A template is defined. -/
theorem define (grown : Extends top base state) (name : String) (graph : Graph) :
    Extends top base (state.define name graph) where
  contexts := grown.contexts
  templates := by
    intro other missing
    rw [State.define_templates] at missing
    by_cases same : other = name
    · subst same
      rw [Dictionary.find?_insert_self] at missing
      cases missing
    · rw [Dictionary.find?_insert_of_ne _ _ same] at missing
      exact grown.templates missing

/-- An activation is entered. -/
theorem enter (grown : Extends top base state) (entered : Context) :
    Extends top base (state.enter entered) where
  contexts := by
    intro id old there
    obtain ⟨held, here, kept, same⟩ := grown.contexts there
    refine ⟨held, ?_, kept, same⟩
    rw [State.enter_contexts,
      List.getElem?_append_left (List.getElem?_eq_some_iff.mp here).choose]
    exact here
  templates := grown.templates

/-- An activation that was entered above is left. -/
theorem leave (grown : Extends top base state)
    (above : base.contexts.length < state.contexts.length) : Extends top base state.leave where
  contexts := by
    intro id old there
    obtain ⟨held, here, kept, same⟩ := grown.contexts there
    refine ⟨held, ?_, kept, same⟩
    have inside : id < base.contexts.length := (List.getElem?_eq_some_iff.mp there).choose
    rw [State.leave_contexts, List.getElem?_dropLast,
      if_pos (Nat.lt_of_lt_of_le inside (Nat.le_sub_one_of_lt above))]
    exact here
  templates := grown.templates

end Extends

namespace Grows

variable {top : ContextId} {base middle last : State σ}

/-- What happens after each other in the same context adds up. -/
theorem trans (first : base.Grows top middle) (second : middle.Grows top last) :
    base.Grows top last :=
  ⟨first.toExtends.trans second.toExtends, second.length.trans first.length⟩

/-- The context of the call is changed. -/
theorem setContext {context new : Context} (alive : base.contexts[top]? = some context)
    (grows : context.Grows new) : base.Grows top (base.setContext top new) :=
  ⟨(Extends.refl base top).setContext (.inl (Nat.le_refl top)) alive grows,
    by rw [setContext_contexts, List.length_set]⟩

/-- The log and the state of the functions do not matter. -/
theorem of_unmoved (unmoved : base.Unmoved last) : base.Grows top last :=
  ⟨(Extends.refl base top).of_unmoved unmoved, by rw [unmoved.contexts]⟩

/-- Callers still come before the contexts that read from them. -/
theorem descending (grows : base.Grows top last) (before : base.Descending) : last.Descending := by
  intro id context caller alive calls
  have inside : id < base.contexts.length :=
    grows.length ▸ (List.getElem?_eq_some_iff.mp alive).choose
  have there := List.getElem?_eq_getElem inside
  obtain ⟨context', alive', grown, -⟩ := grows.contexts there
  obtain rfl := Option.some.inj (alive'.symm.trans alive)
  exact before there (grown.parent ▸ calls)

end Grows

end State

/-! ## Growing all along -/

/-- A state in the course of a call. -/
structure Growing (top : ContextId) (base : State σ) (graphs : List Graph) (state : State σ) :
    Prop extends State.Extends top base state where
  /-- The contexts that are alive run these graphs. -/
  shape : state.contexts.map Context.graph = graphs
  /-- The contexts from before are alive. -/
  height : base.contexts.length ≤ graphs.length
  /-- What a context that may be reached reads from may be reached. -/
  callers : ∀ {id : ContextId} {context caller}, state.contexts[id]? = some context →
    Reachable top base id → context.parent = some caller → Reachable top base caller

namespace Growing

variable {top : ContextId} {base state state' : State σ} {graphs : List Graph} {id : ContextId}
  {context : Context}

/-- The call begins. -/
theorem start (descending : base.Descending) :
    Growing top base (base.contexts.map Context.graph) base where
  toExtends := .refl base top
  shape := rfl
  height := Nat.le_of_eq (List.length_map Context.graph).symm
  callers := by
    intro id context caller alive reached calls
    have below := descending alive calls
    have there : id < base.contexts.length := (List.getElem?_eq_some_iff.mp alive).choose
    rcases reached with low | high
    · exact .inl (Nat.le_trans (Nat.le_of_lt below) low)
    · exact absurd there (Nat.not_lt.mpr high)

/-- As many contexts are alive as there are graphs. -/
theorem length (growing : Growing top base graphs state) :
    state.contexts.length = graphs.length := by
  rw [← growing.shape, List.length_map]

/-- The call has ended. -/
theorem grows (growing : Growing top base (base.contexts.map Context.graph) state) :
    base.Grows top state :=
  ⟨growing.toExtends, by rw [growing.length, List.length_map]⟩

/-- The log and the state of the functions do not matter. -/
theorem of_unmoved (growing : Growing top base graphs state) (unmoved : state.Unmoved state') :
    Growing top base graphs state' where
  toExtends := growing.toExtends.of_unmoved unmoved
  shape := unmoved.contexts ▸ growing.shape
  height := growing.height
  callers := by
    rw [unmoved.contexts]
    exact growing.callers

/-- A context that may be reached is changed. -/
theorem setContext (growing : Growing top base graphs state) (reached : Reachable top base id)
    (alive : state.contexts[id]? = some context) {new : Context} (grows : context.Grows new) :
    Growing top base graphs (state.setContext id new) where
  toExtends := growing.toExtends.setContext reached alive grows
  shape := by
    have held : (state.contexts.map Context.graph)[id]? = some new.graph := by
      rw [List.getElem?_map, alive, Option.map_some, grows.graph]
    rw [State.setContext_contexts, List.map_set, set_eq_self held, growing.shape]
  height := growing.height
  callers := by
    intro other held caller there reaches calls
    rcases State.eq_or_of_getElem?_setContext there with ⟨rfl, rfl⟩ | ⟨-, before⟩
    · exact growing.callers alive reaches (grows.parent ▸ calls)
    · exact growing.callers before reaches calls

/-- A template is defined. -/
theorem define (growing : Growing top base graphs state) (name : String) (graph : Graph) :
    Growing top base graphs (state.define name graph) where
  toExtends := growing.toExtends.define name graph
  shape := growing.shape
  height := growing.height
  callers := growing.callers

/-- An activation is entered, with a caller that may be reached or none. -/
theorem enter (growing : Growing top base graphs state) (graph : Graph) (inputs : Option Value)
    {caller : Option ContextId} (reached : ∀ id, caller = some id → Reachable top base id) :
    Growing top base (graphs ++ [graph]) (state.enter (Context.start graph inputs caller)) where
  toExtends := growing.toExtends.enter _
  shape := by
    rw [State.enter_contexts, List.map_append, growing.shape]
    rfl
  height := by
    rw [List.length_append]
    exact Nat.le_trans growing.height (Nat.le_add_right _ _)
  callers := by
    intro id held other there reaches calls
    rcases State.eq_or_of_getElem?_enter there with ⟨-, before⟩ | ⟨-, rfl⟩
    · exact growing.callers before reaches calls
    · exact reached other calls

/-- An activation is left. -/
theorem leave {graph : Graph} (height : base.contexts.length ≤ graphs.length)
    (growing : Growing top base (graphs ++ [graph]) state) :
    Growing top base graphs state.leave where
  toExtends := by
    refine growing.toExtends.leave ?_
    rw [growing.length, List.length_append, List.length_singleton]
    exact Nat.lt_succ_of_le height
  shape := by
    rw [State.leave_contexts, List.map_dropLast, growing.shape, List.dropLast_concat]
  height := height
  callers := fun there => growing.callers (State.of_getElem?_leave there).2

end Growing

namespace Interpreter

/-- Two runs that are one, in the course of a call. -/
def Grown (top : ContextId) (base : State σ) (frame : Frame) (first second : State σ) : Prop :=
  first = second ∧ Growing top base frame.graphs first

variable {settings : Settings σ} {top : ContextId} {base : State σ}

/-- Outside of contexts nothing happens to them. -/
theorem basis_grown (frame : Frame) :
    Basis True (fun _ _ => True) (Grown top base frame) .whole settings settings where
  aborts := fun _ _ _ => trivial
  contains := fun _ => rfl
  calls := by
    rintro function params first _ ⟨rfl, growing⟩
    rw [Run.call_apply]
    exact .done _ ⟨rfl, growing.of_unmoved (first.unmoved_replied _)⟩
  traces := by
    rintro event first _ ⟨rfl, growing⟩
    rw [Run.trace_apply]
    exact .done _ ⟨rfl, growing.of_unmoved (first.unmoved_traced settings event)⟩
  warns := by
    rintro warning first _ ⟨rfl, growing⟩
    exact .done _ ⟨rfl, growing.of_unmoved ⟨rfl, rfl, rfl⟩⟩
  templates := by
    rintro first _ ⟨rfl, -⟩ name -
    rfl
  knows := fun _ _ _ _ _ _ _ => trivial

/-- Publishing a result in a context that may be reached. -/
theorem preserve_publish_grown {frame : Frame} {id : ContextId} (reached : Reachable top base id)
    (key : String) (value : Value) (hidden : Bool) :
    Run.Preserve True (fun _ _ => True) (Grown top base frame)
      (Run.publish settings id key value hidden) (Run.publish settings id key value hidden) := by
  rintro first _ ⟨rfl, growing⟩
  cases alive : first.contexts[id]? with
  | none =>
    rw [Run.publish_apply_of_none _ _ _ alive]
    exact .stuck _ _ trivial
  | some context =>
    rw [Run.publish_apply _ _ _ alive]
    have traced := growing.of_unmoved (first.unmoved_traced settings (.executed key hidden value))
    have there : (first.traced settings (.executed key hidden value)).contexts[id]? =
        some context := by rwa [State.traced_contexts]
    exact .done _ ⟨rfl, traced.setContext reached there (.publish context key value hidden)⟩

/-- A call grows the state all along. -/
theorem lockstep_grown (settings : Settings σ) (top : ContextId) (base : State σ) :
    Lockstep (fun _ _ _ => True) settings settings .silent .silent
      (fun _ id => Reachable top base id) .whole (Grown top base) where
  basis := basis_grown
  maxDepth := rfl
  shape := by
    rintro frame first _ ⟨rfl, growing⟩
    exact ⟨rfl, growing.length, growing.length⟩
  latest := by
    rintro frame before _ first _ graph ⟨rfl, begun⟩ ⟨rfl, growing⟩
    have there : (first.contexts.map Context.graph)[frame.graphs.length]? = some graph := by
      rw [growing.shape, Frame.deeper, List.getElem?_concat_length]
    rw [List.getElem?_map] at there
    obtain ⟨context, alive, same⟩ := Option.map_eq_some_iff.mp there
    exact ⟨.inr begun.height, context, alive, same⟩
  context := by
    rintro frame first _ id context ⟨rfl, growing⟩ reached alive
    exact ⟨⟨context, alive, .refl trivial⟩, fun caller calls => growing.callers alive reached calls⟩
  resolveBegins := fun grown _ => grown
  resolveEnds := fun grown _ => grown
  stepBegins := by
    rintro frame first _ id context context' step ⟨rfl, growing⟩ reached alive alive' - - - -
    obtain rfl := Option.some.inj (alive.symm.trans alive')
    exact ⟨rfl, growing.setContext reached alive (.mark context step.name)⟩
  stepEnds := fun reached _ fits => preserve_commit (basis_grown _) fits
    (fun value => preserve_publish_grown reached _ value _) fun graph _ => by
      rintro first _ ⟨rfl, growing⟩
      exact .done _ ⟨rfl, growing.define _ graph⟩
  callBegins := by
    rintro frame first _ id context context' name graph ⟨rfl, growing⟩ reached alive alive' - - -
    obtain rfl := Option.some.inj (alive.symm.trans alive')
    exact ⟨rfl, growing.setContext reached alive (.mark context _)⟩
  callEnds := fun reached => preserve_publish_grown reached _ _ _
  activateBegins := fun _ _ grown _ _ => grown
  enters := by
    rintro frame first _ graph caller name inputs - reached ⟨rfl, growing⟩ -
    exact ⟨rfl, growing.enter graph inputs reached⟩
  leaves := by
    rintro frame before _ first _ graph name inputs caller - ⟨rfl, begun⟩ ⟨rfl, growing⟩
    exact ⟨rfl, rfl, growing.leave begun.height⟩
  abandons := fun _ _ => trivial

/-- Operations at a level grow the state. -/
theorem follows_grown (settings : Settings σ) (top : ContextId) (base : State σ) (n : Nat) :
    Follows (fun _ _ _ => True) .silent .silent (fun _ id => Reachable top base id) .whole
      (Grown top base) (level settings n) (level settings n) := by
  have follows := (lockstep_grown settings top base).level n n (Nat.le_refl n)
  rwa [observed_silent] at follows

section Calls

/-- The graphs of the contexts that are alive when a call begins. -/
def callFrame (base : State σ) : Frame := ⟨base.contexts.map Context.graph, []⟩

/-- A call that agrees with itself has grown the state by its end. -/
theorem grows_of_agrees {α : Type} {outcome : Outcome σ α} {value : α} {last : State σ}
    (agree : Outcome.Agrees True (fun _ _ => True) (fun _ => Grown top base (callFrame base))
      outcome outcome) (ends : outcome = .done value last) : base.Grows top last := by
  rw [ends] at agree
  obtain ⟨_, -, _, growing⟩ := agree.of_done
  exact growing.grows

variable {n : Nat} {last : State σ} (descending : base.Descending)

include descending

/-- Looking for a path grows the state. -/
theorem grows_resolve {path : String} {answer : Option Value}
    (ends : (level settings n).resolve top path base = .done answer last) :
    base.Grows top last := by
  have reached : Reachable top base top := .inl (Nat.le_refl top)
  have agree : Run.Preserve True (fun _ _ => True) (Grown top base (callFrame base))
      ((level settings n).resolve top path) ((level settings n).resolve top path) :=
    (follows_grown settings top base n).resolve reached trivial
  exact grows_of_agrees (agree base base ⟨rfl, .start descending⟩) ends

/-- Running a step that is about to begin grows the state. -/
theorem grows_perform {graph : Graph} {step : Step} (member : step ∈ graph)
    (acts : step.isComment = false)
    (ends : (level settings n).perform top step base = .done () last) : base.Grows top last := by
  have reached : Reachable top base top := .inl (Nat.le_refl top)
  have begun : Grown top base ((callFrame base).begin top (.step step)) base base :=
    ⟨rfl, .start descending⟩
  have agree : Outcome.Agrees True (fun _ _ => True) (fun _ => Grown top base (callFrame base))
      ((level settings n).perform top step base) ((level settings n).perform top step base) :=
    (follows_grown settings top base n).perform reached trivial member acts begun
  exact grows_of_agrees agree ends

/-- Activating a graph on behalf of a context grows the state. -/
theorem grows_activate {name : String} {graph : Graph} {inputs : Option Value} {output : Object}
    (ends : (level settings n).activate name graph inputs (some top) base = .done output last) :
    base.Grows top last := by
  have reached (id : ContextId) (same : some top = some id) : Reachable top base id :=
    Option.some.inj same ▸ .inl (Nat.le_refl top)
  have agree : Run.Preserve True (fun _ _ => True) (Grown top base (callFrame base))
      ((level settings n).activate name graph inputs (some top))
      ((level settings n).activate name graph inputs (some top)) :=
    (follows_grown settings top base n).activate trivial reached
  exact grows_of_agrees (agree base base ⟨rfl, .start descending⟩) ends

end Calls

end Interpreter

end StepGraph
