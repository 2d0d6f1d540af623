import StepGraph.Proofs.Running.Journal
import StepGraph.Proofs.Running.Lockstep
import StepGraph.Proofs.Running.Termination

/-!
# Invariants of one run

An invariant of a run speaks of the frame, of the journal so far and of the state. `Invariant` asks
for it to be kept at each moment and by each change of a context, given that the run is orderly:
within its graph, with the tasks that are being run marked, and each only once. In return the run
and the same run with a journal stay in lockstep, and the invariant holds all along.
-/
namespace StepGraph

variable {σ : Type}

/-- Some step defines a template of a name, in the graph or in one inside it. -/
def Graph.Defines (root : Graph) (name : String) : Prop :=
  ∃ graph step, root.Includes graph ∧ step ∈ graph ∧ step.definesTemplate = true ∧
    step.name = name

/-- A task that can be run in a context. -/
def Task.Belongs (root : Graph) (context : Context) : Task → Prop
  | .step work => work ∈ context.graph ∧ work.isComment = false
  | .call template => root.Defines template

/-- A state that fits the frame it is in. -/
structure Orderly (root : Graph) (frame : Frame) (state : State σ) : Prop where
  /-- The run stays within the graph. -/
  within : state.Within root
  /-- The graphs of the contexts that are alive are known. -/
  shape : state.contexts.map Context.graph = frame.graphs
  /-- No task is begun twice. -/
  once : frame.pending.Nodup
  /-- Every task that is being run is marked in its context and belongs there. -/
  marked : ∀ {id task}, (id, task) ∈ frame.pending → ∃ context,
    state.contexts[id]? = some context ∧ context.hasExecuted task.mark = true ∧
      task.Belongs root context
  /-- Templates bear the names of steps that define them. -/
  named : ∀ {name graph}, Dictionary.find? state.templates name = some graph → root.Defines name

namespace Orderly

variable {root : Graph} {frame : Frame} {state state' : State σ} {id : ContextId}
  {context : Context}

/-- The frame has as many graphs as contexts are alive. -/
theorem length (orderly : Orderly root frame state) :
    frame.graphs.length = state.contexts.length := by
  rw [← orderly.shape, List.length_map]

/-- The graph of a context that is alive stands in the frame. -/
theorem graph (orderly : Orderly root frame state) (alive : state.contexts[id]? = some context) :
    frame.graphs[id]? = some context.graph := by
  rw [← orderly.shape, List.getElem?_map, alive, Option.map_some]

/-- A context that is alive is in range. -/
theorem lt_length (alive : state.contexts[id]? = some context) :
    (id : Nat) < state.contexts.length :=
  (List.getElem?_eq_some_iff.mp alive).choose

/-- The log and the state of the functions do not matter. -/
theorem of_unmoved (orderly : Orderly root frame state) (unmoved : state.Unmoved state') :
    Orderly root frame state' where
  within := orderly.within.of_unmoved unmoved
  shape := unmoved.contexts ▸ orderly.shape
  once := orderly.once
  marked := by
    rw [unmoved.contexts]
    exact orderly.marked
  named := by
    rw [unmoved.templates]
    exact orderly.named

/-- A context may be changed as long as it keeps its graph, its caller and its marks. -/
theorem setContext (orderly : Orderly root frame state) {new : Context}
    (alive : state.contexts[id]? = some context) (graph : new.graph = context.graph)
    (parent : new.parent = context.parent)
    (marks : ∀ name, context.hasExecuted name = true → new.hasExecuted name = true) :
    Orderly root frame (state.setContext id new) where
  within := orderly.within.setContext alive graph parent
  shape := by
    rw [State.setContext_contexts, List.map_set, orderly.shape, graph,
      set_eq_self (orderly.graph alive)]
  once := orderly.once
  marked := by
    intro other task pending
    obtain ⟨held, there, run, belongs⟩ := orderly.marked pending
    by_cases same : other = id
    · subst same
      obtain rfl : context = held := Option.some.inj (alive.symm.trans there)
      refine ⟨new, State.getElem?_setContext_self alive new, marks _ run, ?_⟩
      cases task with
      | step work => exact ⟨graph ▸ belongs.1, belongs.2⟩
      | call template => exact belongs
    · refine ⟨held, ?_, run, belongs⟩
      rwa [State.setContext_contexts, List.getElem?_set_ne (Ne.symm same)]
  named := orderly.named

/-- Publishing is orderly. -/
theorem publish (orderly : Orderly root frame state)
    (alive : state.contexts[id]? = some context) (key : String) (value : Value) (hidden : Bool) :
    Orderly root frame (state.setContext id (context.publish key value hidden)) :=
  orderly.setContext alive rfl rfl fun _ run => run

/-- Marking and beginning a task that belongs to a context is orderly. -/
theorem begin (orderly : Orderly root frame state) (alive : state.contexts[id]? = some context)
    {task : Task} (belongs : task.Belongs root context)
    (fresh : context.hasExecuted task.mark = false) :
    Orderly root (frame.begin id task) (state.setContext id (context.mark task.mark)) := by
  have kept := orderly.setContext alive (context.mark_graph task.mark)
    (context.mark_parent task.mark) fun name run => Context.hasExecuted_mark_of_executed _ run
  refine ⟨kept.within, kept.shape, List.nodup_cons.mpr ⟨fun pending => ?_, orderly.once⟩, ?_,
    kept.named⟩
  · obtain ⟨held, there, run, -⟩ := orderly.marked pending
    obtain rfl : context = held := Option.some.inj (alive.symm.trans there)
    rw [fresh] at run
    cases run
  · intro other work pending
    rcases List.mem_cons.mp pending with same | before
    · obtain ⟨rfl, rfl⟩ := Prod.mk.inj same
      refine ⟨_, State.getElem?_setContext_self alive _, ?_, ?_⟩
      · exact context.hasExecuted_mark_self _
      · cases work with
        | step work => exact ⟨(context.mark_graph _).symm ▸ belongs.1, belongs.2⟩
        | call template => exact belongs
    · exact kept.marked before

/-- Ending the latest task is orderly. -/
theorem finish {task : Task} (orderly : Orderly root (frame.begin id task) state) :
    Orderly root frame state where
  within := orderly.within
  shape := orderly.shape
  once := (List.nodup_cons.mp orderly.once).2
  marked := fun pending => orderly.marked (List.mem_cons_of_mem _ pending)
  named := orderly.named

/-- The latest task belongs to its context. -/
theorem belongs {task : Task} (orderly : Orderly root (frame.begin id task) state)
    (alive : state.contexts[id]? = some context) :
    context.hasExecuted task.mark = true ∧ task.Belongs root context := by
  obtain ⟨held, there, run, belongs⟩ := orderly.marked List.mem_cons_self
  obtain rfl : context = held := Option.some.inj (alive.symm.trans there)
  exact ⟨run, belongs⟩

/-- Defining a template under the name of the latest step is orderly. -/
theorem define {step : Step} (orderly : Orderly root (frame.begin id (.step step)) state)
    (defines : step.definesTemplate = true) {graph : Graph} (inside : root.Includes graph) :
    Orderly root (frame.begin id (.step step)) (state.define step.name graph) where
  within := orderly.within.define step.name inside
  shape := orderly.shape
  once := orderly.once
  marked := orderly.marked
  named := by
    intro name found there
    rw [State.define_templates] at there
    by_cases same : name = step.name
    · subst same
      obtain ⟨context, alive, -, member, -⟩ := orderly.marked List.mem_cons_self
      exact ⟨context.graph, step, orderly.within.graphs alive, member, defines, rfl⟩
    · rw [Dictionary.find?_insert_of_ne _ _ same] at there
      exact orderly.named there

/-- Entering an activation is orderly. -/
theorem enter (orderly : Orderly root frame state) {graph : Graph} (inside : root.Includes graph)
    (inputs : Option Value) {caller : Option ContextId}
    (below : ∀ id, caller = some id → id < frame.graphs.length) :
    Orderly root (frame.deeper graph) (state.enter (Context.start graph inputs caller)) where
  within := orderly.within.enter inside inputs fun id same => orderly.length ▸ below id same
  shape := by
    rw [State.enter_contexts, List.map_append, orderly.shape]
    rfl
  once := orderly.once
  marked := by
    intro id task pending
    obtain ⟨context, alive, run, belongs⟩ := orderly.marked pending
    refine ⟨context, ?_, run, belongs⟩
    rw [State.enter_contexts, List.getElem?_append_left (lt_length alive)]
    exact alive
  named := orderly.named

/-- What was alive before an activation, and in it, is alive after it. -/
theorem alive_leave {graph : Graph} (before : Orderly root frame state')
    (shape : state.contexts.map Context.graph = frame.graphs ++ [graph]) {old : Context}
    (old_alive : state'.contexts[id]? = some old) (alive : state.contexts[id]? = some context) :
    state.leave.contexts[id]? = some context := by
  have inside := lt_length old_alive
  rw [← before.length] at inside
  have deeper := congrArg List.length shape
  rw [List.length_map, List.length_append, List.length_singleton] at deeper
  rw [State.leave_contexts, List.getElem?_dropLast, deeper, Nat.add_sub_cancel, if_pos inside]
  exact alive

/-- Leaving an activation is orderly. -/
theorem leave {graph : Graph} (before : Orderly root frame state')
    (orderly : Orderly root (frame.deeper graph) state) : Orderly root frame state.leave where
  within := orderly.within.leave
  shape := by
    rw [State.leave_contexts, List.map_dropLast, orderly.shape]
    exact List.dropLast_concat
  once := orderly.once
  marked := by
    intro id task pending
    have begun : (id, task) ∈ frame.pending := pending
    obtain ⟨context, alive, run, belongs⟩ := orderly.marked begun
    obtain ⟨old, old_alive, -, -⟩ := before.marked pending
    exact ⟨context, before.alive_leave orderly.shape old_alive alive, run, belongs⟩
  named := orderly.named

end Orderly

/-- What keeps an invariant of a run of a graph, and what it says of the journal of a run that
fails. -/
structure Invariant (root : Graph) (maxDepth : Nat)
    (inv : Frame → List (Moment σ) → State σ → Prop) (broken : List (Moment σ) → Prop) :
    Prop where
  /-- A failure may come at any time. -/
  aborts : ∀ {frame notes state}, inv frame notes state → broken notes
  /-- The log and the state of the functions do not matter. -/
  fields : ∀ {frame notes state state'}, inv frame notes state →
    state'.contexts = state.contexts → state'.templates = state.templates →
    state'.depth = state.depth → inv frame notes state'
  /-- The search for a path begins or ends. -/
  searches : ∀ {frame notes state id path ended}, Orderly root frame state →
    inv frame notes state → id < frame.graphs.length →
    inv frame (⟨.resolve id path, ended, state⟩ :: notes) state
  /-- A step is marked and begins to be run. -/
  stepBegins : ∀ {frame notes state id context step}, Orderly root frame state →
    inv frame notes state → state.contexts[id]? = some context → step ∈ context.graph →
    step.isComment = false → context.hasExecuted step.name = false →
    let marked := state.setContext id (context.mark step.name)
    inv (frame.begin id (.step step)) (⟨.perform id step, false, marked⟩ :: notes) marked
  /-- A step publishes its result and ends. -/
  stepPublishes : ∀ {frame notes state id context step value},
    Orderly root (frame.begin id (.step step)) state →
    inv (frame.begin id (.step step)) notes state →
    state.contexts[id]? = some context → step.publishes = true →
    let published := state.setContext id (context.publish step.publishKey value step.isHidden)
    inv frame (⟨.perform id step, true, published⟩ :: notes) published
  /-- A step defines a template and ends. -/
  stepDefines : ∀ {frame notes state id step graph},
    Orderly root (frame.begin id (.step step)) state →
    inv (frame.begin id (.step step)) notes state →
    step.definesTemplate = true → root.Includes graph →
    let defined := state.define step.name graph
    inv frame (⟨.perform id step, true, defined⟩ :: notes) defined
  /-- The call of a template is marked and begins. -/
  callBegins : ∀ {frame notes state id context name graph}, Orderly root frame state →
    inv frame notes state → state.contexts[id]? = some context →
    Dictionary.find? state.templates name = some graph →
    context.hasExecuted (implicitCallMark ++ name) = false →
    inv (frame.begin id (.call name)) notes
      (state.setContext id (context.mark (implicitCallMark ++ name)))
  /-- The call of a template publishes its output and ends. -/
  callPublishes : ∀ {frame notes state id context name value},
    Orderly root (frame.begin id (.call name)) state →
    inv (frame.begin id (.call name)) notes state → state.contexts[id]? = some context →
    inv frame notes (state.setContext id (context.publish name value true))
  /-- An activation begins. -/
  activates : ∀ {frame notes state name graph inputs caller}, Orderly root frame state →
    inv frame notes state → root.Includes graph →
    (∀ id, caller = some id → id < frame.graphs.length) →
    inv frame (⟨.activate name graph inputs caller, false, state⟩ :: notes) state
  /-- The context of an activation is entered. -/
  enters : ∀ {frame notes state name graph inputs caller}, Orderly root frame state →
    inv frame notes state → root.Includes graph →
    (∀ id, caller = some id → id < frame.graphs.length) → state.depth < maxDepth →
    inv (frame.deeper graph) (⟨.activate name graph inputs caller, false, state⟩ :: notes)
      (state.enter (Context.start graph inputs caller))
  /-- The context of an activation is left, which ends. -/
  leaves : ∀ {frame earlier before notes state name graph inputs caller},
    (∀ id, caller = some id → id < frame.graphs.length) → Orderly root frame before →
    inv frame earlier before → Orderly root (frame.deeper graph) state →
    inv (frame.deeper graph) notes state →
    inv frame (⟨.activate name graph inputs caller, true, state.leave⟩ :: notes) state.leave

namespace Invariant

open Interpreter

/-- A run and the same run with a journal, while an invariant holds. -/
def Keeps (root : Graph) (inv : Frame → List (Moment σ) → State σ → Prop) (frame : Frame)
    (state : State σ) (state' : State (σ × List (Moment σ))) : Prop :=
  ∃ notes, state' = state.carrying notes ∧ Orderly root frame state ∧ inv frame notes state

/-- A run and the same run with a journal, once they have failed. -/
def Breaks (broken : List (Moment σ) → Prop) (state : State σ)
    (state' : State (σ × List (Moment σ))) : Prop :=
  ∃ notes, state' = state.carrying notes ∧ broken notes

/-- A context that a frame has a graph for. -/
def InRange (graphs : List Graph) (id : ContextId) : Prop := id < graphs.length

variable {root : Graph} {inv : Frame → List (Moment σ) → State σ → Prop}
  {broken : List (Moment σ) → Prop} {settings : Settings σ}

/-- Logging goes past what is kept beside the state of the functions. -/
theorem carrying_traced (state : State σ) (notes : List (Moment σ)) (event : Event) :
    (state.carrying notes).traced settings.carry event =
      (state.traced settings event).carrying notes := by
  unfold State.traced
  show (if settings.config.trace = true then _ else _) = _
  split <;> rfl

/-- A reply goes past what is kept beside the state of the functions. -/
theorem carrying_replied (state : State σ) (notes : List (Moment σ)) (reply : Reply σ Value) :
    (state.carrying notes).replied (Registry.carryReply reply notes) =
      (state.replied reply).carrying notes := by
  have logged (warnings : List Warning) (state : State σ) :
      warnings.foldl (fun state warning => state.record (.warning warning))
          (state.carrying notes) =
        (warnings.foldl (fun state warning => state.record (.warning warning)) state).carrying
          notes := by
    induction warnings generalizing state with
    | nil => rfl
    | cons warning rest ih => exact ih (state.record (.warning warning))
  unfold State.replied Registry.carryReply
  rw [logged]
  rfl

/-- An invariant does not depend on the log and the state of the functions. -/
theorem of_unmoved (invariant : Invariant root settings.config.maxDepth inv broken) {frame : Frame}
    {notes : List (Moment σ)} {state state' : State σ} (holds : inv frame notes state)
    (unmoved : state.Unmoved state') : inv frame notes state' :=
  invariant.fields holds unmoved.contexts unmoved.templates unmoved.depth

/-- Outside of contexts an invariant is kept. -/
theorem basis (invariant : Invariant root settings.config.maxDepth inv broken) (frame : Frame) :
    Basis True (Breaks broken) (Keeps root inv frame) (.inside root) settings
      settings.carry where
  aborts := by
    rintro first _ ⟨notes, rfl, -, holds⟩
    exact ⟨notes, rfl, invariant.aborts holds⟩
  contains := fun name => (congrFun (Registry.carry_contains settings.registry) name).symm
  calls := by
    rintro function params first _ ⟨notes, rfl, orderly, holds⟩
    have unmoved := first.unmoved_replied (settings.registry.call function params first.host)
    have answer : settings.carry.registry.call function params (first.carrying notes).host =
        Registry.carryReply (settings.registry.call function params first.host) notes :=
      Registry.call_carry settings.registry function params first.host notes
    rw [Run.call_apply, Run.call_apply, answer, carrying_replied]
    exact .done _ ⟨notes, rfl, orderly.of_unmoved unmoved, invariant.of_unmoved holds unmoved⟩
  traces := by
    rintro event first _ ⟨notes, rfl, orderly, holds⟩
    rw [Run.trace_apply, Run.trace_apply, carrying_traced]
    have unmoved := first.unmoved_traced settings event
    exact .done _ ⟨notes, rfl, orderly.of_unmoved unmoved, invariant.of_unmoved holds unmoved⟩
  warns := by
    rintro warning first _ ⟨notes, rfl, orderly, holds⟩
    exact .done _ ⟨notes, rfl, orderly.of_unmoved ⟨rfl, rfl, rfl⟩,
      invariant.fields holds rfl rfl rfl⟩
  templates := by
    rintro first _ ⟨notes, rfl, -, -⟩ name -
    rfl
  knows := by
    rintro first _ ⟨notes, rfl, orderly, -⟩ name graph - found
    exact orderly.within.templates found

/-- A committed result goes past what is kept beside the state of the functions. -/
theorem carrying_reported (state : State σ) (notes : List (Moment σ)) (step : Step)
    (value : Value) :
    reported settings.carry step value (state.carrying notes) =
      (reported settings step value state).carrying notes := by
  cases step <;> simp only [reported, carrying_traced]

/-- An invariant keeps a run and the same run with a journal in lockstep. -/
theorem lockstep (invariant : Invariant root settings.config.maxDepth inv broken) :
    Lockstep (fun _ => Breaks broken) settings settings.carry .silent journal InRange
      (.inside root) (Keeps root inv) where
  basis := invariant.basis
  maxDepth := rfl
  shape := by
    rintro frame first _ ⟨notes, rfl, orderly, -⟩
    exact ⟨rfl, orderly.length.symm, orderly.length.symm⟩
  latest := by
    rintro frame _ _ first _ graph - ⟨notes, rfl, orderly, -⟩
    have graphs := congrArg (fun held => held[frame.graphs.length]?) orderly.shape
    simp only [Frame.deeper, List.getElem?_concat_length, List.getElem?_map] at graphs
    obtain ⟨context, alive, same⟩ := Option.map_eq_some_iff.mp graphs
    exact ⟨by simp [InRange, Frame.deeper], context, alive, same⟩
  context := by
    rintro frame first _ id context ⟨notes, rfl, orderly, -⟩ inside alive
    refine ⟨⟨context, alive, .refl (orderly.within.graphs alive)⟩, fun caller calls => ?_⟩
    exact Nat.lt_trans (orderly.within.callers alive calls) inside
  resolveBegins := by
    rintro frame first _ id path ⟨notes, rfl, orderly, holds⟩ inside
    exact ⟨_, rfl, orderly, invariant.searches orderly holds inside⟩
  resolveEnds := by
    rintro frame first _ id path ⟨notes, rfl, orderly, holds⟩ inside
    exact ⟨_, rfl, orderly, invariant.searches orderly holds inside⟩
  stepBegins := by
    rintro frame first _ id context context' step ⟨notes, rfl, orderly, holds⟩ - alive alive' -
      member acts fresh
    obtain rfl : context = context' := Option.some.inj (alive.symm.trans alive')
    have belongs : Task.Belongs root context (.step step) := ⟨member, acts⟩
    exact ⟨_, rfl, orderly.begin alive belongs fresh,
      invariant.stepBegins orderly holds alive member acts fresh⟩
  stepEnds := by
    rintro frame id step effect - acts fits first _ ⟨notes, rfl, orderly, holds⟩
    cases effect with
    | publish value =>
      cases alive : first.contexts[id]? with
      | none =>
        rw [commit_publish_apply_of_none settings step value alive]
        exact .stuck _ _ trivial
      | some context =>
        have unmoved := unmoved_reported settings first step value
        have there : (reported settings step value first).contexts[id]? = some context := by
          rwa [unmoved.contexts]
        have kept := orderly.of_unmoved unmoved
        have carried : (first.carrying notes).contexts[id]? = some context := alive
        rw [commit_publish_apply settings step value alive,
          commit_publish_apply settings.carry step value carried, carrying_reported]
        exact .done _ ⟨_, rfl, (kept.publish there _ _ _).finish, invariant.stepPublishes kept
          (invariant.of_unmoved holds unmoved) there fits⟩
    | define graph =>
      exact .done _ ⟨_, rfl, (orderly.define fits.1 fits.2).finish,
        invariant.stepDefines orderly holds fits.1 fits.2⟩
    | nothing =>
      rw [Effect.Fits, acts] at fits
      cases fits
  callBegins := by
    rintro frame first _ id context context' name graph ⟨notes, rfl, orderly, holds⟩ - alive
      alive' - defined fresh
    obtain rfl : context = context' := Option.some.inj (alive.symm.trans alive')
    exact ⟨_, rfl, orderly.begin alive (show Task.Belongs root context (.call name) from
      orderly.named defined) fresh,
      invariant.callBegins orderly holds alive defined fresh⟩
  callEnds := by
    rintro frame id name output - first _ ⟨notes, rfl, orderly, holds⟩
    cases alive : first.contexts[id]? with
    | none =>
      rw [Run.publish_apply_of_none _ _ _ alive]
      exact .stuck _ _ trivial
    | some context =>
      have carried : (first.carrying notes).contexts[id]? = some context := alive
      rw [Run.publish_apply _ _ _ alive, Run.publish_apply _ _ _ carried, carrying_traced]
      have unmoved := first.unmoved_traced settings (.executed name true output)
      have there : (first.traced settings (.executed name true output)).contexts[id]? =
          some context := by rwa [unmoved.contexts]
      have kept := orderly.of_unmoved unmoved
      exact .done _ ⟨_, rfl, (kept.publish there _ _ _).finish, invariant.callPublishes kept
        (invariant.of_unmoved holds unmoved) there⟩
  activateBegins := by
    rintro frame first _ graph caller name inputs ⟨notes, rfl, orderly, holds⟩ inside below
    exact ⟨_, rfl, orderly, invariant.activates orderly holds inside below⟩
  enters := by
    rintro frame first _ graph caller name inputs inside below ⟨notes, rfl, orderly, holds⟩ shallow
    exact ⟨_, rfl, orderly.enter inside inputs below,
      invariant.enters orderly holds inside below shallow⟩
  leaves := by
    rintro frame before _ first _ graph name inputs caller below ⟨earlier, rfl, begun, held⟩
      ⟨notes, rfl, orderly, holds⟩
    exact ⟨rfl, _, rfl, begun.leave orderly, invariant.leaves below begun held orderly holds⟩
  abandons := by
    rintro frame _ _ first _ graph - ⟨notes, rfl, breaks⟩
    exact ⟨notes, rfl, breaks⟩

/-- A run whose begin an invariant allows ends as the same run with a journal does, and the
invariant holds at the end. -/
theorem agrees_activate {settings : Settings σ}
    (invariant : Invariant root settings.config.maxDepth inv broken) (n : Nat) (name : String)
    (inputs : Option Value) {frame : Frame} {notes : List (Moment σ)} {state : State σ}
    (orderly : Orderly root frame state) (holds : inv frame notes state) {graph : Graph}
    {caller : Option ContextId} (inside : root.Includes graph)
    (below : ∀ id, caller = some id → id < frame.graphs.length) :
    Outcome.Agrees True (Breaks broken) (fun _ => Keeps root inv frame)
      ((level settings n).activate name graph inputs caller state)
      ((journaled settings n).activate name graph inputs caller (state.carrying notes)) := by
  have follows := invariant.lockstep.level n n (Nat.le_refl n)
  rw [observed_silent] at follows
  exact follows.activate inside below _ _ ⟨notes, rfl, orderly, holds⟩

/-- What an invariant says of a journal holds of the history of every run. -/
theorem history {settings : Settings σ}
    (invariant : Invariant root settings.config.maxDepth inv broken) (inputs : Value)
    (state : State σ) (starts : inv ⟨[], []⟩ [] state.reset) :
    broken (Run.history settings root inputs state).reverse := by
  have orderly : Orderly root ⟨[], []⟩ state.reset :=
    ⟨state.within_reset root, rfl, List.nodup_nil, nofun, fun there => nomatch there⟩
  have callers : ∀ id : ContextId, none = some id → id < ([] : List Graph).length := nofun
  have agree := invariant.agrees_activate
    (sufficientLevel root settings.config.maxDepth) rootName (some inputs) orderly starts .self
    callers
  have ends := Run.graph_ne_stuck settings root inputs state
  unfold Run.history
  unfold Run.graph at ends
  rw [Run.bind_apply_of_done (show Run.update State.reset state = .done () state.reset from rfl)]
    at ends
  generalize (level settings _).activate _ _ _ _ _ = outcome at agree ends
  generalize (journaled settings _).activate _ _ _ _ _ = other at agree ⊢
  cases agree with
  | done value related =>
    obtain ⟨notes, rfl, -, holds⟩ := related
    show broken notes.reverse.reverse
    rw [List.reverse_reverse]
    exact invariant.aborts holds
  | failed failure related =>
    obtain ⟨notes, rfl, breaks⟩ := related
    show broken notes.reverse.reverse
    rwa [List.reverse_reverse]
  | stuck reason _ _ => exact absurd rfl (ends reason)

end Invariant

/-- A moment that a run of a graph can come to. -/
structure Moment.Reached (root : Graph) (moment : Moment σ) : Prop where
  /-- The run stays within the graph. -/
  within : moment.state.Within root
  /-- Templates bear the names of steps that define them. -/
  named : ∀ {name graph}, Dictionary.find? moment.state.templates name = some graph →
    root.Defines name
  /-- Only graphs inside the whole are activated, with callers that are alive. -/
  activates : ∀ {name graph inputs caller}, moment.call = .activate name graph inputs caller →
    moment.ended = false → root.Includes graph ∧
      ∀ id, caller = some id → id < moment.state.contexts.length

namespace Orderly

variable {root : Graph} {frame : Frame} {state : State σ}

/-- An orderly state can be reached, when no activation begins. -/
theorem reached (orderly : Orderly root frame state) (call : Call) (ended : Bool)
    (other : ∀ name graph inputs caller, call = .activate name graph inputs caller →
      ended ≠ false) : Moment.Reached root ⟨call, ended, state⟩ :=
  ⟨orderly.within, orderly.named, fun same begins => absurd begins (other _ _ _ _ same)⟩

/-- An orderly state can be reached, when a graph inside the whole begins to be activated. -/
theorem reached_activate (orderly : Orderly root frame state) {name : String} {graph : Graph}
    {inputs : Option Value} {caller : Option ContextId} (inside : root.Includes graph)
    (below : ∀ id, caller = some id → id < frame.graphs.length) :
    Moment.Reached root ⟨.activate name graph inputs caller, false, state⟩ := by
  refine ⟨orderly.within, orderly.named, fun same _ => ?_⟩
  cases same
  exact ⟨inside, fun id calls => orderly.length ▸ below id calls⟩

/-- A state that can be reached is orderly when no task is being run. -/
theorem of_reached {moment : Moment σ} (reached : moment.Reached root) :
    Orderly root ⟨moment.state.contexts.map Context.graph, []⟩ moment.state :=
  ⟨reached.within, rfl, List.nodup_nil, nofun, reached.named⟩

end Orderly

/-- That all moments so far could be reached is invariant. -/
theorem Invariant.reached (root : Graph) (maxDepth : Nat) :
    Invariant root maxDepth
      (fun _ (notes : List (Moment σ)) _ => ∀ moment ∈ notes, moment.Reached root)
      fun notes => ∀ moment ∈ notes, moment.Reached root where
  aborts := id
  fields := fun holds _ _ _ => holds
  searches := fun orderly holds _ => List.forall_mem_cons.mpr ⟨orderly.reached _ _ nofun, holds⟩
  stepBegins := by
    intro frame notes state id context step orderly holds alive member acts fresh
    have belongs : Task.Belongs root context (.step step) := ⟨member, acts⟩
    exact List.forall_mem_cons.mpr ⟨(orderly.begin alive belongs fresh).reached _ _ nofun, holds⟩
  stepPublishes := fun orderly holds alive _ =>
    List.forall_mem_cons.mpr ⟨(orderly.publish alive _ _ _).reached _ _ nofun, holds⟩
  stepDefines := fun orderly holds defines inside =>
    List.forall_mem_cons.mpr ⟨(orderly.define defines inside).reached _ _ nofun, holds⟩
  callBegins := fun _ holds _ _ _ => holds
  callPublishes := fun _ holds _ => holds
  activates := fun orderly holds inside below =>
    List.forall_mem_cons.mpr ⟨orderly.reached_activate inside below, holds⟩
  enters := fun orderly holds inside below _ =>
    List.forall_mem_cons.mpr ⟨orderly.reached_activate inside below, holds⟩
  leaves := fun _ before _ orderly holds =>
    List.forall_mem_cons.mpr ⟨(before.leave orderly).reached _ _ nofun, holds⟩

/-- An activation with an output leaves an orderly state. -/
theorem Orderly.activate {root : Graph} {frame : Frame} {state last : State σ}
    (orderly : Orderly root frame state) {settings : Settings σ} {n : Nat} {name : String}
    {graph : Graph} {inputs : Option Value} {caller : Option ContextId}
    (inside : root.Includes graph) (below : ∀ id, caller = some id → id < frame.graphs.length)
    {output : Object}
    (ends : (Interpreter.level settings n).activate name graph inputs caller state =
      .done output last) : Orderly root frame last := by
  have none_noted : ∀ moment ∈ ([] : List (Moment σ)), moment.Reached root := nofun
  have agree := (Invariant.reached root settings.config.maxDepth).agrees_activate n name inputs
    orderly none_noted inside below
  rw [ends] at agree
  obtain ⟨_, -, _, -, kept, -⟩ := agree.of_done
  exact kept

/-- Where no step defines a template, none is defined. -/
theorem Orderly.templates_eq_nil {root : Graph} {frame : Frame} {state : State σ}
    (orderly : Orderly root frame state)
    (defines : root.Everywhere fun step => step.definesTemplate = false) :
    state.templates = [] := by
  cases held : state.templates with
  | nil => rfl
  | cons entry rest =>
    have found : Dictionary.find? state.templates entry.1 = some entry.2 := by
      rw [held, Dictionary.find?, if_pos rfl]
    obtain ⟨graph, step, inside, member, defined, -⟩ := orderly.named found
    rw [defines graph inside step member] at defined
    cases defined

/-- Every moment of a run can be reached. -/
theorem Run.reached_of_mem_history {settings : Settings σ} {root : Graph} {inputs : Value}
    {state : State σ} {moment : Moment σ}
    (member : moment ∈ Run.history settings root inputs state) : moment.Reached root :=
  (Invariant.reached root settings.config.maxDepth).history inputs state nofun moment
    (List.mem_reverse.mpr member)

end StepGraph
