import StepGraph.Proofs.Graph.Chain
import StepGraph.Proofs.Path
import StepGraph.Proofs.Settling

/-!
# Contexts along a chain

As long as there are no templates, the contexts that are alive run the bodies of a chain, the oldest
the graph itself. Each of them was begun for a step that is marked in the context around it. The
paths of that step have been looked for before its body was run, and wait for no step any more; so
what has begun in the sense of the chain has been run. What is stored in a context was published by
such a step, or is its inputs.

A path may be looked for, and a step run, where whatever body they demand may come next in the
chain. Each search and each step hands this on to the searches and steps that it brings about.
-/
namespace StepGraph

variable {σ : Type}

namespace Context

/-- A step has been run in the context that publishes under a key. -/
def HasPublished (context : Context) (key : String) : Prop :=
  ∃ step ∈ context.graph, step.isComment = false ∧ step.publishKey = key ∧
    context.hasExecuted step.name = true

/-- A path that starts outside of the inputs waits for no step in the context, as when it has been
looked for. -/
def HasTried (context : Context) (path : String) : Prop :=
  Path.head path ≠ inputsKey → context.awaited? path = none

/-- The context is ready to wait for the body of a step: the step is marked, and its paths have been
looked for. -/
structure Awaits (context : Context) (name : String) : Prop where
  /-- The step is marked. -/
  marked : context.hasExecuted name = true
  /-- Its paths have been looked for. -/
  tried : ∀ step ∈ context.graph, step.name = name → ∀ path ∈ step.paths, context.HasTried path

/-- A context that has been changed by runs of its steps. -/
structure Advances (old new : Context) : Prop extends old.Grows new where
  /-- What is stored under a key is the same, unless a step publishes there. -/
  stored : ∀ key, Dictionary.find? new.values key = Dictionary.find? old.values key ∨
    new.HasPublished key

namespace Advances

variable {old middle new : Context}

/-- A context that is left alone. -/
theorem refl (context : Context) : context.Advances context := ⟨.refl context, fun _ => .inl rfl⟩

/-- What has been published has been published later. -/
theorem hasPublished (advanced : old.Advances new) {key : String}
    (published : old.HasPublished key) : new.HasPublished key := by
  obtain ⟨step, member, acts, same, run⟩ := published
  rw [← advanced.graph] at member
  exact ⟨step, member, acts, same, advanced.marks step.name run⟩

/-- Changes add up. -/
theorem trans (first : old.Advances middle) (second : middle.Advances new) : old.Advances new where
  toGrows := first.toGrows.trans second.toGrows
  stored := by
    intro key
    rcases second.stored key with same | published
    · rcases first.stored key with same' | published
      · exact .inl (same.trans same')
      · exact .inr (second.hasPublished published)
    · exact .inr published

/-- Marking a name. -/
theorem mark (context : Context) (name : String) : context.Advances (context.mark name) :=
  ⟨.mark context name, fun key => .inl (by rw [mark_values])⟩

/-- Publishing the result of a step that has been run. -/
theorem publish {context : Context} {step : Step} (member : step ∈ context.graph)
    (acts : step.isComment = false) (run : context.hasExecuted step.name = true) (value : Value)
    (hidden : Bool) : context.Advances (context.publish step.publishKey value hidden) where
  toGrows := .publish context _ value hidden
  stored := by
    intro key
    by_cases same : key = step.publishKey
    · exact .inr ⟨step, member, acts, same.symm, run⟩
    · left
      rw [publish_values, Dictionary.find?_insert_of_ne _ _ same]

variable (advanced : old.Advances new)

include advanced

/-- A path that has been looked for has been looked for later. -/
theorem hasTried {path : String} (tried : old.HasTried path) : new.HasTried path :=
  fun outside => advanced.awaited? (tried outside)

/-- A context that is ready to wait is so later. -/
theorem awaits {name : String} (awaits : old.Awaits name) : new.Awaits name where
  marked := advanced.marks name awaits.marked
  tried := by
    rw [advanced.graph]
    exact fun step member same path path_mem =>
      advanced.hasTried (awaits.tried step member same path path_mem)

end Advances

end Context

/-- All contexts of a list are in another one, changed by runs of their steps. -/
def AllAdvanced (contexts contexts' : List Context) : Prop :=
  ∀ ⦃id : ContextId⦄ ⦃context : Context⦄, contexts[id]? = some context →
    ∃ context', contexts'[id]? = some context' ∧ context.Advances context'

/-- A state that has come from another by a run that is back at the same depth. -/
structure State.Keeps (base state : State σ) : Prop where
  /-- The depth is the same. -/
  depth : state.depth = base.depth
  /-- The templates are the same. -/
  templates : state.templates = base.templates
  /-- As many contexts are alive. -/
  length : state.contexts.length = base.contexts.length
  /-- Each of them has been changed only by runs of its steps. -/
  contexts : AllAdvanced base.contexts state.contexts

namespace State.Keeps

variable {base middle state : State σ} {id : ContextId} {context : Context}

/-- Nothing has happened. -/
theorem refl (state : State σ) : state.Keeps state :=
  ⟨rfl, rfl, rfl, fun _ _ alive => ⟨_, alive, .refl _⟩⟩

/-- What happens after each other adds up. -/
theorem trans (first : base.Keeps middle) (second : middle.Keeps state) : base.Keeps state where
  depth := second.depth.trans first.depth
  templates := second.templates.trans first.templates
  length := second.length.trans first.length
  contexts := by
    intro id context alive
    obtain ⟨between, there, advanced⟩ := first.contexts alive
    obtain ⟨context', there', advanced'⟩ := second.contexts there
    exact ⟨context', there', advanced.trans advanced'⟩

/-- The log and the state of the functions do not matter. -/
theorem of_unmoved (unmoved : base.Unmoved state) : base.Keeps state :=
  ⟨unmoved.depth, unmoved.templates, congrArg List.length unmoved.contexts,
    fun _ _ alive => ⟨_, unmoved.contexts ▸ alive, .refl _⟩⟩

/-- A context is changed by a run of its steps. -/
theorem setContext (alive : base.contexts[id]? = some context) {new : Context}
    (advances : context.Advances new) : base.Keeps (base.setContext id new) where
  depth := rfl
  templates := rfl
  length := List.length_set
  contexts := by
    intro other old there
    by_cases same : other = id
    · subst same
      obtain rfl := Option.some.inj (alive.symm.trans there)
      exact ⟨new, State.getElem?_setContext_self alive new, advances⟩
    · refine ⟨old, ?_, .refl old⟩
      rwa [State.setContext_contexts, List.getElem?_set_ne (Ne.symm same)]

/-- An activation is entered and left again. -/
theorem leave {entered : Context} (kept : (base.enter entered).Keeps state) :
    base.Keeps state.leave where
  depth := by
    rw [State.leave_depth, kept.depth, State.enter_depth, Nat.add_sub_cancel]
  templates := kept.templates
  length := by
    rw [State.leave_contexts, List.length_dropLast, kept.length, State.enter_contexts,
      List.length_append, List.length_singleton, Nat.add_sub_cancel]
  contexts := by
    intro id old alive
    have inside : id < base.contexts.length := (List.getElem?_eq_some_iff.mp alive).choose
    have before : (base.enter entered).contexts[id]? = some old := by
      rwa [State.enter_contexts, List.getElem?_append_left inside]
    obtain ⟨held, there, advanced⟩ := kept.contexts before
    refine ⟨held, ?_, advanced⟩
    rw [State.leave_contexts, List.getElem?_dropLast, kept.length, State.enter_contexts,
      List.length_append, List.length_singleton, Nat.add_sub_cancel, if_pos inside]
    exact there

end State.Keeps

/-- The context that a body may read from runs the graph around it, and the body has the inputs that
its step gives. -/
inductive Context.CalledFrom (root : Graph) (chain : List Site) (context : Context)
    (caller : ContextId) : Site → Prop where
  /-- The body of a step that runs under a namespace. -/
  | body {site : Site} {around : Graph} {header : Header} {invocation : Invocation}
      (placed : chain[caller]? = some site) (held : root.Holds site around)
      (member : .graph header invocation (.inline context.graph) ∈ around)
      (namespaced : Step.isNamespaced (.graph header invocation (.inline context.graph)) = true)
      (given : ∀ path, Step.gives (.graph header invocation (.inline context.graph)) path = true →
        Path.resolve context.values path ≠ .ok none) :
      CalledFrom root chain context caller (header.name :: site)

/-- A body is called from the same context when more bodies follow in the chain. -/
theorem Context.CalledFrom.mono {root : Graph} {chain longer : List Site} {context : Context}
    {caller : ContextId} {site : Site} (called : context.CalledFrom root chain caller site)
    (earlier : ∀ {site}, chain[caller]? = some site → longer[caller]? = some site) :
    context.CalledFrom root longer caller site := by
  obtain ⟨placed, held, member, namespaced, given⟩ := called
  exact .body (earlier placed) held member namespaced given

/-- A context that runs what a graph holds at a site. -/
structure Context.StandsAt (root : Graph) (chain : List Site) (site : Site) (context : Context) :
    Prop where
  /-- The graph is held there. -/
  held : root.Holds site context.graph
  /-- If it may read from another context, it does so as a body. -/
  called : ∀ {caller}, context.parent = some caller → context.CalledFrom root chain caller site
  /-- What is stored is the inputs or comes from steps that have been run. -/
  stored : ∀ {key value}, Dictionary.find? context.values key = some value →
    key = inputsKey ∨ context.HasPublished key

/-- A new context stores its inputs at most. -/
theorem Context.eq_of_find?_start {graph : Graph} {inputs : Option Value}
    {caller : Option ContextId} {key : String} {value : Value}
    (stored : Dictionary.find? (Context.start graph inputs caller).values key = some value) :
    key = inputsKey := by
  by_contra different
  cases inputs with
  | none => cases stored
  | some inputs =>
    rw [Context.start, Dictionary.find?, if_neg (Ne.symm different)] at stored
    cases stored

/-- A path to an input that a step gives its body leads into the inputs, which no step of the body
publishes. -/
theorem Step.inputs_of_gives {header : Header} {invocation : Invocation} {steps : Graph}
    {path : String} (given : Step.gives (.graph header invocation (.inline steps)) path = true) :
    Graph.findStep? steps inputsKey = none ∧
      ∃ entries, invocation.inputs = some (.object entries) ∧
        ∃ key ∈ Dictionary.keys entries, Path.segments path = [inputsKey, key] := by
  rw [Step.gives, Bool.and_eq_true] at given
  obtain ⟨free, named⟩ := given
  refine ⟨Option.isNone_iff_eq_none.mp free, ?_⟩
  split at named
  · rename_i entries inputs
    obtain ⟨key, member, same⟩ := List.any_eq_true.mp named
    exact ⟨entries, inputs, key, member, eq_of_beq same⟩
  · cases named

/-- No step publishes under a text that refers to none. -/
theorem Context.not_hasPublished {context : Context} {key : String}
    (free : Graph.findStep? context.graph key = none) : ¬context.HasPublished key := by
  rintro ⟨step, member, acts, rfl, -⟩
  have answers : step.answersTo step.publishKey = true :=
    Step.answersTo_iff.mpr ⟨acts, step.publishKey_mem_keys⟩
  exact List.find?_eq_none.mp free step member answers

/-- What is found outside of the inputs comes from the step that the path starts from. -/
theorem Context.StandsAt.awaited?_eq_none {root : Graph} {chain : List Site} {site : Site}
    {context : Context} (stands : context.StandsAt root chain site) (valid : root.IsValid)
    {path : String} {value : Value} (outside : Path.head path ≠ inputsKey)
    (found : Path.resolve context.values path = .ok (some value)) :
    context.awaited? path = none := by
  obtain ⟨held, stored⟩ := Path.exists_of_resolve_eq_some found
  obtain ⟨step, member, acts, key, run⟩ := (stands.stored stored).resolve_left outside
  have refers : Graph.findStep? context.graph (Path.head path) = some step :=
    (valid.of_includes stands.held.includes).findStep? member acts (key ▸ step.publishKey_mem_keys)
  rw [Context.awaited?_eq_none_iff]
  intro other refers'
  rw [refers] at refers'
  exact Option.some.inj refers' ▸ run

namespace Context.Advances

variable {root : Graph} {chain : List Site} {site : Site} {old new : Context}

/-- A context has the inputs that it was given as long as no step takes their place. -/
theorem calledFrom (advanced : old.Advances new) {caller : ContextId}
    (called : old.CalledFrom root chain caller site) :
    new.CalledFrom root chain caller site := by
  obtain ⟨placed, held, member, namespaced, given⟩ := called
  rw [← advanced.graph] at member namespaced given
  refine .body placed held member namespaced fun path gives => ?_
  obtain ⟨free, _, -, key, -, segments⟩ := Step.inputs_of_gives gives
  have head : Path.head path = inputsKey := by rw [Path.head, segments]; rfl
  have same : Dictionary.find? new.values (Path.head path) =
      Dictionary.find? old.values (Path.head path) := by
    rw [head]
    exact (advanced.stored inputsKey).resolve_right (Context.not_hasPublished free)
  rw [Path.resolve_congr same]
  exact given path gives

/-- A context stands where it stood. -/
theorem standsAt (advanced : old.Advances new) (stands : old.StandsAt root chain site) :
    new.StandsAt root chain site where
  held := by
    rw [advanced.graph]
    exact stands.held
  called := by
    rw [advanced.parent]
    exact fun calls => advanced.calledFrom (stands.called calls)
  stored := by
    intro key value stored
    rcases advanced.stored key with same | published
    · rw [same] at stored
      exact (stands.stored stored).imp_right advanced.hasPublished
    · exact .inr published

end Context.Advances

/-- The caller that a body is run with: none, or, for a body under a namespace, the context of its
step. In that case the inputs have the names that the step gives. -/
inductive Source (header : Header) (invocation : Invocation) (steps : Graph) (id : ContextId)
    (given : Option Value) : Option ContextId → Prop where
  /-- The body has no caller that it may read from. -/
  | none : Source header invocation steps id given none
  /-- The body may read from the context. -/
  | caller (namespaced : Step.isNamespaced (.graph header invocation (.inline steps)) = true)
      (named : ∀ entries, invocation.inputs = some (.object entries) →
        ∃ fields, given = some (.object fields) ∧
          Dictionary.keys fields = Dictionary.keys entries) :
      Source header invocation steps id given (some id)

/-- A context that is alive is so once another one is entered. -/
theorem State.getElem?_enter_of_alive {state : State σ} {id : ContextId} {context entered : Context}
    (alive : state.contexts[id]? = some context) :
    (state.enter entered).contexts[id]? = some context := by
  rwa [State.enter_contexts, List.getElem?_append_left (List.getElem?_eq_some_iff.mp alive).choose]

/-- The contexts that are alive run the bodies of a chain. -/
structure State.Situated (root : Graph) (chain : List Site) (state : State σ) : Prop where
  /-- There are no templates. -/
  templates : state.templates = []
  /-- Activations are inside each other as the bodies of the chain. -/
  depth : state.depth = chain.length
  /-- There is one context for each of them. -/
  length : state.contexts.length = chain.length
  /-- They make up a chain. -/
  chained : root.Chain chain
  /-- Each context runs what is held at its site. -/
  stands : ∀ {id : ContextId} {context : Context} {site}, state.contexts[id]? = some context →
    chain[id]? = some site → context.StandsAt root chain site
  /-- Each body is waited for in the context around it. -/
  waits : ∀ {name site}, name :: site ∈ chain →
    ∃ (id : ContextId) (context : Context), chain[id]? = some site ∧
      state.contexts[id]? = some context ∧ context.Awaits name

/-- A context that is alive at a site of the chain. -/
structure State.Has (root : Graph) (state : State σ) (chain : List Site) (id : ContextId)
    (site : Site) (context : Context) : Prop where
  /-- The contexts run the bodies of the chain. -/
  situated : state.Situated root chain
  /-- The site is in its place. -/
  placed : chain[id]? = some site
  /-- The context is in the same place. -/
  alive : state.contexts[id]? = some context

section Situated

variable {root : Graph} {chain : List Site} {base state : State σ} {id : ContextId} {site : Site}
  {context : Context}

namespace State.Situated

/-- The contexts that run the bodies of a chain do so later. -/
theorem of_keeps (situated : base.Situated root chain) (kept : base.Keeps state) :
    state.Situated root chain where
  templates := kept.templates.trans situated.templates
  depth := kept.depth.trans situated.depth
  length := kept.length.trans situated.length
  chained := situated.chained
  stands := by
    intro id context' site alive' placed
    have inside : id < base.contexts.length := by
      rw [← kept.length]
      exact (List.getElem?_eq_some_iff.mp alive').choose
    have alive := List.getElem?_eq_getElem inside
    obtain ⟨_, there, advanced⟩ := kept.contexts alive
    obtain rfl := Option.some.inj (there.symm.trans alive')
    exact advanced.standsAt (situated.stands alive placed)
  waits := by
    intro name site member
    obtain ⟨id, context, placed, alive, awaits⟩ := situated.waits member
    obtain ⟨context', there, advanced⟩ := kept.contexts alive
    exact ⟨id, context', placed, there, advanced.awaits awaits⟩

/-- A run of a graph begins with the chain of the graph alone. -/
theorem start (graph : Graph) (inputs : Option Value) (state : State σ) :
    (state.reset.enter (Context.start graph inputs none)).Situated graph [[]] where
  templates := rfl
  depth := rfl
  length := rfl
  chained := .self
  stands := by
    intro id context site alive placed
    rcases State.eq_or_of_getElem?_enter alive with ⟨below, -⟩ | ⟨rfl, rfl⟩
    · cases below
    · obtain rfl := Option.some.inj placed
      exact ⟨.self, nofun, fun stored => .inl (Context.eq_of_find?_start stored)⟩
  waits := by
    intro name site member
    cases List.mem_singleton.mp member

/-- There is a context at each site of the chain. -/
theorem exists_has (situated : state.Situated root chain) (placed : chain[id]? = some site) :
    ∃ context, state.Has root chain id site context := by
  have inside : id < state.contexts.length := by
    rw [situated.length]
    exact (List.getElem?_eq_some_iff.mp placed).choose
  exact ⟨_, situated, placed, List.getElem?_eq_getElem inside⟩

end State.Situated

namespace State.Has

/-- The context runs what is held at its site. -/
theorem stands (there : state.Has root chain id site context) :
    context.StandsAt root chain site :=
  there.situated.stands there.alive there.placed

/-- The context is alive later, changed by runs of its steps. -/
theorem of_keeps (there : base.Has root chain id site context) (kept : base.Keeps state) :
    ∃ context', state.Has root chain id site context' ∧ context.Advances context' := by
  obtain ⟨context', alive, advanced⟩ := kept.contexts there.alive
  exact ⟨context', ⟨there.situated.of_keeps kept, there.placed, alive⟩, advanced⟩

/-- There is one context at a site. -/
theorem eq_of_alive (there : state.Has root chain id site context) {other : Context}
    (alive : state.contexts[id]? = some other) : other = context :=
  Option.some.inj (alive.symm.trans there.alive)

/-- A step that has not been run has not begun in the sense of the chain. -/
theorem not_hasBegun (valid : root.IsValid) (there : state.Has root chain id site context)
    {step : Step} (member : step ∈ context.graph) (acts : step.isComment = false)
    (fresh : context.hasExecuted step.name = false) :
    ¬context.graph.HasBegun chain site step := by
  -- A site stands only once in the chain, so that it is this context that waits for its bodies.
  have awaits {name : String} (waits : name :: site ∈ chain) : context.Awaits name := by
    obtain ⟨other, context', placed, alive, awaits⟩ := there.situated.waits waits
    have inside : other < chain.length := (List.getElem?_eq_some_iff.mp placed).choose
    obtain rfl := (List.getElem?_inj inside there.situated.chained.nodup).mp
      (placed.trans there.placed.symm)
    rwa [← there.eq_of_alive alive]
  rintro (waits | ⟨waiting, waiting_mem, waits, path, path_mem, outside, key⟩)
  · rw [(awaits waits).marked] at fresh
    cases fresh
  · have tried := (awaits waits).tried waiting waiting_mem rfl path path_mem outside
    have found := (valid.of_includes there.stands.held.includes).findStep? member acts key
    rw [Context.awaited?_eq_none_iff.mp tried step found] at fresh
    cases fresh

/-- A body is entered whose step waits for it, if it may come next in the chain. -/
theorem enter (there : state.Has root chain id site context) {header : Header}
    {invocation : Invocation} {steps : Graph} {given : Option Value} {caller : Option ContextId}
    (member : .graph header invocation (.inline steps) ∈ context.graph)
    (next : root.Chain (chain ++ [header.name :: site])) (awaits : context.Awaits header.name)
    (source : Source header invocation steps id given caller) :
    (state.enter (Context.start steps given caller)).Situated root
      (chain ++ [header.name :: site]) := by
  have length := there.situated.length
  -- Whatever stands in the chain stands in the same place of the longer one.
  have earlier {other : ContextId} {outer : Site} (placed : chain[other]? = some outer) :
      (chain ++ [header.name :: site])[other]? = some outer := by
    rwa [List.getElem?_append_left (List.getElem?_eq_some_iff.mp placed).choose]
  refine ⟨there.situated.templates, ?_, ?_, next, ?_, ?_⟩
  · rw [State.enter_depth, there.situated.depth, List.length_append, List.length_singleton]
  · rw [State.enter_contexts, List.length_append, List.length_append, length]
    rfl
  · intro other held outer alive placed
    rcases State.eq_or_of_getElem?_enter alive with ⟨below, before⟩ | ⟨rfl, rfl⟩
    · rw [List.getElem?_append_left (length ▸ below)] at placed
      have stands := there.situated.stands before placed
      exact ⟨stands.held, fun calls => (stands.called calls).mono earlier, stands.stored⟩
    · rw [length, List.getElem?_concat_length] at placed
      obtain rfl := Option.some.inj placed
      refine ⟨there.stands.held.body member, ?_,
        fun stored => .inl (Context.eq_of_find?_start stored)⟩
      intro called calls
      cases source with
      | none => cases calls
      | caller namespaced named =>
        obtain rfl := Option.some.inj calls
        refine .body (earlier there.placed) there.stands.held member namespaced fun path gives => ?_
        obtain ⟨-, entries, inputs, key, key_mem, segments⟩ := Step.inputs_of_gives gives
        obtain ⟨fields, rfl, keys⟩ := named entries inputs
        exact Path.resolve_ne_none segments (if_pos rfl) (keys ▸ key_mem)
  · intro name outer waits
    rcases List.mem_append.mp waits with before | last
    · obtain ⟨other, held, placed, alive, awaits⟩ := there.situated.waits before
      exact ⟨other, held, earlier placed, State.getElem?_enter_of_alive alive, awaits⟩
    · obtain ⟨rfl, rfl⟩ := List.cons.inj (List.mem_singleton.mp last)
      exact ⟨id, context, earlier there.placed, State.getElem?_enter_of_alive there.alive, awaits⟩

end State.Has

end Situated

/-- A path has been looked for in a context that is alive. -/
def State.HasTried (state : State σ) (id : ContextId) (path : String) : Prop :=
  ∃ context, state.contexts[id]? = some context ∧ context.HasTried path

/-- A path may be looked for in a context. -/
inductive State.MayLook (root : Graph) (state : State σ) (id : ContextId) (path : String) : Prop
    where
  /-- What it demands at the site of the context may come next in the chain. -/
  | intro {chain : List Site} {site : Site} {context : Context}
    (there : state.Has root chain id site context) (allows : root.AllowsPath chain site path)

/-- A step may be run in a context unless it has been. -/
inductive State.MayRun (root : Graph) (state : State σ) (id : ContextId) (step : Step) : Prop where
  /-- If it has not begun, what it demands at the site of the context may come next in the chain. -/
  | intro {chain : List Site} {site : Site} {context : Context}
    (there : state.Has root chain id site context) (member : step ∈ context.graph)
    (allows : ¬context.graph.HasBegun chain site step → root.AllowsStep chain site step)

/-- A step that is marked in a context may be performed there. -/
inductive State.MayPerform (root : Graph) (state : State σ) (id : ContextId) (step : Step) : Prop
    where
  /-- What it demands at the site of the context may come next in the chain. -/
  | intro {chain : List Site} {site : Site} {context : Context}
    (there : state.Has root chain id site context) (member : step ∈ context.graph)
    (acts : step.isComment = false) (marked : context.hasExecuted step.name = true)
    (allows : root.AllowsStep chain site step)

/-- The body of a step may be run in a context. -/
inductive State.MayEnter (root : Graph) (state : State σ) (id : ContextId) (header : Header)
    (invocation : Invocation) (steps : Graph) : Prop where
  /-- It may come next in the chain, and its step is ready to wait for it. -/
  | intro {chain : List Site} {site : Site} {context : Context}
    (there : state.Has root chain id site context)
    (member : .graph header invocation (.inline steps) ∈ context.graph)
    (next : root.Chain (chain ++ [header.name :: site])) (awaits : context.Awaits header.name)

/-- A step with a path does something. -/
theorem Step.acts_of_path {step : Step} {path : String} (member : path ∈ step.paths) :
    step.isComment = false := by
  unfold isComment
  split
  · cases member
  · rfl

/-- The context that was entered last may run the steps of its graph. -/
theorem State.Situated.mayRun {root : Graph} {chain : List Site} {state : State σ} {graph : Graph}
    {inputs : Option Value} {caller : Option ContextId} {step : Step}
    (situated : (state.enter (Context.start graph inputs caller)).Situated root chain)
    (member : step ∈ graph) :
    (state.enter (Context.start graph inputs caller)).MayRun root state.contexts.length step := by
  have alive : (state.enter (Context.start graph inputs caller)).contexts[state.contexts.length]? =
      some (Context.start graph inputs caller) := List.getElem?_concat_length
  have length := situated.length
  rw [State.enter_contexts, List.length_append, List.length_singleton] at length
  have inside : state.contexts.length < chain.length := length ▸ Nat.lt_succ_self _
  have placed := List.getElem?_eq_getElem inside
  have last : chain.getLast? = some chain[state.contexts.length] := by
    rw [List.getLast?_eq_getElem?, ← length, Nat.add_sub_cancel, placed]
  refine ⟨⟨situated, placed, alive⟩, member, fun fresh => ?_⟩
  exact situated.chained.allowsStep last (situated.stands alive placed).held member
    fun waits => fresh (.inl waits)

section Handing

variable {root : Graph} {base state : State σ} {id : ContextId} {context : Context} {step : Step}
  {path : String} {header : Header} {invocation : Invocation} {steps : Graph}

/-- A path that has been looked for has been looked for later. -/
theorem State.HasTried.of_keeps (tried : base.HasTried id path) (kept : base.Keeps state) :
    state.HasTried id path := by
  obtain ⟨context, alive, tried⟩ := tried
  obtain ⟨context', there, advanced⟩ := kept.contexts alive
  exact ⟨context', there, advanced.hasTried tried⟩

namespace State.MayLook

/-- The context is alive. -/
theorem exists_alive (may : state.MayLook root id path) :
    ∃ context, state.contexts[id]? = some context := by
  obtain ⟨there, -⟩ := may
  exact ⟨_, there.alive⟩

/-- There are no templates. -/
theorem templates (may : state.MayLook root id path) : state.templates = [] := by
  obtain ⟨there, -⟩ := may
  exact there.situated.templates

/-- The path may be looked for later. -/
theorem of_keeps (may : base.MayLook root id path) (kept : base.Keeps state) :
    state.MayLook root id path := by
  obtain ⟨there, allows⟩ := may
  obtain ⟨context', later, -⟩ := there.of_keeps kept
  exact ⟨later, allows⟩

/-- What is found outside of the inputs comes from the step that the path starts from. -/
theorem awaited?_eq_none (valid : root.IsValid) (may : state.MayLook root id path)
    (alive : state.contexts[id]? = some context) {value : Value}
    (outside : Path.head path ≠ inputsKey)
    (found : Path.resolve context.values path = .ok (some value)) :
    context.awaited? path = none := by
  obtain ⟨there, -⟩ := may
  obtain rfl := there.eq_of_alive alive
  exact there.stands.awaited?_eq_none valid outside found

/-- The step that the path starts from may be run. -/
theorem mayRun (may : state.MayLook root id path) (alive : state.contexts[id]? = some context)
    (found : Graph.findStep? context.graph (Path.head path) = some step) :
    state.MayRun root id step := by
  obtain ⟨there, allows⟩ := may
  obtain rfl := there.eq_of_alive alive
  exact ⟨there, (Graph.findStep?_eq_some found).1, allows.allowsStep there.stands.held found⟩

/-- What is left of the path inside the inputs may be looked for in the context of the caller,
unless something is found at the path. -/
theorem caller {caller : ContextId} {rest : String} (may : state.MayLook root id path)
    (alive : state.contexts[id]? = some context) (inside : insideInputs? path = some rest)
    (calls : context.parent = some caller)
    (missing : Path.resolve context.values path = .ok none) : state.MayLook root caller rest := by
  obtain ⟨there, allows⟩ := may
  obtain rfl := there.eq_of_alive alive
  obtain ⟨placed, held, member, namespaced, given⟩ := there.stands.called calls
  obtain ⟨outer, above⟩ := there.situated.exists_has placed
  refine ⟨above, allows.caller held member namespaced ?_ inside⟩
  rw [Bool.eq_false_iff]
  exact fun gives => given path gives missing

end State.MayLook

namespace State.MayRun

/-- The context is alive. -/
theorem exists_alive (may : state.MayRun root id step) :
    ∃ context, state.contexts[id]? = some context := by
  obtain ⟨there, -, -⟩ := may
  exact ⟨_, there.alive⟩

/-- The step may be run later. -/
theorem of_keeps (may : base.MayRun root id step) (kept : base.Keeps state) :
    state.MayRun root id step := by
  obtain ⟨there, member, allows⟩ := may
  obtain ⟨context', later, advanced⟩ := there.of_keeps kept
  rw [← advanced.graph] at member allows
  exact ⟨later, member, allows⟩

/-- Once a step that has not been run is marked, it may be performed. -/
theorem mark (valid : root.IsValid) (may : state.MayRun root id step)
    (acts : step.isComment = false) (alive : state.contexts[id]? = some context)
    (fresh : context.hasExecuted step.name = false) :
    (state.setContext id (context.mark step.name)).MayPerform root id step := by
  obtain ⟨there, member, allows⟩ := may
  obtain rfl := there.eq_of_alive alive
  have advances : context.Advances (context.mark step.name) := .mark context step.name
  have allowed := allows (there.not_hasBegun valid member acts fresh)
  have marked := State.getElem?_setContext_self alive (context.mark step.name)
  rw [← advances.graph] at member
  exact ⟨⟨there.situated.of_keeps (.setContext alive advances), there.placed, marked⟩, member, acts,
    context.hasExecuted_mark_self step.name, allowed⟩

end State.MayRun

namespace State.MayPerform

/-- The context is alive. -/
theorem exists_alive (may : state.MayPerform root id step) :
    ∃ context, state.contexts[id]? = some context := by
  obtain ⟨there, -, -, -, -⟩ := may
  exact ⟨_, there.alive⟩

/-- The step may be performed later. -/
theorem of_keeps (may : base.MayPerform root id step) (kept : base.Keeps state) :
    state.MayPerform root id step := by
  obtain ⟨there, member, acts, marked, allows⟩ := may
  obtain ⟨context', later, advanced⟩ := there.of_keeps kept
  rw [← advanced.graph] at member
  exact ⟨later, member, acts, advanced.marks step.name marked, allows⟩

/-- The paths of the step may be looked for. -/
theorem mayLook (may : state.MayPerform root id step) (member : path ∈ step.paths) :
    state.MayLook root id path := by
  obtain ⟨there, -, -, -, allows⟩ := may
  exact ⟨there, allows.path member⟩

/-- The step needs no template if there is none that needs one. -/
theorem isSelfContained (may : state.MayPerform root id step) (contained : root.IsSelfContained) :
    step.isSelfContained = true := by
  obtain ⟨there, member, -, -, -⟩ := may
  exact contained _ there.stands.held.includes step member

/-- The result of the step may be published. -/
theorem keeps_publish (may : state.MayPerform root id step)
    (alive : state.contexts[id]? = some context) (value : Value) (hidden : Bool) :
    state.Keeps (state.setContext id (context.publish step.publishKey value hidden)) := by
  obtain ⟨there, member, acts, marked, -⟩ := may
  obtain rfl := there.eq_of_alive alive
  exact .setContext alive (.publish member acts marked value hidden)

/-- The body of the step may be run once its paths have been looked for. -/
theorem mayEnter (valid : root.IsValid)
    (may : state.MayPerform root id (.graph header invocation (.inline steps)))
    (tried : ∀ path ∈ (Step.graph header invocation (.inline steps)).paths,
      state.HasTried id path) : state.MayEnter root id header invocation steps := by
  obtain ⟨there, member, acts, marked, allows⟩ := may
  refine ⟨there, member, allows.body rfl, ⟨marked, fun other other_mem same path path_mem => ?_⟩⟩
  -- Only a comment may bear the name of another step, and it has no paths.
  obtain rfl : other = .graph header invocation (.inline steps) := by
    have inner := valid.of_includes there.stands.held.includes
    refine inner.eq_of_key other_mem member (Step.acts_of_path path_mem) acts other.name_mem_keys ?_
    rw [same]
    exact Step.name_mem_keys (.graph header invocation (.inline steps))
  obtain ⟨context', alive, tried⟩ := tried path path_mem
  rwa [← there.eq_of_alive alive]

end State.MayPerform

namespace State.MayEnter

/-- The body may be run later. -/
theorem of_keeps (may : base.MayEnter root id header invocation steps) (kept : base.Keeps state) :
    state.MayEnter root id header invocation steps := by
  obtain ⟨there, member, next, awaits⟩ := may
  obtain ⟨context', later, advanced⟩ := there.of_keeps kept
  rw [← advanced.graph] at member
  exact ⟨later, member, next, advanced.awaits awaits⟩

/-- The contexts run the bodies of a chain when the body is run. -/
theorem exists_situated (may : state.MayEnter root id header invocation steps)
    {given : Option Value} {caller : Option ContextId}
    (source : Source header invocation steps id given caller) :
    ∃ chain, (state.enter (Context.start steps given caller)).Situated root chain := by
  obtain ⟨there, member, next, awaits⟩ := may
  exact ⟨_, there.enter member next awaits source⟩

end State.MayEnter

end Handing

end StepGraph
