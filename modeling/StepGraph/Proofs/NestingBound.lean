import StepGraph.Proofs.Graph.Reordering
import StepGraph.Proofs.Running.Waiting

/-!
# Bodies inside each other and the bound on the depth

A run is cut off when activations would be inside each other more deeply than allowed. Without
templates only the inline bodies of steps are activated, so that one would expect a bound to be
enough for a graph if it is enough for its nesting. This is the case where no body demands another
one further out. Where one does, a step of the graph may be run while the body waits for it, and
then counts as one level deeper than it stands; whether it does depends on which of the two is tried
first. The chains of the graph allow for that, and a run is never cut off under a bound that no
chain is longer than.

`Shallow` says of operations that they are not cut off wherever they may be called; the induction on
the level is `shallow_level`.
-/
namespace StepGraph

variable {σ α β : Type}

/-- An outcome that is no failure for want of depth; with a value, the contexts are as a run leaves
them that began in a state. -/
def Outcome.Shallow (base : State σ) : Outcome σ α → Prop
  | .done _ last => base.Keeps last
  | .failed failure _ => failure.isCyclic = false
  | .stuck _ => True

/-- What began in a state that a run had come to has begun in the one that the run began in. -/
theorem Outcome.Shallow.of_keeps {base state : State σ} {outcome : Outcome σ α}
    (shallow : outcome.Shallow state) (kept : base.Keeps state) : outcome.Shallow base := by
  cases outcome with
  | done value last => exact kept.trans shallow
  | failed failure last => exact shallow
  | stuck reason => trivial

/-- A run that is not cut off in any of the states that a run comes to which began in a state. -/
def Run.Shallow (base : State σ) (run : Run σ α) : Prop :=
  ∀ state, base.Keeps state → (run state).Shallow state

namespace Run.Shallow

variable {base : State σ}

/-- What has a value keeps the state in which it began. -/
theorem keeps {run : Run σ α} (shallow : run.Shallow base) {state last : State σ} {value : α}
    (kept : base.Keeps state) (ends : run state = .done value last) : state.Keeps last := by
  have outcome := shallow state kept
  rwa [ends] at outcome

/-- What is not cut off is not cut off later. -/
theorem of_keeps {run : Run σ α} (shallow : run.Shallow base) {state : State σ}
    (kept : base.Keeps state) : run.Shallow state :=
  fun later further => shallow later (kept.trans further)

/-- A run may be followed by another one that is not cut off after it. -/
theorem and_then {first : Run σ α} {next : α → Run σ β} (shallow : first.Shallow base)
    (onward : ∀ {state value middle}, base.Keeps state → first state = .done value middle →
      (next value).Shallow middle) : (first >>= next).Shallow base := by
  intro state kept
  have begun := shallow state kept
  cases ends : first state with
  | done value middle =>
    rw [ends] at begun
    rw [Run.bind_apply_of_done ends]
    exact (onward kept ends middle (.refl middle)).of_keeps begun
  | failed failure last =>
    rw [ends] at begun
    rw [Run.bind_apply_of_failed ends]
    exact begun
  | stuck reason =>
    rw [Run.bind_apply_of_stuck ends]
    trivial

/-- A run may be followed by another one. -/
theorem bind {first : Run σ α} {next : α → Run σ β} (shallow : first.Shallow base)
    (onward : ∀ value, (next value).Shallow base) : (first >>= next).Shallow base :=
  shallow.and_then fun kept ends => (onward _).of_keeps (kept.trans (shallow.keeps kept ends))

/-- A value is never cut off. -/
theorem pure (value : α) : (Pure.pure value : Run σ α).Shallow base := fun state _ => .refl state

/-- A second look for what the first did not find is not cut off either. -/
theorem orElse {first second : Run σ (Option α)} (one : first.Shallow base)
    (two : second.Shallow base) : (Run.orElse first second).Shallow base := by
  refine one.bind fun found => ?_
  cases found with
  | some value => exact .pure (some value)
  | none => exact two

/-- What is done for each item of a list is not cut off. -/
theorem forEach {action : α → Run σ Unit} {items : List α}
    (each : ∀ item ∈ items, (action item).Shallow base) :
    (Run.forEach action items).Shallow base := by
  induction items with
  | nil => exact .pure ()
  | cons item rest ih =>
    exact (each item List.mem_cons_self).bind fun _ =>
      ih fun other member => each other (List.mem_cons_of_mem _ member)

/-- What leaves all but the log and the state of the functions as it was is not cut off. -/
theorem of_unmoved {run : Run σ α}
    (ends : ∀ state, ∃ value last, run state = .done value last ∧ state.Unmoved last) :
    run.Shallow base := by
  intro state _
  obtain ⟨value, last, same, unmoved⟩ := ends state
  rw [same]
  exact .of_unmoved unmoved

end Run.Shallow

namespace Interpreter

/-- Operations that are not cut off where they may be called in a run of a graph. -/
structure Shallow (root : Graph) (inner : Interpreter σ) : Prop where
  /-- Looking for a path is not. -/
  resolve : ∀ {state : State σ} {id path}, state.MayLook root id path →
    (inner.resolve id path state).Shallow state
  /-- A path that has been looked for waits for no step. -/
  tries : ∀ {state last : State σ} {id path answer}, state.MayLook root id path →
    inner.resolve id path state = .done answer last → last.HasTried id path
  /-- Performing a step that has been marked is not. -/
  perform : ∀ {state : State σ} {id step}, state.MayPerform root id step →
    (inner.perform id step state).Shallow state
  /-- Activating a graph is not. -/
  activate : ∀ {state : State σ} {name graph inputs caller chain},
    (state.enter (Context.start graph inputs caller)).Situated root chain →
    (inner.activate name graph inputs caller state).Shallow state

section Walking

variable {root : Graph} {settings : Settings σ} {inner : Interpreter σ} {base state last : State σ}
  {id : ContextId} {context : Context} {step : Step} {path : String}

/-- Outside of activations nothing is cut off. -/
theorem congruence_shallow (settings : Settings σ) (base : State σ) :
    Congruence settings settings fun run _ => run.Shallow base where
  done := .pure
  fails := fun _ other _ _ => other
  bind := .bind
  contains := fun _ => rfl
  calls := fun function params => .of_unmoved fun state =>
    ⟨_, _, Run.call_apply function params, state.unmoved_replied _⟩
  traces := fun event _ => .of_unmoved fun state =>
    ⟨_, _, Run.trace_apply event, state.unmoved_traced settings event⟩
  warns := fun _ => .of_unmoved fun _ => ⟨_, _, rfl, rfl, rfl, rfl⟩

/-- Looking among the published values is not cut off. -/
theorem shallow_lookup (base : State σ) (id : ContextId) (path : String) :
    (lookup id path).Shallow base := by
  intro state _
  cases alive : state.contexts[id]? with
  | none =>
    rw [lookup, Run.bind_apply_of_stuck (Run.context_apply_of_none alive)]
    trivial
  | some context =>
    rw [lookup, Run.bind_apply_of_done (Run.context_apply alive)]
    cases Path.resolve context.values path with
    | ok found => exact .refl state
    | error cause => rfl

/-- Committing what a step publishes is not cut off. -/
theorem shallow_commit (settings : Settings σ) (may : base.MayPerform root id step)
    (value : Value) : (commit settings id step (.publish value)).Shallow base := by
  intro state kept
  have logged : state.Keeps (reported settings step value state) :=
    .of_unmoved (unmoved_reported settings state step value)
  have later := may.of_keeps (kept.trans logged)
  obtain ⟨context, there⟩ := later.exists_alive
  have alive : state.contexts[id]? = some context := by rwa [reported_contexts] at there
  rw [commit_publish_apply settings step value alive]
  exact logged.trans (later.keeps_publish there value step.isHidden)

/-- Looking for the paths of a step that may be performed is not cut off. -/
theorem Shallow.resolve_path (shallow : inner.Shallow root) (may : base.MayPerform root id step)
    (member : path ∈ step.paths) : (inner.resolve id path).Shallow base :=
  fun _ kept => shallow.resolve ((may.of_keeps kept).mayLook member)

/-- Running a step unless it has been run is not cut off where it may be run. -/
theorem shallow_execute (valid : root.IsValid) (shallow : inner.Shallow root)
    (may : base.MayRun root id step) : (execute inner id step).Shallow base := by
  intro state kept
  have later := may.of_keeps kept
  cases acts : step.isComment with
  | true =>
    rw [execute_of_comment inner acts]
    exact .refl state
  | false =>
    obtain ⟨context, alive⟩ := later.exists_alive
    cases run : context.hasExecuted step.name with
    | true =>
      rw [execute_of_executed inner acts alive run]
      exact .refl state
    | false =>
      rw [execute_of_fresh inner acts alive run]
      exact (shallow.perform (later.mark valid acts alive run)).of_keeps
        (.setContext alive (.mark context step.name))

/-- A step that has been executed is marked. -/
theorem hasExecuted_of_execute (valid : root.IsValid) (shallow : inner.Shallow root)
    (may : state.MayRun root id step) (acts : step.isComment = false)
    (ends : execute inner id step state = .done () last) :
    ∃ context, last.contexts[id]? = some context ∧ context.hasExecuted step.name = true := by
  obtain ⟨context, alive⟩ := may.exists_alive
  cases run : context.hasExecuted step.name with
  | true =>
    rw [execute_of_executed inner acts alive run] at ends
    cases ends
    exact ⟨context, alive, run⟩
  | false =>
    rw [execute_of_fresh inner acts alive run] at ends
    have performed := shallow.perform (may.mark valid acts alive run)
    rw [ends] at performed
    obtain ⟨context', there, advanced⟩ :=
      performed.contexts (State.getElem?_setContext_self alive (context.mark step.name))
    exact ⟨context', there, advanced.marks _ (context.hasExecuted_mark_self _)⟩

/-- Running the step that a path waits for is not cut off where the path may be looked for. -/
theorem shallow_resolveByStep (valid : root.IsValid) (shallow : inner.Shallow root)
    (may : base.MayLook root id path) : (resolveByStep inner id path).Shallow base := by
  intro state kept
  have later := may.of_keeps kept
  obtain ⟨context, alive⟩ := later.exists_alive
  rw [resolveByStep_eq, Run.bind_apply_of_done (Run.context_apply alive)]
  cases awaited : context.awaited? path with
  | none => exact .refl state
  | some step =>
    have found := (Context.awaited?_eq_some_iff.mp awaited).1
    have looked := (shallow_execute valid shallow (later.mayRun alive found)).bind
      fun _ => shallow_lookup state id path
    exact looked state (.refl state)

/-- Running the step that a path waits for marks it. -/
theorem hasExecuted_of_resolveByStep (valid : root.IsValid) (shallow : inner.Shallow root)
    (may : state.MayLook root id path) (alive : state.contexts[id]? = some context)
    (awaited : context.awaited? path = some step) {answer : Option Value}
    (ends : resolveByStep inner id path state = .done answer last) :
    ∃ context, last.contexts[id]? = some context ∧ context.hasExecuted step.name = true := by
  have found := (Context.awaited?_eq_some_iff.mp awaited).1
  rw [resolveByStep_eq, Run.bind_apply_of_done (Run.context_apply alive), awaited] at ends
  obtain ⟨_, middle, ran, looked⟩ := Run.exists_of_bind_eq_done ends
  obtain ⟨rfl, -⟩ := lookup_eq_done looked
  exact hasExecuted_of_execute valid shallow (may.mayRun alive found)
    (Graph.findStep?_eq_some found).2.1 ran

/-- Where a path may be looked for, it refers to no template. -/
theorem shallow_resolveByTemplate (settings : Settings σ) (inner : Interpreter σ)
    (may : base.MayLook root id path) :
    (resolveByTemplate settings inner id path).Shallow base := by
  intro state kept
  have missing : Run.template? (Path.head path) state = .done none state := by
    rw [Run.template?_apply, (may.of_keeps kept).templates]
    rfl
  rw [resolveByTemplate, Run.bind_apply_of_done missing]
  exact .refl state

/-- Asking the caller is not cut off where the path may be looked for and nothing was found. -/
theorem shallow_resolveByCaller (shallow : inner.Shallow root) (may : base.MayLook root id path)
    (alive : base.contexts[id]? = some context)
    (missing : Path.resolve context.values path = .ok none) :
    (resolveByCaller inner id path).Shallow base := by
  intro state kept
  obtain ⟨context', there, advanced⟩ := kept.contexts alive
  rw [resolveByCaller, Run.bind_apply_of_done (Run.context_apply there), advanced.parent]
  cases inside : insideInputs? path with
  | none => exact .refl state
  | some rest =>
    cases calls : context.parent with
    | none => exact .refl state
    | some caller => exact shallow.resolve ((may.caller alive inside calls missing).of_keeps kept)

/-- Going on with the search where nothing was found is not cut off. -/
theorem shallow_searchFurther (settings : Settings σ) (shallow : inner.Shallow root)
    (may : base.MayLook root id path) (alive : base.contexts[id]? = some context)
    (missing : Path.resolve context.values path = .ok none) :
    (Run.orElse (resolveByTemplate settings inner id path)
      (resolveByCaller inner id path)).Shallow base :=
  (shallow_resolveByTemplate settings inner may).orElse
    (shallow_resolveByCaller shallow may alive missing)

/-- Looking for a path is not cut off where it may be looked for. -/
theorem shallow_tryResolve (settings : Settings σ) (valid : root.IsValid)
    (shallow : inner.Shallow root) (may : base.MayLook root id path) :
    (tryResolve settings inner id path).Shallow base := by
  refine (shallow_lookup base id path).and_then fun {state found middle} kept ends => ?_
  obtain ⟨rfl, context, alive, stored⟩ := lookup_eq_done ends
  have later := may.of_keeps kept
  cases found with
  | some value => exact .pure (some value)
  | none =>
    exact (shallow_resolveByStep valid shallow later).orElse
      (shallow_searchFurther settings shallow later alive stored)

/-- A path that has been looked for waits for no step. -/
theorem hasTried_of_tryResolve (valid : root.IsValid) (shallow : inner.Shallow root)
    (may : state.MayLook root id path) {answer : Option Value}
    (ends : tryResolve settings inner id path state = .done answer last) :
    last.HasTried id path := by
  obtain ⟨context, alive⟩ := may.exists_alive
  have kept := (shallow_tryResolve settings valid shallow may).keeps (.refl state) ends
  obtain ⟨context', there, advanced⟩ := kept.contexts alive
  refine ⟨context', there, fun outside => ?_⟩
  cases awaited : context.awaited? path with
  | none => exact advanced.awaited? awaited
  | some step =>
    -- The path is not found as long as its step waits, so that the step is run.
    have run : context'.hasExecuted step.name = true := by
      rcases exists_of_orElse ends with ⟨value, -, looked⟩ | ⟨_, looked, further⟩
      · obtain ⟨-, held, here, stored⟩ := lookup_eq_done looked
        obtain rfl := Option.some.inj (alive.symm.trans here)
        rw [may.awaited?_eq_none valid alive outside stored] at awaited
        cases awaited
      · obtain ⟨rfl, held, here, missing⟩ := lookup_eq_done looked
        rcases exists_of_orElse further with ⟨value, -, ran⟩ | ⟨middle, ran, searched⟩
        · obtain ⟨marked, here, run⟩ :=
            hasExecuted_of_resolveByStep valid shallow may alive awaited ran
          rwa [Option.some.inj (there.symm.trans here)]
        · obtain ⟨marked, alive', run⟩ :=
            hasExecuted_of_resolveByStep valid shallow may alive awaited ran
          have stepped := (shallow_resolveByStep valid shallow may).keeps (.refl _) ran
          have onward := shallow_searchFurther settings shallow may here missing
          obtain ⟨later, here', further⟩ := (onward.keeps stepped searched).contexts alive'
          rw [Option.some.inj (there.symm.trans here')]
          exact further.marks step.name run
    rw [Context.awaited?_eq_none_iff]
    intro other found
    rw [advanced.graph, (Context.awaited?_eq_some_iff.mp awaited).1] at found
    exact Option.some.inj found ▸ run

/-- A path of a step that has been resolved waits for no step. -/
theorem hasTried_of_resolvePath (shallow : inner.Shallow root) (may : state.MayLook root id path)
    {value : Value} (ends : resolvePath inner id path state = .done value last) :
    last.HasTried id path := by
  obtain ⟨found, middle, looked, further⟩ := Run.exists_of_bind_eq_done ends
  have tried := shallow.tries may looked
  cases found with
  | some value =>
    cases further
    exact tried
  | none =>
    dsimp only at further
    split at further
    · cases further
    · cases further
      exact tried.of_keeps (.of_unmoved ⟨rfl, rfl, rfl⟩)

/-- A text that has been resolved as a path waits for no step. -/
theorem hasTried_of_resolveValue (shallow : inner.Shallow root) {given value : Value}
    (text : given.string? = some path) (may : state.MayLook root id path)
    (ends : resolveValue inner id given state = .done value last) : last.HasTried id path := by
  cases given with
  | string path =>
    obtain rfl := Option.some.inj text
    exact hasTried_of_resolvePath shallow may ends
  | _ => cases text

/-- Once the entries of a step have been resolved, their keys are the same, and none of the paths
among them waits for a step. -/
theorem hasTried_of_resolveEntries (settings : Settings σ) (shallow : inner.Shallow root)
    (may : base.MayPerform root id step) {entries fields : Object}
    (paths : ∀ entry ∈ entries, ∀ path, entry.2.string? = some path → path ∈ step.paths)
    (kept : base.Keeps state)
    (ends : resolveEntries inner id entries state = .done fields last) :
    state.Keeps last ∧ Dictionary.keys fields = Dictionary.keys entries ∧
      ∀ entry ∈ entries, ∀ path, entry.2.string? = some path → last.HasTried id path := by
  induction entries generalizing state fields with
  | nil =>
    cases ends
    exact ⟨.refl _, rfl, nofun⟩
  | cons entry rest ih =>
    obtain ⟨result, middle, others, acted, collected, rfl⟩ :=
      Run.exists_of_collect_cons_eq_done ends
    obtain ⟨value, _, resolved, same⟩ := Run.exists_of_bind_eq_done acted
    cases same
    have first := paths entry List.mem_cons_self
    have ran : (resolveValue inner id entry.2).Shallow base :=
      @Congruence.resolveValue σ σ settings settings _ inner inner id
        (congruence_shallow settings base) entry.2
        fun path text => shallow.resolve_path may (first path text)
    have keeps := ran.keeps kept resolved
    obtain ⟨keeps', keys, tried⟩ := ih
      (fun other member => paths other (List.mem_cons_of_mem _ member)) (kept.trans keeps) collected
    refine ⟨keeps.trans keeps', congrArg (entry.1 :: ·) keys, fun other member path text => ?_⟩
    rcases List.mem_cons.mp member with rfl | later
    · have looks := (may.of_keeps kept).mayLook (first path text)
      exact (hasTried_of_resolveValue shallow text looks resolved).of_keeps keeps'
    · exact tried other later path text

/-- Once the inputs of a body have been resolved, they have the names that the step gives, and no
path of the step waits for another one. -/
theorem hasTried_of_resolveInputs (settings : Settings σ) (shallow : inner.Shallow root)
    {header : Header} {invocation : Invocation} {body : Body Step}
    (may : base.MayPerform root id (.graph header invocation body)) (kept : base.Keeps state)
    {fields : Object}
    (ends : resolveInputs inner id header.name invocation.inputs state = .done fields last) :
    (∀ path ∈ (Step.graph header invocation body).paths, last.HasTried id path) ∧
      ∀ entries, invocation.inputs = some (.object entries) →
        Dictionary.keys fields = Dictionary.keys entries := by
  rw [Step.paths]
  have looks {path : String} (member : path ∈ (Step.graph header invocation body).paths) :=
    (may.of_keeps kept).mayLook member
  rw [Step.paths] at looks
  cases inputs : invocation.inputs with
  | none => exact ⟨nofun, nofun⟩
  | some params =>
    rw [inputs] at ends looks
    obtain ⟨resolved, middle, ran, further⟩ := Run.exists_of_bind_eq_done ends
    cases params with
    | object entries =>
      obtain ⟨given, _, ran, same⟩ := Run.exists_of_bind_eq_done ran
      cases same
      cases further
      have paths (entry : String × Value) (member : entry ∈ entries) (path : String)
          (text : entry.2.string? = some path) :
          path ∈ (Step.graph header invocation body).paths := by
        rw [Step.paths, inputs]
        exact List.mem_filterMap.mpr ⟨entry, member, text⟩
      obtain ⟨-, keys, tried⟩ := hasTried_of_resolveEntries settings shallow may paths kept ran
      refine ⟨fun path member => ?_, fun _ same => ?_⟩
      · obtain ⟨entry, entry_mem, text⟩ := List.mem_filterMap.mp member
        exact tried entry entry_mem path text
      · cases same
        exact keys
    | string path =>
      have tried := hasTried_of_resolvePath shallow (looks List.mem_cons_self) ran
      have unmoved : last = middle := by
        cases resolved <;> cases further
        rfl
      refine ⟨fun other member => ?_, nofun⟩
      rw [List.mem_singleton.mp member, unmoved]
      exact tried
    | _ => exact ⟨nofun, nofun⟩

/-- Running a body whose step waits for it is not cut off. -/
theorem shallow_enter (shallow : inner.Shallow root) {header : Header} {invocation : Invocation}
    {steps : Graph} {given : Option Value} {caller : Option ContextId}
    (may : base.MayEnter root id header invocation steps)
    (source : Source header invocation steps id given caller) :
    (inner.activate header.name steps given caller).Shallow base := by
  intro state kept
  obtain ⟨chain, situated⟩ := (may.of_keeps kept).exists_situated source
  exact shallow.activate situated

/-- Computing the value of a body is not cut off where its step may be performed. -/
theorem shallow_bodyValue (settings : Settings σ) (valid : root.IsValid)
    (shallow : inner.Shallow root) {header : Header} {invocation : Invocation} {steps : Graph}
    (may : base.MayPerform root id (.graph header invocation (.inline steps))) {mode : Mode}
    (runs : invocation.mode? (.inline steps) = some mode) :
    (bodyValue inner id header invocation.inputs steps mode).Shallow base := by
  have congruence {base : State σ} := congruence_shallow settings base
  have resolves : (resolveInputs inner id header.name invocation.inputs).Shallow base :=
    @Congruence.resolveInputs σ σ settings settings _ inner inner id congruence header.name
      invocation.inputs fun path member => shallow.resolve_path may member
  have tried {state middle : State σ} {fields : Object} (kept : base.Keeps state)
      (ends : resolveInputs inner id header.name invocation.inputs state = .done fields middle) :=
    hasTried_of_resolveInputs settings shallow may kept ends
  have enters {state middle : State σ} {fields : Object} (kept : base.Keeps state)
      (ends : resolveInputs inner id header.name invocation.inputs state = .done fields middle) :
      middle.MayEnter root id header invocation steps :=
    (may.of_keeps (kept.trans (resolves.keeps kept ends))).mayEnter valid (tried kept ends).1
  cases mode with
  | plain =>
    refine resolves.and_then fun kept ends => ?_
    exact (shallow_enter shallow (enters kept ends) .none).bind fun output => .pure _
  | map =>
    refine resolves.and_then fun {_ given _} kept ends => ?_
    cases Dictionary.find? given collectionInput with
    | none => exact congruence.fails _ rfl
    | some collection =>
      cases collection with
      | array elements =>
        have each (element : Value) (_ : element ∈ elements) :
            (runElement inner header.name steps given element).Shallow _ :=
          (shallow_enter shallow (enters kept ends) .none).bind fun output => .pure _
        have outputs := @Congruence.collect σ σ settings settings _ congruence _ _ _
          (runElement inner header.name steps given) _ each
        exact outputs.bind fun outputs => .pure _
      | _ => exact congruence.fails _ rfl
  | «namespaced» key =>
    have namespaced : Step.isNamespaced (.graph header invocation (.inline steps)) = true := by
      rw [Step.isNamespaced, Step.mode?, runs]
      rfl
    cases inputs : invocation.inputs with
    | none =>
      have ready : base.MayEnter root id header invocation steps := by
        refine may.mayEnter valid fun path member => ?_
        rw [Step.paths, inputs] at member
        cases member
      have source : Source header invocation steps id none (some id) := by
        refine .caller namespaced fun entries same => ?_
        rw [inputs] at same
        cases same
      exact (shallow_enter shallow ready source).bind fun output => .pure _
    | some params =>
      rw [inputs] at resolves tried enters
      simp only [bodyValue, pure_bind]
      refine resolves.and_then fun kept ends => ?_
      have source : Source header invocation steps id _ (some id) :=
        .caller namespaced fun entries same =>
          ⟨_, rfl, (tried kept ends).2 entries (inputs.symm.trans same)⟩
      exact (shallow_enter shallow (enters kept ends) source).bind fun output => .pure _

/-- Performing a step is not cut off where it may be performed. -/
theorem shallow_dispatch (settings : Settings σ) (valid : root.IsValid)
    (contained : root.IsSelfContained) (shallow : inner.Shallow root)
    (may : base.MayPerform root id step) : (dispatch settings inner id step).Shallow base := by
  have congruence := congruence_shallow settings base
  have needs := may.isSelfContained contained
  rw [dispatch_eq]
  cases step with
  | action header action =>
    have ran : (runAction settings inner id header.name action).Shallow base :=
      @Congruence.runAction σ σ settings settings _ inner inner id congruence header.name action
        fun path member => shallow.resolve_path may member
    simp only [evaluate, bind_assoc]
    refine ran.bind fun result => ?_
    cases result with
    | none => exact .pure ()
    | some value => exact shallow_commit settings may value
  | graph header invocation body =>
    cases body with
    | template name => cases needs
    | inline steps =>
      rw [Step.isSelfContained, Bool.and_eq_true, Bool.not_eq_eq_eq_not, Bool.not_true] at needs
      cases runs : invocation.mode? (.inline steps) with
      | none =>
        rw [Invocation.definesTemplate_of_mode?_eq_none runs] at needs
        cases needs.2
      | some mode =>
        simp only [evaluate, bodyGraph, runs, bind_assoc, pure_bind]
        refine (congruence.traces _ rfl).bind fun _ => ?_
        exact (shallow_bodyValue settings valid shallow may runs).bind fun value =>
          shallow_commit settings may value

/-- Activating a graph is not cut off where the contexts run the bodies of a chain with it, if no
chain is longer than allowed. -/
theorem shallow_nested (valid : root.IsValid)
    (bounded : ∀ chain, root.Chain chain → chain.length ≤ settings.config.maxDepth)
    (shallow : inner.Shallow root) {name : String} {graph : Graph} {inputs : Option Value}
    {caller : Option ContextId} {chain : List Site}
    (situated : (state.enter (Context.start graph inputs caller)).Situated root chain) :
    (nested settings inner name graph inputs caller state).Shallow state := by
  have enough := bounded chain situated.chained
  rw [← situated.depth, State.enter_depth] at enough
  have steps := Run.Shallow.forEach fun step (member : step ∈ Graph.hoisted graph) =>
    shallow_execute valid shallow (situated.mayRun (Graph.mem_hoisted.mp member))
  rw [nested_apply, if_neg (Nat.not_le_of_lt enough), Run.inside_apply]
  have ran := steps _ (.refl _)
  change (executeAll inner state.contexts.length (Graph.hoisted graph)
    (state.enter (Context.start graph inputs caller))).Shallow _ at ran
  split
  · rename_i last ends
    rw [ends] at ran
    exact ran.leave
  · rename_i failure last ends
    rw [ends] at ran
    exact ran
  · trivial

/-- Operations at a level are not cut off where they may be called. -/
theorem shallow_level (valid : root.IsValid) (contained : root.IsSelfContained)
    (bounded : ∀ chain, root.Chain chain → chain.length ≤ settings.config.maxDepth) (n : Nat) :
    (level settings n).Shallow root := by
  -- At level zero all operations are stuck.
  induction n with
  | zero => exact ⟨fun _ => trivial, nofun, fun _ => trivial, fun _ => trivial⟩
  | succ below ih =>
    refine ⟨fun may => ?_, fun may ends => ?_, fun may => ?_, shallow_nested valid bounded ih⟩
    · exact shallow_tryResolve settings valid ih may _ (.refl _)
    · exact hasTried_of_tryResolve valid ih may ends
    · exact shallow_dispatch settings valid contained ih may _ (.refl _)

end Walking

end Interpreter

/-- A run of a valid graph that needs no template is not cut off under a bound that none of its
chains is longer than. -/
theorem Run.graph_shallow {graph : Graph} (valid : graph.IsValid)
    (contained : graph.IsSelfContained) (settings : Settings σ)
    (bounded : ∀ chain, graph.Chain chain → chain.length ≤ settings.config.maxDepth)
    (inputs : Value) (state : State σ) :
    (Run.graph settings graph inputs state).Shallow state.reset := by
  have situated := State.Situated.start graph (some inputs) state
  let enough := sufficientLevel graph settings.config.maxDepth
  have shallow : ((Interpreter.level settings enough).activate rootName graph (some inputs) none
      state.reset).Shallow state.reset :=
    (Interpreter.shallow_level valid contained bounded enough).activate situated
  exact shallow

namespace NestingBound

/-- What a run of a graph without functions and inputs fails with under a bound, if it fails. -/
def failureOf (maxDepth : Nat) (graph : Graph) : Option Failure :=
  match Run.graph ⟨Registry.empty, { maxDepth }⟩ graph (.object []) (State.start ()) with
  | .failed failure _ => some failure
  | _ => none

/-- A step whose body looks for another step of its graph. -/
def seeking (sought : String) : Step :=
  .graph ⟨"seeking", false, none⟩ { namespaceKey := some "found" }
    (.inline [.action ⟨"there", false, none⟩ (.alias ("inputs." ++ sought))])

/-- A step with a body that does not look for anything. -/
def plain : Step :=
  .graph ⟨"plain", false, none⟩ { inputs := some (.object []) }
    (.inline [.action ⟨"value", false, none⟩ (.static (.bool true))])

/-- A step that runs no body, and refers to the inputs of the run. -/
def limit : Step := .action ⟨"limit", false, none⟩ (.alias "inputs.limit")

/-- A step whose body holds one that looks for a step in the caller of its caller. -/
def wrapping : Step :=
  .graph ⟨"wrapping", false, none⟩ { namespaceKey := some "wrapped" }
    (.inline [seeking "inputs.limit", plain])

/-- A body that looks for another one, beside one that nests more deeply than the two. -/
def deepened : Graph := [seeking "plain", plain, wrapping, limit]

/-- How many bodies may follow that at a site of this graph. -/
def following : Site → Nat
  | [] => 2
  | ["seeking"] => 1
  | ["wrapping"] => 1
  | _ => 0

/-- What is searched for, there or further out, while the body at a site of this graph is run. -/
def searching : Site → List (Site × String)
  | [] => [([], "inputs.limit")]
  | ["seeking"] => [(["seeking"], "inputs.plain"), ([], "plain")]
  | ["seeking", "wrapping"] => [(["seeking", "wrapping"], "inputs.inputs.limit"),
      (["wrapping"], "inputs.limit"), ([], "limit"), ([], "inputs.limit")]
  | _ => []

end NestingBound

end StepGraph
