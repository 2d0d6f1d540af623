import StepGraph.Proofs.Running.Meaning

/-!
# Runs are faithful

A run of an orderless graph publishes what its steps mean, in whatever order it comes to them. The
induction is on the level: looking for a path runs at most the step that it refers to, and running
a step looks for its paths. The steps that are being run refer to each other in a row, so that
none of them is looked for again.
-/
namespace StepGraph

variable {σ : Type}

namespace Meaning

open Interpreter

/-- A state in which meanings are made out. -/
structure Bare (state : State σ) : Prop where
  /-- There is one context. -/
  contexts : state.contexts.length = 1
  /-- No template is defined. -/
  templates : state.templates = []
  /-- One activation has been entered. -/
  depth : state.depth = 1

/-- The log and the state of the functions do not matter. -/
theorem Bare.of_unmoved {state state' : State σ} (bare : Bare state)
    (unmoved : state.Unmoved state') : Bare state' :=
  ⟨by rw [unmoved.contexts, bare.contexts], by rw [unmoved.templates, bare.templates],
    by rw [unmoved.depth, bare.depth]⟩

/-- A faithful run, and the making out of a meaning. -/
def Keeps (graph : Graph) (inputs : Value) (means : Step → Outcome σ Effect) (names : List String)
    (pending : List Step) (first second : State σ) : Prop :=
  (∃ context, Faithful graph inputs means names pending context first) ∧ Bare second

/-- What running a step comes to: it has published what it means, or it fails as it does. -/
def Concludes (graph : Graph) (inputs : Value) (means : Step → Outcome σ Effect)
    (names : List String) (pending : List Step) (step : Step) : Outcome σ Unit → Prop
  | .done () last =>
    ∃ context, Faithful graph inputs means (step.name :: names) pending context last
  | .failed failure _ => ∃ last, means step = .failed failure last
  | .stuck _ => True

variable {settings : Settings σ} {enough : Nat} {inputs : Value} {host : σ} {graph : Graph}
  {means : Step → Outcome σ Effect} {names : List String} {pending : List Step}

/-- What is stored under the head of a path decides what is read at the path. -/
theorem read_congr {left right : Object} {path : String}
    (same : Dictionary.find? left (Path.head path) = Dictionary.find? right (Path.head path)) :
    (Run.read left path : Run σ (Option Value)) = Run.read right path := by
  rw [Run.read, Run.read, Path.resolve_congr same]

/-- Reading agrees. -/
theorem preserve_read {keep : State σ → State σ → Prop} (values : Object) (path : String) :
    Run.Preserve True (fun _ _ => True) keep (Run.read values path) (Run.read values path) := by
  unfold Run.read
  cases Path.resolve values path with
  | ok found => exact Run.preserve_pure found
  | error cause => exact Run.agrees_fail _ fun _ _ _ => trivial

/-- Outside of its context a faithful run and the making out of a meaning agree. -/
theorem basis_keeps (pure : settings.registry.IsPure) :
    Basis True (fun _ _ => True) (Keeps graph inputs means names pending) (.inside graph) settings
      settings :=
  .of_unmoved rfl (fun _ _ _ => trivial) (fun _ => .inr pure)
    (fun {first second first' second'} ⟨⟨context, faithful⟩, bare⟩ one two _ =>
      ⟨⟨context, faithful.of_unmoved one⟩, bare.of_unmoved two⟩)
    (fun _ _ ⟨⟨_, faithful⟩, bare⟩ _ _ => by rw [faithful.templates, bare.templates])
    fun _ _ ⟨⟨_, faithful⟩, _⟩ _ _ _ there => by
      rw [faithful.templates] at there
      cases there

/-- A faithful state is orderly. -/
theorem Faithful.orderly {context : Context} {state : State σ}
    (faithful : Faithful graph inputs means names pending context state) :
    Orderly graph ⟨[graph], []⟩ state where
  within := by
    have only {id : ContextId} {found : Context} (there : state.contexts[id]? = some found) :
        found = context := by
      rw [faithful.contexts] at there
      exact List.mem_singleton.mp (List.mem_of_getElem? there)
    refine ⟨fun there => ?_, fun there calls => ?_, fun there => ?_⟩
    · rw [only there, faithful.published.runs]
      exact .self
    · rw [only there, faithful.published.detached] at calls
      cases calls
    · rw [faithful.templates] at there
      cases there
  shape := by
    rw [faithful.contexts, List.map_singleton, faithful.published.runs]
  once := List.nodup_nil
  marked := nofun
  named := by
    intro name found there
    rw [faithful.templates] at there
    cases there

/-- Running a body by itself agrees at all levels. -/
theorem preserve_activate (pure : settings.registry.IsPure) (orderless : graph.IsOrderless)
    {n : Nat} (below : n ≤ enough) {body : Graph} (inside : graph.Includes body) (name : String)
    (given : Option Value) :
    Run.Preserve True (fun _ _ => True) (Keeps graph inputs means names pending)
      ((level settings n).activate name body given none)
      ((level settings enough).activate name body given none) := by
  rintro first second ⟨⟨context, faithful⟩, bare⟩
  have agree := agrees_activate_closed pure (faithful.depth.trans bare.depth.symm)
    (faithful.templates.trans bare.templates.symm)
    ((congrArg List.length faithful.contexts).trans bare.contexts.symm) below name body given
  cases ends : (level settings n).activate name body given none first with
  | done output last =>
    rw [ends] at agree
    obtain ⟨last', ends', restored⟩ := agree.of_done
    have callers : ∀ id : ContextId, none = some id → id < [graph].length := nofun
    have templates := (faithful.orderly.activate inside callers ends).templates_eq_nil
      orderless.defines
    rw [ends']
    refine .done _ ⟨⟨context, faithful.published, restored.contexts.trans faithful.contexts,
      templates, restored.depth.trans faithful.depth⟩, ?_, ?_, ?_⟩
    · rw [restored.contexts', bare.contexts]
    · rw [← restored.templates, templates]
    · rw [restored.depth', bare.depth]
  | failed failure last =>
    rw [ends] at agree
    obtain ⟨last', ends', -⟩ := agree.of_failed
    rw [ends']
    exact .failed _ trivial
  | stuck reason => exact .stuck _ _ trivial

/-- A step that others, which are being run, have led to. -/
def Leads (graph : Graph) (pending : List Step) (step : Step) : Prop :=
  ∀ other ∈ pending, Relation.TransGen graph.Refers step other

/-- A step that is being run leads on to the steps that it refers to, which are not being run. -/
theorem Leads.refers (acyclic : graph.IsAcyclic) {step target : Step}
    (leads : Leads graph pending step) (refers : graph.Refers target step) :
    Leads graph (step :: pending) target ∧ target ∉ step :: pending := by
  have onward : Leads graph (step :: pending) target := by
    intro other member
    rcases List.mem_cons.mp member with rfl | before
    · exact .single refers
    · exact .head refers (leads other before)
  exact ⟨onward, fun member => acyclic target (onward target member)⟩

/-- A step that a path of another one starts from is referred to by that one. -/
theorem refers_of_found (orderless : graph.IsOrderless) {step target : Step} {path : String}
    (member : step ∈ graph) (path_mem : path ∈ step.paths)
    (found : Graph.findStep? graph (Path.head path) = some target) :
    graph.Refers target step ∧ target.isComment = false ∧ target.name = Path.head path := by
  obtain ⟨target_mem, acts, named⟩ := orderless.findStep?_eq_some_iff.mp found
  exact ⟨⟨target_mem, member, path, path_mem, named.symm⟩, acts, named⟩

/-- A wrong path fails whatever is stored, and looking for it does. -/
theorem fails_of_wrong (settings : Settings σ) {context : Context} {state : State σ}
    (faithful : Faithful graph inputs means names pending context state) {path : String}
    {cause : PathError} (wrong : ∀ fields : Object, Path.resolve fields path = .error cause)
    (inner : Interpreter σ) (told : Step → Outcome σ Effect) (other : State σ) :
    tryResolve settings inner 0 path state = .failed (.path cause) state ∧
      resolve inputs graph told path other = .failed (.path cause) other := by
  have fails (values : Object) (state : State σ) :
      Run.read values path state = .failed (.path cause) state := by
    rw [Run.read, wrong]
    rfl
  constructor
  · rw [tryResolve, Run.orElse_apply, faithful.lookup_apply, fails]
  · rw [resolve]
    split
    · exact fails _ other
    · exact Run.bind_apply_of_failed (fails [] other)

/-- A path that starts from a step leads to what the step means. -/
theorem resolve_of_refers {step target : Step} {path : String}
    (other : Path.head path ≠ inputsKey)
    (found : Graph.findStep? graph (Path.head path) = some target)
    (refers : graph.Refers target step) (nothing : Path.resolve ([] : Object) path = .ok none)
    (state : State σ) :
    resolve inputs graph (told graph step means) path state =
      follow path (some (means target)) state := by
  have looked : (Run.read [] path : Run σ (Option Value)) state = .done none state := by
    rw [Run.read, nothing]
    rfl
  rw [resolve, if_neg other, Run.bind_apply_of_done looked, found, Option.map_some, told,
    if_pos refers]

/-- A path that starts from nothing leads nowhere. -/
theorem resolve_of_unknown {step : Step} {path : String} (other : Path.head path ≠ inputsKey)
    (found : Graph.findStep? graph (Path.head path) = none)
    (nothing : Path.resolve ([] : Object) path = .ok none) (state : State σ) :
    resolve inputs graph (told graph step means) path state = .done none state := by
  have looked : (Run.read [] path : Run σ (Option Value)) state = .done none state := by
    rw [Run.read, nothing]
    rfl
  rw [resolve, if_neg other, Run.bind_apply_of_done looked, found]
  rfl

section Levels

variable (settings enough inputs host graph means)

/-- What holds of a level: looking for a path of a step that is being run agrees with making out
its meaning, and running a step concludes. -/
structure Runs (n : Nat) : Prop where
  /-- Looking for a path of the step that is being run agrees. -/
  resolve : ∀ {names pending step path}, step ∈ graph → Leads graph pending step →
    path ∈ step.paths →
    Run.Preserve True (fun _ _ => True) (Keeps graph inputs means names (step :: pending))
      ((level settings n).resolve 0 path)
      (Meaning.resolve inputs graph (told graph step means) path)
  /-- Running a step that has not been run concludes. -/
  execute : ∀ {names pending context state step},
    Faithful graph inputs means names pending context state → step ∈ graph →
    step.isComment = false → context.hasExecuted step.name = false → Leads graph pending step →
    Concludes graph inputs means names pending step (execute (level settings n) 0 step state)

end Levels

/-- What is read at a path once its step has been run is what the step means. -/
theorem agrees_follow {context : Context} {first second : State σ} {target : Step} {path : String}
    (faithful : Faithful graph inputs means names pending context first) (bare : Bare second)
    (member : target ∈ graph) (acts : target.isComment = false)
    (run : context.hasExecuted target.name = true) (settled : target ∉ pending)
    (named : target.name = Path.head path) :
    Outcome.Agrees True (fun _ _ => True) (fun _ => Keeps graph inputs means names pending)
      (Run.read context.values path first) (follow path (some (means target)) second) := by
  obtain ⟨value, last, meant, stored⟩ :=
    faithful.published.ended target member acts run settled
  have same : Dictionary.find? context.values (Path.head path) =
      Dictionary.find? [(Path.head path, value)] (Path.head path) := by
    rw [← named, stored, Dictionary.find?, if_pos rfl]
  have keeps : Keeps graph inputs means names pending first second :=
    ⟨⟨context, faithful⟩, bare⟩
  rw [read_congr same, meant]
  exact preserve_read _ path _ _ keeps

/-- Looking for a path whose step waits agrees, when running the step concludes. -/
theorem agrees_of_waiting {n : Nat} {context : Context} {first second : State σ} {target : Step}
    {path : String} (faithful : Faithful graph inputs means names pending context first)
    (bare : Bare second) (found : Graph.findStep? graph (Path.head path) = some target)
    (fresh : context.hasExecuted target.name = false)
    (nothing : Path.resolve ([] : Object) path = .ok none) (member : target ∈ graph)
    (acts : target.isComment = false) (settled : target ∉ pending)
    (named : target.name = Path.head path)
    (concludes : Concludes graph inputs means names pending target
      (execute (level settings n) 0 target first)) :
    Outcome.Agrees True (fun _ _ => True) (fun _ => Keeps graph inputs means names pending)
      (tryResolve settings (level settings n) 0 path first)
      (follow path (some (means target)) second) := by
  have stored : Dictionary.find? context.values (Path.head path) =
      Dictionary.find? [] (Path.head path) := by
    rw [← named]
    exact faithful.published.waiting target member acts (.inl fresh)
  have looked := (Path.resolve_congr stored).trans nothing
  rw [faithful.tryResolve_of_waiting settings _ found fresh looked]
  cases executed : execute (level settings n) 0 target first with
  | done value after =>
    rw [executed] at concludes
    obtain ⟨context', faithful'⟩ := concludes
    have run := faithful'.published.named target.name List.mem_cons_self
    have older := faithful'.of_named fun name old =>
      faithful'.published.named name (List.mem_cons_of_mem _ old)
    rw [Run.bind_apply_of_done executed, faithful'.look_apply]
    exact agrees_follow older bare member acts run settled named
  | failed failure after =>
    rw [executed] at concludes
    obtain ⟨last, meant⟩ := concludes
    rw [Run.bind_apply_of_failed executed, meant]
    exact .failed _ trivial
  | stuck reason =>
    rw [Run.bind_apply_of_stuck executed]
    exact .stuck _ _ trivial

/-- Looking for a path agrees, when running the step that it refers to concludes. -/
theorem preserve_tryResolve (orderless : graph.IsOrderless) {n : Nat}
    (runs : Runs settings inputs graph means n) {step : Step} {path : String}
    (member : step ∈ graph) (leads : Leads graph pending step) (path_mem : path ∈ step.paths) :
    Run.Preserve True (fun _ _ => True) (Keeps graph inputs means names (step :: pending))
      (tryResolve settings (level settings n) 0 path)
      (resolve inputs graph (told graph step means) path) := by
  rintro first second ⟨⟨context, faithful⟩, bare⟩
  have keeps : Keeps graph inputs means names (step :: pending) first second :=
    ⟨⟨context, faithful⟩, bare⟩
  rcases Path.resolve_nil path with nothing | ⟨cause, wrong⟩
  · by_cases given : Path.head path = inputsKey
    · have known (target : Step) (found : Graph.findStep? graph (Path.head path) = some target) :
          context.hasExecuted target.name = true := by
        obtain ⟨⟨target_mem, -⟩, -, named⟩ := refers_of_found orderless member path_mem found
        exact absurd (named.trans given) (orderless.clear target target_mem)
      have stored : Dictionary.find? context.values (Path.head path) =
          Dictionary.find? [(inputsKey, inputs)] (Path.head path) := by
        rw [given, faithful.published.given, Dictionary.find?, if_pos rfl]
      rw [faithful.tryResolve_apply settings _ known, resolve, if_pos given, read_congr stored]
      exact preserve_read _ path _ _ keeps
    · cases found : Graph.findStep? graph (Path.head path) with
      | none =>
        have known (target : Step) (same : Graph.findStep? graph (Path.head path) = some target) :
            context.hasExecuted target.name = true := by
          rw [found] at same
          cases same
        have stored : Dictionary.find? context.values (Path.head path) =
            Dictionary.find? [] (Path.head path) := faithful.published.unknown _ given found
        rw [faithful.tryResolve_apply settings _ known, read_congr stored,
          resolve_of_unknown given found nothing, Run.read, nothing]
        exact .done _ keeps
      | some target =>
        obtain ⟨refers, acts, named⟩ := refers_of_found orderless member path_mem found
        obtain ⟨onward, settled⟩ := leads.refers orderless.acyclic refers
        rw [resolve_of_refers given found refers nothing]
        cases run : context.hasExecuted target.name with
        | true =>
          have known (other : Step)
              (same : Graph.findStep? graph (Path.head path) = some other) :
              context.hasExecuted other.name = true := by
            rwa [← Option.some.inj (found.symm.trans same)]
          rw [faithful.tryResolve_apply settings _ known]
          exact agrees_follow faithful bare refers.1 acts run settled named
        | false =>
          exact agrees_of_waiting faithful bare found run nothing refers.1 acts settled named
            (runs.execute faithful refers.1 acts run onward)
  · obtain ⟨left, right⟩ := fails_of_wrong settings faithful wrong (level settings n)
      (told graph step means) second
    rw [left, right]
    exact .failed _ trivial

/-- A step with an effect has published what it means. -/
theorem Faithful.commit (settings : Settings σ) {context : Context} {state : State σ} {step : Step}
    {effect : Effect} (faithful : Faithful graph inputs means names (step :: pending) context state)
    (orderless : graph.IsOrderless) (member : step ∈ graph) (acts : step.isComment = false)
    (once : step ∉ pending) (suits : effect.Fits graph.Includes step) {last : State σ}
    (meant : means step = .done effect last) :
    ∃ context' after, commit settings 0 step effect state = .done () after ∧
      Faithful graph inputs means names pending context' after := by
  cases effect with
  | publish value =>
    have published := faithful.published.publish orderless member acts once meant
    rw [← orderless.publishKey member] at published
    have reported := faithful.of_unmoved (unmoved_reported settings state step value)
    exact ⟨_, _, commit_publish_apply settings step value faithful.alive,
      reported.setContext published⟩
  | define body =>
    have defines : step.definesTemplate = false := orderless.defines graph .self step member
    rw [suits.1] at defines
    cases defines
  | nothing =>
    rw [Effect.Fits, acts] at suits
    cases suits

/-- Running a step concludes, when looking for its paths agrees. -/
theorem concludes_execute (pure : settings.registry.IsPure) (orderless : graph.IsOrderless)
    (fits : Fits settings enough inputs host graph means) {n : Nat} (below : n ≤ enough)
    (runs : Runs settings inputs graph means n) {context : Context} {state : State σ} {step : Step}
    (faithful : Faithful graph inputs means names pending context state) (member : step ∈ graph)
    (acts : step.isComment = false) (fresh : context.hasExecuted step.name = false)
    (leads : Leads graph pending step) :
    Concludes graph inputs means names pending step
      (execute (level settings (n + 1)) 0 step state) := by
  have begun := faithful.setContext (faithful.published.mark orderless member acts fresh)
  have bare : Bare (blank host) := ⟨rfl, rfl, rfl⟩
  have once : step ∉ pending := fun old => orderless.acyclic step (leads step old)
  have body (header : Header) (invocation : Invocation) (steps : List Step)
      (same : step = .graph header invocation (.inline steps)) : graph.Includes steps :=
    .body .self (same ▸ member)
  have evaluates : Run.Agrees True (fun _ _ => True)
      (Keeps graph inputs means (step.name :: names) (step :: pending))
      (fun effect first second =>
        Keeps graph inputs means (step.name :: names) (step :: pending) first second ∧
          effect.Fits graph.Includes step)
      (evaluate settings (level settings n) 0 step)
      (evaluate settings (interpreter settings enough inputs graph (told graph step means)) 0
        step) := by
    refine agrees_evaluate (basis_keeps pure) body (fun _ _ _ _ => trivial)
      (fun path path_mem => runs.resolve member leads path_mem)
      fun inner given caller inside source => ?_
    rcases source with rfl | ⟨-, namespaced⟩
    · exact preserve_activate pure orderless below inside step.name given
    · rw [orderless.detached step member] at namespaced
      cases namespaced
  have agree := evaluates _ _ ⟨⟨_, begun⟩, bare⟩
  rw [← fits step] at agree
  rw [execute_of_fresh _ acts faithful.alive fresh]
  show Concludes graph inputs means names pending step
    (dispatch settings (level settings n) 0 step _)
  rw [dispatch_eq]
  cases evaluated : evaluate settings (level settings n) 0 step
    (state.setContext 0 (context.mark step.name)) with
  | done effect after =>
    rw [evaluated] at agree
    obtain ⟨last, meant, ⟨⟨context', faithful'⟩, -⟩, suits⟩ := agree.of_done
    obtain ⟨final, ended, committed, published⟩ :=
      faithful'.commit settings orderless member acts once suits meant
    rw [Run.bind_apply_of_done evaluated, committed]
    exact ⟨final, published⟩
  | failed failure after =>
    rw [evaluated] at agree
    obtain ⟨last, meant, -⟩ := agree.of_failed
    rw [Run.bind_apply_of_failed evaluated]
    exact ⟨last, meant⟩
  | stuck reason =>
    rw [Run.bind_apply_of_stuck evaluated]
    trivial

/-- At every level, looking for a path agrees and running a step concludes. -/
theorem runs_level (pure : settings.registry.IsPure) (orderless : graph.IsOrderless)
    (fits : Fits settings enough inputs host graph means) {n : Nat} (below : n ≤ enough) :
    Runs settings inputs graph means n := by
  induction n with
  | zero =>
    refine ⟨fun _ _ _ _ _ _ => .stuck _ _ trivial, fun faithful _ acts fresh _ => ?_⟩
    rw [execute_of_fresh _ acts faithful.alive fresh]
    trivial
  | succ n ih =>
    have runs := ih (Nat.le_of_succ_le below)
    refine ⟨fun member leads path_mem =>
      preserve_tryResolve orderless runs member leads path_mem,
      fun faithful member acts fresh leads => ?_⟩
    exact concludes_execute pure orderless fits (Nat.le_of_succ_le below) runs faithful member acts
      fresh leads

end Meaning

end StepGraph
