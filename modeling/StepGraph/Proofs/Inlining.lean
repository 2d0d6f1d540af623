import StepGraph.Proofs.Running.Definitions
import StepGraph.Proofs.Running.Resemblance
import StepGraph.Proofs.Running.Termination

/-!
# Inlining of templates

A body that is run in place may be defined as a template and run by its name instead, and the other
way round: the two graphs have the same output, or fail alike. They differ in what their contexts
run, in what has been run there, and in the templates that there are, and all of these are searched
for names while the body is run. But only a search for the name of the template can tell them apart,
and where no text that is looked up contains this name, there is no such search: the head of a path
and what is left of a path inside the inputs are parts of that path.
-/
namespace StepGraph

variable {σ : Type}

/-- No text that is looked up somewhere in a graph contains this one. -/
def Graph.Avoids (graph : Graph) (text : String) : Prop :=
  graph.Everywhere fun step => ∀ lookup ∈ step.lookups, ¬text.toList <:+: lookup.toList

instance (graph : Graph) (text : String) : Decidable (graph.Avoids text) :=
  inferInstanceAs (Decidable (graph.Everywhere _))

/-- The graphs inside a graph that avoids a text, and all texts that do not contain that one. -/
def Scope.avoiding {graph : Graph} {text : String} (avoids : graph.Avoids text) : Scope where
  known := graph.Includes
  met := fun other => ¬text.toList <:+: other.toList
  body := Graph.Includes.body
  lookups := fun inside member lookup => avoids _ inside _ member _ lookup
  head := fun met inside => met (inside.trans (Path.head_isInfix _))
  rest := fun met within inside => met (inside.trans (isSuffix_of_insideInputs? within).isInfix)

/-- A template cannot be met where no text contains its name. -/
theorem Scope.ne_of_met_avoiding {graph : Graph} {text other : String}
    {avoids : graph.Avoids text} (met : (Scope.avoiding avoids).met other) : other ≠ text :=
  fun same => met (same ▸ List.infix_rfl)

/-- A step that runs a body in place does not define a template when the body is the one of a
template. -/
theorem Invocation.definesTemplate_template {invocation : Invocation} {steps : Graph}
    (runs : invocation.definesTemplate (.inline steps) = false) (name : String) :
    invocation.definesTemplate (.template name) = false := by
  rw [definesTemplate, Bool.or_eq_false_iff] at runs
  rw [definesTemplate, runs.1, Body.isInline, Bool.false_and, Bool.false_and, Bool.or_false]

/-- It runs it in the same mode. -/
theorem Invocation.mode?_template {invocation : Invocation} {steps : Graph}
    (runs : invocation.definesTemplate (.inline steps) = false) (name : String) :
    invocation.mode? (.template name) = invocation.mode? (.inline steps) := by
  rw [mode?, mode?, runs, definesTemplate_template runs]

/-- Once no step is left to be run, no path waits for one. -/
theorem Context.awaited?_eq_none {context : Context}
    (spent : ∀ step ∈ context.graph, context.hasExecuted step.name = true) (path : String) :
    context.awaited? path = none := by
  refine Option.eq_none_iff_forall_ne_some.mpr fun step awaited => ?_
  obtain ⟨found, waits⟩ := awaited?_eq_some_iff.mp awaited
  rw [spent step (List.mem_of_find?_eq_some found)] at waits
  cases waits

namespace Interpreter

/-- Running the body of a template is running it in place. -/
theorem dispatch_template_eq (settings : Settings σ) (inner : Interpreter σ) (id : ContextId)
    (header : Header) {invocation : Invocation} {steps : Graph}
    (runs : invocation.definesTemplate (.inline steps) = false) {name : String} {state : State σ}
    (held : Dictionary.find? state.templates name = some steps) :
    dispatch settings inner id (.graph header invocation (.template name)) state =
      dispatch settings inner id (.graph header invocation (.inline steps)) state := by
  have given : bodyGraph header.name (.inline steps) state = .done steps state := rfl
  simp only [dispatch, runGraph]
  rw [Run.bind_apply_of_done (bodyGraph_of_some header.name held), Run.bind_apply_of_done given,
    Invocation.mode?_template runs]

end Interpreter

/-- A step that runs a body, and a template that may be defined for it. -/
structure Inlinable where
  /-- What the step carries. -/
  header : Header
  /-- How the step runs the body. -/
  invocation : Invocation
  /-- The body. -/
  body : Graph
  /-- What the definition of the template carries. -/
  template : Header
  /-- How the template is defined. -/
  definition : Invocation
  /-- The step runs the body. -/
  runs : invocation.definesTemplate (.inline body) = false
  /-- The definition defines a template. -/
  defines : definition.definesTemplate (.inline body) = true
  /-- The template does not have the name of the step. -/
  apart : template.name ≠ header.name
  /-- The name of the template is not the mark of a call. -/
  unmarked : ¬implicitCallMark.toList <+: template.name.toList
  /-- Neither the inputs of the step nor the body look up a text that contains the name of the
  template. -/
  avoids : Graph.Avoids [.graph header invocation (.inline body)] template.name

namespace Inlinable

variable (call : Inlinable)

/-- The definition of the template. -/
def defining : Step := .graph call.template call.definition (.inline call.body)

/-- The step that runs the body by the name of the template. -/
def calling : Step := .graph call.header call.invocation (.template call.template.name)

/-- The step that runs the body in place. -/
def inlined : Step := .graph call.header call.invocation (.inline call.body)

/-- The graph that defines the template and calls it. -/
def named : Graph := [call.defining, call.calling]

/-- The graph that runs the body in place. -/
def inPlace : Graph := [call.inlined]

/-- What a run of the body in place can come across. -/
def scope : Scope := .avoiding call.avoids

/-- The step that calls the template defines none. -/
theorem calling_definesTemplate : call.calling.definesTemplate = false :=
  Invocation.definesTemplate_template call.runs call.template.name

/-- Of the graph with the template, the template is defined first. -/
theorem filter_named :
    call.named.filter Step.definesTemplate = [call.defining] ∧
      (call.named.filter fun step => !step.definesTemplate) = [call.calling] := by
  have defines : call.defining.definesTemplate = true := call.defines
  simp [named, defines, call.calling_definesTemplate]

/-- The graph with the template is not known to a run of the body in place. -/
theorem not_known_named : ¬call.scope.known call.named := by
  intro inside
  have smaller := Step.sizeOfAll_le_of_includes inside
  simp only [named, defining, calling, Step.sizeOfAll, Step.size] at smaller
  omega

/-- No call of a template leaves the name of the template as its mark. -/
theorem mark_ne (name : String) : implicitCallMark ++ name ≠ call.template.name := by
  intro same
  refine call.unmarked ⟨name.toList, ?_⟩
  rw [← same, String.toList_append]

section Beginning

variable (inputs : Value)

/-- The context in which the template has been defined and is about to be called. -/
def callingContext : Context :=
  ((Context.start call.named (some inputs) none).mark call.template.name).mark call.header.name

/-- The context in which the body is about to be run in place. -/
def inliningContext : Context :=
  (Context.start call.inPlace (some inputs) none).mark call.header.name

/-- The definition and the call have been begun. -/
theorem hasExecuted_callingContext (name : String) :
    (call.callingContext inputs).hasExecuted name =
      ((name == call.template.name) || (name == call.header.name)) := by
  rw [callingContext, Context.hasExecuted_mark, Context.hasExecuted_mark]
  rfl

/-- The step has been begun. -/
theorem hasExecuted_inliningContext (name : String) :
    (call.inliningContext inputs).hasExecuted name = (name == call.header.name) := by
  rw [inliningContext, Context.hasExecuted_mark]
  rfl

/-- No path waits for the definition or for the call. -/
theorem awaited?_callingContext (path : String) :
    (call.callingContext inputs).awaited? path = none := by
  refine Context.awaited?_eq_none (fun step member => ?_) path
  rw [hasExecuted_callingContext]
  simp only [callingContext, Context.mark_graph, Context.start, named, List.mem_cons,
    List.not_mem_nil, or_false] at member
  rcases member with rfl | rfl <;> simp [defining, calling, Step.name, Step.header]

/-- No path waits for the step. -/
theorem awaited?_inliningContext (path : String) :
    (call.inliningContext inputs).awaited? path = none := by
  refine Context.awaited?_eq_none (fun step member => ?_) path
  rw [hasExecuted_inliningContext]
  simp only [inliningContext, Context.mark_graph, Context.start, inPlace,
    List.mem_singleton] at member
  subst member
  exact beq_self_eq_true _

/-- The contexts in which the body is about to be run cannot be told apart. -/
theorem alike : (call.callingContext inputs).Alike call.scope (call.inliningContext inputs) where
  values := by simp only [callingContext, inliningContext, Context.mark_values, Context.start]
  parent := by simp only [callingContext, inliningContext, Context.mark_parent, Context.start]
  awaits := fun _ => by rw [awaited?_callingContext, awaited?_inliningContext]
  known := by
    intro path step _ awaited
    rw [awaited?_callingContext] at awaited
    cases awaited
  runs := by
    intro known
    simp only [callingContext, Context.mark_graph, Context.start] at known
    exact absurd known call.not_known_named
  calls := fun _ => by
    rw [hasExecuted_callingContext, hasExecuted_inliningContext,
      beq_false_of_ne (call.mark_ne _), Bool.false_or]

/-- The state in which the template is about to be called. -/
def callingState (host : σ) (log : List Event) : State σ :=
  ⟨[call.callingContext inputs], Dictionary.insert [] call.template.name call.body, 1, host, log⟩

/-- The state in which the body is about to be run in place. -/
def inliningState (host : σ) (log : List Event) : State σ :=
  ⟨[call.inliningContext inputs], [], 1, host, log⟩

/-- The states in which the body is about to be run resemble each other. -/
theorem resembling {registry : Registry σ} {host host' : σ}
    (hosts : registry.AnswersAlike host host') (log log' : List Event) :
    Resembling registry call.scope [call.named] (call.callingState inputs host log)
      (call.inliningState inputs host' log') where
  depths := rfl
  shape := by
    rw [callingState, List.map_singleton, callingContext, Context.mark_graph, Context.mark_graph]
    rfl
  lengths := rfl
  alike := by
    intro id context context' alive alive'
    rw [callingState, List.getElem?_singleton] at alive
    rw [inliningState, List.getElem?_singleton] at alive'
    split at alive
    · rename_i first
      rw [if_pos first] at alive'
      cases alive
      cases alive'
      refine ⟨call.alike inputs, ?_⟩
      simp only [callingContext, inliningContext, Context.mark_output, Context.start]
    · cases alive
  templates := fun met =>
    Dictionary.find?_insert_of_ne _ _ (Scope.ne_of_met_avoiding met)
  knows := by
    intro name graph met found
    rw [callingState, Dictionary.find?_insert_of_ne _ _ (Scope.ne_of_met_avoiding met)] at found
    cases found
  hosts := hosts

end Beginning

open Interpreter

/-- Running the graph with the template comes to running the body in place, once the template has
been defined. -/
theorem executeAll_named (settings : Settings σ) (n : Nat) (inputs : Value) (state : State σ) :
    ∃ log, executeAll (level settings (n + 1)) 0 (Graph.hoisted call.named)
        (state.reset.enter (Context.start call.named (some inputs) none)) =
      (level settings (n + 1)).perform 0 call.inlined
        (call.callingState inputs state.host log) := by
  let start := Context.start call.named (some inputs) none
  have alive : (state.reset.enter start).contexts[0]? = some start := rfl
  have defines : ∀ step ∈ [call.defining], step.definesTemplate = true :=
    fun step member => List.mem_singleton.mp member ▸ call.defines
  obtain ⟨log, defined⟩ := executeAll_definitions settings defines n alive
  have there : ((state.reset.enter start).settled 0 (start.markAll [call.defining])
      (Dictionary.insert [] call.template.name call.body) log).contexts[0]? =
        some (start.mark call.template.name) := rfl
  have fresh : (start.mark call.template.name).hasExecuted call.calling.name = false :=
    Context.hasExecuted_mark_of_ne start (Ne.symm call.apart)
  have held : Dictionary.find? (Dictionary.insert [] call.template.name call.body)
      call.template.name = some call.body := Dictionary.find?_insert_self _ _ _
  refine ⟨log, ?_⟩
  rw [executeAll_hoisted, call.filter_named.1, call.filter_named.2]
  refine (Run.bind_apply_of_done defined).trans ?_
  rw [executeAll_singleton]
  refine (execute_of_fresh _ rfl there fresh).trans ?_
  exact dispatch_template_eq settings (level settings n) 0 call.header call.runs held

/-- Running the graph without the template comes to running the body. -/
theorem executeAll_inPlace (settings : Settings σ) (n : Nat) (inputs : Value) (state : State σ) :
    executeAll (level settings n) 0 (Graph.hoisted call.inPlace)
        (state.reset.enter (Context.start call.inPlace (some inputs) none)) =
      (level settings n).perform 0 call.inlined
        (call.inliningState inputs state.host state.log) := by
  have runs : call.inlined.definesTemplate = false := call.runs
  have hoisted : Graph.hoisted call.inPlace = [call.inlined] := by
    simp [inPlace, Graph.hoisted, Graph.hoistBy, runs]
  rw [hoisted, executeAll_singleton]
  exact execute_of_fresh _ rfl rfl rfl

/-- Once it is begun, the step comes to the same whether the template has been defined or not. -/
theorem agrees_perform (settings : Settings σ) {host host' : σ}
    (hosts : settings.registry.AnswersAlike host host') (n : Nat) (inputs : Value)
    (log log' : List Event) :
    Outcome.Agrees True (fun _ _ => True)
      (fun _ => Resembling settings.registry call.scope [call.named])
      ((level settings n).perform 0 call.inlined (call.callingState inputs host log))
      ((level settings n).perform 0 call.inlined (call.inliningState inputs host' log')) := by
  have follows := (lockstep_resembling settings call.scope).level n n (Nat.le_refl n)
  rw [observed_silent] at follows
  have begun : Resembling settings.registry call.scope
      (Frame.begin ⟨[call.named], []⟩ 0 (.step call.inlined)).graphs
      (call.callingState inputs host log) (call.inliningState inputs host' log') :=
    call.resembling inputs hosts log log'
  exact follows.perform trivial .self (List.mem_singleton_self call.inlined) rfl begun

/-- At any level the two graphs have the same output or fail alike, unless the level is not
enough. -/
theorem agrees_activate (settings : Settings σ) {state state' : State σ}
    (hosts : settings.registry.AnswersAlike state.host state'.host) (n : Nat) (inputs : Value) :
    let interpreter := level settings (n + 2)
    Outcome.Agrees True (fun _ _ => True) (fun _ _ _ => True)
      (interpreter.activate rootName call.named (some inputs) none state.reset)
      (interpreter.activate rootName call.inPlace (some inputs) none state'.reset) := by
  show Outcome.Agrees _ _ _
    (nested settings (level settings (n + 1)) rootName call.named (some inputs) none state.reset)
    (nested settings (level settings (n + 1)) rootName call.inPlace (some inputs) none state'.reset)
  have depth : state'.reset.depth = state.reset.depth := rfl
  have bottom : state.reset.contexts.length = 0 := rfl
  have bottom' : state'.reset.contexts.length = 0 := rfl
  rw [nested_apply, nested_apply, depth, bottom, bottom']
  split
  · exact .failed _ trivial
  · obtain ⟨log, named⟩ := call.executeAll_named settings n inputs state
    have agree := call.agrees_perform settings hosts (n + 1) inputs log state'.log
    rw [Run.inside_apply, Run.inside_apply, named, call.executeAll_inPlace]
    generalize (level settings (n + 1)).perform 0 call.inlined _ = outcome at agree ⊢
    generalize (level settings (n + 1)).perform 0 call.inlined _ = outcome' at agree ⊢
    cases agree with
    | done _ related =>
      have ended : Resembling settings.registry call.scope ([] ++ [call.named]) _ _ := related
      dsimp only
      rw [ended.leave.1]
      exact .done _ trivial
    | failed failure _ => exact .failed failure trivial
    | stuck reason _ passes => exact .stuck reason _ passes

/-- The two graphs have the same output or fail alike. -/
theorem graph_sameResult (settings : Settings σ) {state state' : State σ}
    (hosts : settings.registry.AnswersAlike state.host state'.host) (inputs : Value) :
    (Run.graph settings call.named inputs state).SameResult
      (Run.graph settings call.inPlace inputs state') := by
  obtain ⟨n, levels⟩ := Run.exists_level settings settings call.named call.inPlace inputs inputs
    state state'
  obtain ⟨named, inPlace⟩ := levels (n + 2) (Nat.le_add_right n 2)
  rw [← named, ← inPlace]
  exact (call.agrees_activate settings hosts n inputs).sameResult
    (named ▸ Run.graph_hasEnd settings call.named inputs state)

/-- Of two documents, one of which defines a body as a template and runs it by its name while the
other one runs it in place, a run on the same inputs has the same output or the same failure. -/
theorem document_sameResult (settings : Settings σ) {stored stored' : Value}
    {document document' : Document} (loads : Document.load stored = .ok document)
    (loads' : Document.load stored' = .ok document') (named : document.data = call.named)
    (inPlace : document'.data = call.inPlace) {state state' : State σ}
    (hosts : settings.registry.AnswersAlike state.host state'.host) (inputs : Value) :
    (Run.document settings stored inputs state).SameResult
      (Run.document settings stored' inputs state') := by
  rw [Run.document_apply settings loads, Run.document_apply settings loads', named, inPlace]
  exact call.graph_sameResult settings
    (by rwa [State.traced_host, State.traced_host]) inputs

/-- A step that runs a body in its own namespace, where the body reads a result of its own and one
of the inputs of the run. -/
def scaling : Inlinable where
  header := ⟨"c", false, none⟩
  invocation := { inputs := some (.object [("x", .string "inputs.x")]), namespaceKey := some "n" }
  body := [.action ⟨"y", false, none⟩ (.alias "inputs.x"),
    .action ⟨"z", true, none⟩ (.alias "y")]
  template := ⟨"scale", false, none⟩
  definition := { isTemplate := true }
  runs := rfl
  defines := rfl
  apart := by decide
  unmarked := by decide
  avoids := by decide +kernel

/-- The body as it is stored. -/
def storedBody : Value :=
  .array [.object [("mirror", .string "inputs.x"), ("name", .string "y"),
      ("type", .string "alias")],
    .object [("isHidden", .bool true), ("mirror", .string "y"), ("name", .string "z"),
      ("type", .string "alias")]]

/-- The step that runs the body, given in place or by name, as it is stored. -/
def storedCall (body : Value) : Value :=
  .object [("graphDef", body), ("inputs", .object [("x", .string "inputs.x")]),
    ("name", .string "c"), ("namespace", .string "n"), ("type", .string "graph")]

/-- The definition of the template as it is stored. -/
def storedDefinition : Value :=
  .object [("graphDef", storedBody), ("isTemplate", .bool true), ("name", .string "scale"),
    ("type", .string "graph")]

/-- The stored documents have the same output for every value of the input. -/
theorem scaling_sameResult :
    Document.load (.array [storedDefinition, storedCall (.string "scale")]) =
        .ok { data := scaling.named } ∧
      Document.load (.array [storedCall storedBody]) = .ok { data := scaling.inPlace } ∧
      ∀ x, (Run.document ⟨Registry.empty, {}⟩
          (.array [storedDefinition, storedCall (.string "scale")]) (.object [("x", x)])
          (State.start ())).SameResult
        (Run.document ⟨Registry.empty, {}⟩ (.array [storedCall storedBody]) (.object [("x", x)])
          (State.start ())) := by
  have loads : Document.load (.array [storedDefinition, storedCall (.string "scale")]) =
      .ok { data := scaling.named } := rfl
  have loads' : Document.load (.array [storedCall storedBody]) =
      .ok { data := scaling.inPlace } := rfl
  exact ⟨loads, loads', fun x => scaling.document_sameResult ⟨Registry.empty, {}⟩ loads loads' rfl
    rfl (.inl rfl) (.object [("x", x)])⟩

end Inlinable

end StepGraph
