import StepGraph.Proofs.Running.Definitions

/-!
# Running a body over a collection

A body that is run over a collection gives one result for each element, in order. The elements
share the templates of the run: each result is what a single activation comes to in the state in
which the iteration began, but for the templates that the elements before it have left. Where the
definitions of the body itself make up for what an element leaves, the result of an element
depends on the element alone.
-/
namespace StepGraph

variable {σ : Type}

namespace Iteration

open Interpreter

variable {settings : Settings σ} {name : String} {graph : Graph} {given : Object} {n : Nat}

/-- A single activation of a body, for one element. -/
def single (inner : Interpreter σ) (name : String) (graph : Graph) (given : Object)
    (element : Value) : Run σ Object :=
  inner.activate name graph (some (.object (Dictionary.insert given itemInput element))) none

/-- The output of a single activation in a state, if there is one. -/
def outputIn (inner : Interpreter σ) (name : String) (graph : Graph) (given : Object)
    (state : State σ) (element : Value) : Object :=
  match single inner name graph given element state with
  | .done output _ => output
  | _ => []

/-- Whether the templates that a single activation leaves come to the same, once the body has run
its own definitions, as those it began with. -/
def Settles (inner : Interpreter σ) (name : String) (graph : Graph) (given : Object)
    (state : State σ) (element : Value) : Prop :=
  ∀ output next, single inner name graph given element state = .done output next →
    graph.definitions next.templates = graph.definitions state.templates

/-- The result for an element is the output of a single activation. -/
theorem exists_of_runElement_eq_done {inner : Interpreter σ} {state final : State σ}
    {element result : Value}
    (ends : runElement inner name graph given element state = .done result final) :
    ∃ output, single inner name graph given element state = .done output final ∧
      result = .object output := by
  obtain ⟨output, last, acted, same⟩ := Run.exists_of_bind_eq_done ends
  cases same
  exact ⟨output, acted, rfl⟩

/-- The output of a single activation is the result for its element. -/
theorem runElement_apply {inner : Interpreter σ} {state final : State σ} {element : Value}
    {output : Object}
    (ends : single inner name graph given element state = .done output final) :
    runElement inner name graph given element state = .done (.object output) final :=
  Run.bind_apply_of_done ends

/-- An iteration leaves the contexts and the depth as they are. -/
theorem restores_of_collect (pure : settings.registry.IsPure) {elements : List Value}
    {state final : State σ} {results : List Value}
    (ends : Run.collect (runElement (level settings n) name graph given) elements state =
      .done results final) :
    final.contexts = state.contexts ∧ final.depth = state.depth := by
  induction elements generalizing state results with
  | nil =>
    cases ends
    exact ⟨rfl, rfl⟩
  | cons element rest ih =>
    obtain ⟨result, middle, others, acted, collected, rfl⟩ :=
      Run.exists_of_collect_cons_eq_done ends
    obtain ⟨output, activated, -⟩ := exists_of_runElement_eq_done acted
    obtain ⟨_, _, restored⟩ := activate_of_definitions pure rfl rfl rfl activated
    obtain ⟨contexts, depth⟩ := ih collected
    exact ⟨contexts.trans restored.contexts, depth.trans restored.depth⟩

/-- Each result of an iteration is the output of a single activation in the state in which it
began, but for the templates that the elements before have left. -/
theorem exists_of_collect (pure : settings.registry.IsPure) {elements : List Value}
    {began final : State σ} {results : List Value}
    (ends : Run.collect (runElement (level settings n) name graph given) elements began =
      .done results final) {position : Nat} {element : Value}
    (there : elements[position]? = some element) :
    ∃ before output next,
      Run.collect (runElement (level settings n) name graph given) (elements.take position)
        began = .done (results.take position) before ∧
      single (level settings n) name graph given element
        { began with templates := before.templates } = .done output next ∧
      results[position]? = some (.object output) := by
  obtain ⟨-, each⟩ := Run.exists_of_collect_eq_done ends
  obtain ⟨before, result, after, earlier, acts, placed⟩ := each position element there
  obtain ⟨output, activated, rfl⟩ := exists_of_runElement_eq_done acts
  obtain ⟨contexts, depth⟩ := restores_of_collect pure earlier
  obtain ⟨next, ended, -⟩ := activate_of_definitions pure
    (show before.contexts = State.contexts { began with templates := before.templates } from
      contexts) depth rfl activated
  exact ⟨before, output, next, earlier, ended, placed⟩

section Independent

variable {began : State σ} {elements : List Value}
  (settles : ∀ element ∈ elements,
    Settles (level settings n) name graph given began element)

include settles

/-- Where elements leave nothing that matters, the results of an iteration are those of single
activations in the state in which it began, whichever of them have been run before. -/
theorem collect_eq_map (pure : settings.registry.IsPure) {state final : State σ}
    {results : List Value} (contexts : state.contexts = began.contexts)
    (depth : state.depth = began.depth)
    (same : graph.definitions state.templates = graph.definitions began.templates)
    (ends : Run.collect (runElement (level settings n) name graph given) elements state =
      .done results final) :
    results = elements.map (fun element =>
        .object (outputIn (level settings n) name graph given began element)) ∧
      ∀ element ∈ elements, ∃ next,
        single (level settings n) name graph given element began =
          .done (outputIn (level settings n) name graph given began element) next := by
  induction elements generalizing state results with
  | nil =>
    cases ends
    exact ⟨rfl, nofun⟩
  | cons element rest ih =>
    obtain ⟨result, middle, others, acted, collected, rfl⟩ :=
      Run.exists_of_collect_cons_eq_done ends
    obtain ⟨output, activated, rfl⟩ := exists_of_runElement_eq_done acted
    obtain ⟨next, ended, restored⟩ := activate_of_definitions pure contexts depth same activated
    have settled := settles element List.mem_cons_self output next ended
    have shown : outputIn (level settings n) name graph given began element = output := by
      rw [outputIn, single, ended]
    obtain ⟨mapped, singles⟩ :=
      ih (fun other member => settles other (List.mem_cons_of_mem _ member))
        (restored.contexts.trans contexts) (restored.depth.trans depth)
        ((congrArg graph.definitions restored.templates).trans settled) collected
    refine ⟨by rw [List.map_cons, shown, mapped], fun other member => ?_⟩
    rcases List.mem_cons.mp member with rfl | later
    · exact ⟨next, shown.symm ▸ ended⟩
    · exact singles other later

/-- Where elements leave nothing that matters and have outputs by themselves, they have these
outputs one after the other, in whatever order. -/
theorem collect_of_singles (pure : settings.registry.IsPure)
    (singles : ∀ element ∈ elements, ∃ next,
      single (level settings n) name graph given element began =
        .done (outputIn (level settings n) name graph given began element) next)
    {items : List Value} (inside : items ⊆ elements) {state : State σ}
    (contexts : began.contexts = state.contexts) (depth : began.depth = state.depth)
    (same : graph.definitions began.templates = graph.definitions state.templates) :
    ∃ last, Run.collect (runElement (level settings n) name graph given) items state =
      .done (items.map fun item =>
        .object (outputIn (level settings n) name graph given began item)) last := by
  induction items generalizing state with
  | nil => exact ⟨state, rfl⟩
  | cons item rest ih =>
    have member := inside List.mem_cons_self
    obtain ⟨next, ended⟩ := singles item member
    obtain ⟨after, activated, restored⟩ :=
      activate_of_definitions pure contexts depth same ended
    have settled := settles item member _ next ended
    obtain ⟨last, collected⟩ := ih (fun _ later => inside (List.mem_cons_of_mem _ later))
      (contexts.trans restored.contexts'.symm) (depth.trans restored.depth'.symm)
      (settled.symm.trans (congrArg graph.definitions restored.templates))
    exact ⟨last, Run.collect_cons_apply (runElement_apply activated) collected⟩

end Independent

/-- Finding the graph of a body leaves the state as it is. -/
theorem eq_of_bodyGraph_eq_done {step : String} {body : Body Step} {state last : State σ}
    (found : bodyGraph step body state = .done graph last) : last = state := by
  cases body with
  | inline steps =>
    cases found
    rfl
  | template name =>
    rw [bodyGraph, Run.bind_apply_of_done (Run.template?_apply name state)] at found
    cases held : Dictionary.find? state.templates name with
    | none =>
      rw [held] at found
      cases found
    | some graph =>
      rw [held] at found
      cases found
      rfl

/-- A step that runs a body over a collection and ends has resolved its inputs, has run the body for
each element and has published the results. -/
theorem exists_of_dispatch_map {inner : Interpreter σ} {header : Header} {invocation : Invocation}
    {body : Body Step} (runs : invocation.mode? body = some .map) {id : ContextId}
    {state final : State σ}
    (ends : dispatch settings inner id (.graph header invocation body) state = .done () final) :
    ∃ graph given began elements results last context,
      bodyGraph header.name body state = .done graph state ∧
      resolveInputs inner id header.name invocation.inputs
        (state.traced settings (.subgraphStarted header.name .map)) = .done given began ∧
      Dictionary.find? given collectionInput = some (.array elements) ∧
      Run.collect (runElement inner header.name graph given) elements began =
        .done results last ∧
      final.contexts[id]? = some context ∧
      Dictionary.find? context.values header.name = some (.array results) := by
  simp only [dispatch, runGraph, runs] at ends
  obtain ⟨graph, middle, found, traces⟩ := Run.exists_of_bind_eq_done ends
  obtain rfl := eq_of_bodyGraph_eq_done found
  rw [Run.bind_apply_of_done (Run.trace_apply _)] at traces
  obtain ⟨⟨⟩, left, runs_body, traced⟩ := Run.exists_of_bind_eq_done traces
  simp only [runBody, runMap] at runs_body
  obtain ⟨given, began, resolved, maps⟩ := Run.exists_of_bind_eq_done runs_body
  cases holds : Dictionary.find? given collectionInput with
  | none =>
    rw [holds] at maps
    cases maps
  | some collection =>
    rw [holds] at maps
    cases collection with
    | array elements =>
      obtain ⟨results, last, collected, publishes⟩ := Run.exists_of_bind_eq_done maps
      rw [Run.trace_apply] at traced
      cases traced
      rw [State.traced_contexts]
      cases alive : last.contexts[id]? with
      | none =>
        rw [Run.publish_apply_of_none _ _ _ alive] at publishes
        cases publishes
      | some context =>
        rw [Run.publish_apply _ _ _ alive] at publishes
        cases publishes
        rw [← State.traced_contexts last settings
          (.executed header.name header.isHidden (.array results))] at alive
        exact ⟨graph, given, began, elements, results, last, _, found, resolved, holds, collected,
          State.getElem?_setContext_self alive _, Dictionary.find?_insert_self _ _ _⟩
    | _ => cases maps

/-- The results that a step publishes for a collection are as many as the elements, in their order.
Each is the output of a single activation in the state in which the iteration began, but for the
templates that the elements before it have left. Where the elements leave none that matter, the
result of an element depends on the element alone, so that the same iteration over any of the
elements, in whatever order and however often, gives the same results for them. -/
theorem results_of_single (pure : settings.registry.IsPure) {header : Header}
    {invocation : Invocation} {body : Body Step} (runs : invocation.mode? body = some .map)
    {id : ContextId} {state final : State σ}
    (ends : dispatch settings (level settings n) id (.graph header invocation body) state =
      .done () final) :
    ∃ graph given began elements results context,
      bodyGraph header.name body state = .done graph state ∧
      resolveInputs (level settings n) id header.name invocation.inputs
        (state.traced settings (.subgraphStarted header.name .map)) = .done given began ∧
      Dictionary.find? given collectionInput = some (.array elements) ∧
      final.contexts[id]? = some context ∧
      Dictionary.find? context.values header.name = some (.array results) ∧
      results.length = elements.length ∧
      (∀ position element, elements[position]? = some element → ∃ before output next,
        Run.collect (runElement (level settings n) header.name graph given)
          (elements.take position) began = .done (results.take position) before ∧
        single (level settings n) header.name graph given element
          { began with templates := before.templates } = .done output next ∧
        results[position]? = some (.object output)) ∧
      ((∀ element ∈ elements, Settles (level settings n) header.name graph given began element) →
        ∃ outputFor : Value → Object,
          (∀ element ∈ elements, ∃ next,
            single (level settings n) header.name graph given element began =
              .done (outputFor element) next) ∧
          results = elements.map (fun element => .object (outputFor element)) ∧
          ∀ items ⊆ elements, ∃ last,
            Run.collect (runElement (level settings n) header.name graph given) items began =
              .done (items.map fun item => .object (outputFor item)) last) := by
  obtain ⟨graph, given, began, elements, results, last, context, found, resolved, holds, collected,
    alive, published⟩ := exists_of_dispatch_map runs ends
  refine ⟨graph, given, began, elements, results, context, found, resolved, holds, alive,
    published, (Run.exists_of_collect_eq_done collected).1, fun position element there =>
    exists_of_collect pure collected there, fun settles => ?_⟩
  obtain ⟨mapped, singles⟩ := collect_eq_map settles pure rfl rfl rfl collected
  exact ⟨outputIn (level settings n) header.name graph given began, singles, mapped,
    fun items inside => collect_of_singles settles pure singles inside rfl rfl rfl⟩

/-- How a body is run over the items among the inputs. -/
def itemsInvocation : Invocation where
  inputs := some (.object [(collectionInput, .string "inputs.items")])
  collectionMode := some .map

/-- A step that runs a body over the items among the inputs. -/
def overItems (body : List Step) : Step :=
  .graph ⟨"m", false, none⟩ itemsInvocation (.inline body)

/-- Integers as a collection. -/
def collectionOf (integers : List Int) : Value :=
  .array (integers.map fun integer => .number (.integer integer))

/-- What a graph that runs a body over items publishes for them. -/
def publishedFor (body : List Step) (integers : List Int) : Option Value :=
  match Run.graph ⟨Registry.standard, {}⟩ [overItems body]
    (.object [("items", collectionOf integers)]) (State.start ()) with
  | .done output _ => Dictionary.find? output "m"
  | _ => none

/-- The definition of a template. -/
def definition : Step :=
  .graph ⟨"t", false, none⟩ {} (.inline
    [.action ⟨"v", false, none⟩ (.static (.number (.integer 2)))])

/-- A body that refers to a template before a graph inside it defines that template. -/
def leakingBody : List Step :=
  [.action ⟨"b", false, none⟩ (.alias "t"),
   .graph ⟨"a", false, none⟩ { inputs := some (.object []) } (.inline [definition])]

/-- A body that shows the collection that it is run over. -/
def mirroringBody : List Step := [.action ⟨"c", false, none⟩ (.alias "inputs.collection")]

/-- Equal items give different results when the first leaves a template that the second refers to,
and where the body shows the collection, the results are not permuted with the items. -/
theorem results_depend_on_others :
    publishedFor leakingBody [1, 1] = some (.array
      [.object [("a", .object []), ("b", .string "t")],
       .object [("a", .object []), ("b", .object [("v", .number (.integer 2))])]]) ∧
    ∃ results permuted, publishedFor mirroringBody [1, 2] = some (.array results) ∧
      publishedFor mirroringBody [2, 1] = some (.array permuted) ∧ ¬results.Perm permuted :=
  ⟨by decide +kernel,
    [.object [("c", collectionOf [1, 2])], .object [("c", collectionOf [1, 2])]],
    [.object [("c", collectionOf [2, 1])], .object [("c", collectionOf [2, 1])]],
    by decide +kernel, by decide +kernel, by decide +kernel⟩

/-- A body that defines a template of its own. -/
def definingBody : List Step := [definition, .action ⟨"b", false, none⟩ (.alias "t")]

/-- The settings of the standard functions. -/
def standardSettings : Settings Unit := ⟨Registry.standard, {}⟩

/-- A state in which that body may be run over two items. -/
def itemsState : State Unit :=
  (State.start ()).enter
    (Context.start [overItems definingBody] (some (.object [("items", collectionOf [1, 1])])) none)

/-- The state once that body has been run over them. -/
def resultsState : State Unit :=
  let published := Value.array (List.replicate 2 (.object [("b", .object
    [("v", .number (.integer 2))])]))
  { itemsState with
    contexts :=
      [{ graph := [overItems definingBody]
         values := [("inputs", .object [("items", collectionOf [1, 1])]), ("m", published)]
         executed := []
         output := [("m", published)]
         parent := none }]
    templates := [("t", [.action ⟨"v", false, none⟩ (.static (.number (.integer 2)))])] }

/-- What the body is given besides the item that it is run for. -/
def itemsGiven : Object := [(collectionInput, collectionOf [1, 1])]

/-- The item that there are two of. -/
def unitItem : Value := .number (.integer 1)

/-- An activation of the body leaves only the definition that the body makes itself, so that two
equal items give equal results: what a single activation outputs for the item. -/
theorem results_of_items :
    dispatch standardSettings (level standardSettings 8) 0 (overItems definingBody) itemsState =
        .done () resultsState ∧
      Settles (level standardSettings 8) "m" definingBody itemsGiven itemsState unitItem ∧
      ∃ output next context,
        single (level standardSettings 8) "m" definingBody itemsGiven unitItem itemsState =
          .done output next ∧
        resultsState.contexts[0]? = some context ∧
        Dictionary.find? context.values "m" = some (.array [.object output, .object output]) ∧
        output = [("b", .object [("v", .number (.integer 2))])] := by
  have ends : dispatch standardSettings (level standardSettings 8) 0
      (.graph ⟨"m", false, none⟩ itemsInvocation (.inline definingBody)) itemsState =
        .done () resultsState := by
    decide +kernel
  have runs : itemsInvocation.mode? (.inline definingBody) = some .map := by decide
  have pure : standardSettings.registry.IsPure := Registry.standard_isPure
  have resolves : resolveInputs (level standardSettings 8) 0 "m" itemsInvocation.inputs
      (itemsState.traced standardSettings (.subgraphStarted "m" .map)) =
        .done itemsGiven itemsState := by
    decide +kernel
  have acts : single (level standardSettings 8) "m" definingBody itemsGiven unitItem itemsState =
      .done [("b", .object [("v", .number (.integer 2))])]
        { itemsState with templates := resultsState.templates } := by
    decide +kernel
  have settles : Settles (level standardSettings 8) "m" definingBody itemsGiven itemsState
      unitItem := by
    intro output next same
    rw [acts] at same
    cases same
    decide
  obtain ⟨graph, given, began, elements, results, context, found, resolved, holds, alive, published,
    -, -, independent⟩ := results_of_single pure runs ends
  cases found
  rw [resolves] at resolved
  cases resolved
  have items : elements = [unitItem, unitItem] := by
    cases holds
    rfl
  subst items
  obtain ⟨outputFor, singles, mapped, -⟩ := independent (by simpa using settles)
  obtain ⟨next, activated⟩ := singles unitItem List.mem_cons_self
  subst mapped
  have shown := (Outcome.done.inj (activated.symm.trans acts)).1
  exact ⟨ends, settles, outputFor unitItem, next, context, activated, alive, published, shown⟩

end Iteration

end StepGraph
