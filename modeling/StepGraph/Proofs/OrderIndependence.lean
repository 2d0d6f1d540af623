import StepGraph.Proofs.Running.Faithfulness
import StepGraph.Proofs.Running.Termination

/-!
# Order independence

The declared order of the steps is only the order in which they are tried. In an orderless graph
every step means the same whatever the order is, a run that ends has run all steps, and its output
shows what they mean; a run that fails does so because a step means a failure. So the graph and any
permutation of it have the same output, or both fail.
-/
namespace StepGraph

variable {σ : Type}

namespace OrderIndependence

open Interpreter Meaning

variable {settings : Settings σ} {enough : Nat} {inputs : Value} {host : σ} {graph : Graph}
  {means : Step → Outcome σ Effect}

/-- What an output shows under a name when all steps have published what they mean. -/
def shown (graph : Graph) (means : Step → Outcome σ Effect) (name : String) : Option Value :=
  (Graph.findStep? graph name).bind fun step =>
    if step.isHidden then none
    else
      match means step with
      | .done (.publish value) _ => some value
      | _ => none

/-- What running steps comes to: they have all been run, or one means the failure. -/
def Completes (graph : Graph) (inputs : Value) (means : Step → Outcome σ Effect)
    (names : List String) (steps : List Step) : Outcome σ Unit → Prop
  | .done () last => ∃ names' context, names ⊆ names' ∧
      (∀ step ∈ steps, step.isComment = false → step.name ∈ names') ∧
      Faithful graph inputs means names' [] context last
  | .failed failure _ => ∃ step ∈ graph, step.isComment = false ∧
      ∃ last, means step = .failed failure last
  | .stuck _ => True

/-- Steps complete with one more before them that has been run, if it does something. -/
theorem Completes.cons {names more : List String} {step : Step} {steps : List Step}
    {outcome : Outcome σ Unit} (subset : names ⊆ more)
    (ran : step.isComment = false → step.name ∈ more)
    (completes : Completes graph inputs means more steps outcome) :
    Completes graph inputs means names (step :: steps) outcome := by
  cases outcome with
  | done value last =>
    obtain ⟨names', context, subset', rest, faithful⟩ := completes
    refine ⟨names', context, fun name old => subset' (subset old), ?_, faithful⟩
    exact List.forall_mem_cons.mpr ⟨fun acts => subset' (ran acts), rest⟩
  | failed failure last => exact completes
  | stuck reason => trivial

/-- Running steps one after the other completes. -/
theorem completes_executeAll {n : Nat} (runs : Runs settings inputs graph means n)
    {steps : List Step} (members : ∀ step ∈ steps, step ∈ graph) {names : List String}
    {context : Context} {state : State σ}
    (faithful : Faithful graph inputs means names [] context state) :
    Completes graph inputs means names steps (executeAll (level settings n) 0 steps state) := by
  induction steps generalizing names context state with
  | nil => exact ⟨names, context, List.Subset.refl _, List.forall_mem_nil _, faithful⟩
  | cons step rest ih =>
    have others := fun other member => members other (List.mem_cons_of_mem _ member)
    have member := members step List.mem_cons_self
    rw [executeAll, Run.forEach]
    cases comment : step.isComment with
    | true =>
      have vacuous : step.isComment = false → step.name ∈ names := by
        intro acts
        rw [comment] at acts
        cases acts
      rw [Run.bind_apply_of_done (execute_of_comment _ comment 0 state)]
      exact (ih others faithful).cons (List.Subset.refl _) vacuous
    | false =>
      cases run : context.hasExecuted step.name with
      | true =>
        have named := faithful.of_named
          (List.forall_mem_cons.mpr ⟨run, faithful.published.named⟩)
        rw [Run.bind_apply_of_done (execute_of_executed _ comment faithful.alive run)]
        exact (ih others named).cons (List.subset_cons_self _ _) fun _ => List.mem_cons_self
      | false =>
        have concludes := runs.execute faithful member comment run (List.forall_mem_nil _)
        cases executed : execute (level settings n) 0 step state with
        | done value after =>
          rw [executed] at concludes
          obtain ⟨context', faithful'⟩ := concludes
          rw [Run.bind_apply_of_done executed]
          exact (ih others faithful').cons (List.subset_cons_self _ _) fun _ => List.mem_cons_self
        | failed failure after =>
          rw [executed] at concludes
          rw [Run.bind_apply_of_failed executed]
          exact ⟨step, member, comment, concludes⟩
        | stuck reason =>
          rw [Run.bind_apply_of_stuck executed]
          trivial

/-- What a run comes to: all steps have a result and the output shows what they mean, or one means
the failure. -/
def Amounts (graph : Graph) (means : Step → Outcome σ Effect) : Outcome σ Object → Prop
  | .done output _ => Dictionary.Sorted output ∧
      (∀ name, Dictionary.find? output name = shown graph means name) ∧
      ∀ step ∈ graph, step.isComment = false →
        ∃ value last, means step = .done (.publish value) last
  | .failed failure _ => ∃ step ∈ graph, step.isComment = false ∧
      ∃ last, means step = .failed failure last
  | .stuck _ => True

/-- When all steps of a graph have been run, the output shows what they mean. -/
theorem find?_output_eq_shown {names : List String} {context : Context}
    (orderless : graph.IsOrderless) (published : Published graph inputs means names [] context)
    (ran : ∀ step ∈ graph, step.isComment = false → step.name ∈ names) (name : String) :
    Dictionary.find? context.output name = shown graph means name := by
  rw [published.output, shown]
  cases found : Graph.findStep? graph name with
  | none => rfl
  | some step =>
    obtain ⟨member, acts, rfl⟩ := orderless.findStep?_eq_some_iff.mp found
    have run := published.named step.name (ran step member acts)
    obtain ⟨value, last, meant, stored⟩ := published.ended step member acts run List.not_mem_nil
    rw [Option.bind_some, Option.bind_some, stored, meant]

/-- Activating an orderless graph amounts to what its steps mean. -/
theorem amounts_nested (orderless : graph.IsOrderless) {n : Nat}
    (runs : Runs settings inputs graph means n) (deep : 0 < settings.config.maxDepth)
    (name : String) {state : State σ} (contexts : state.contexts = [])
    (templates : state.templates = []) (depth : state.depth = 0) :
    Amounts graph means
      (nested settings (level settings n) name graph (some inputs) none state) := by
  have started : Faithful graph inputs means [] [] (Context.start graph (some inputs) none)
      (state.enter (Context.start graph (some inputs) none)) :=
    ⟨.start orderless inputs means, congrArg (· ++ [_]) contexts, templates,
      congrArg (· + 1) depth⟩
  have completes := completes_executeAll runs
    (fun step member => Graph.mem_hoisted.mp member) started
  have shallow : ¬settings.config.maxDepth ≤ state.depth := by omega
  rw [nested_apply, if_neg shallow, Run.inside_apply, contexts, List.length_nil]
  cases ended : executeAll (level settings n) 0 (Graph.hoisted graph)
      (state.enter (Context.start graph (some inputs) none)) with
  | done value last =>
    rw [ended] at completes
    obtain ⟨names, context, -, ran, faithful⟩ := completes
    have published := faithful.published
    have all (step : Step) (member : step ∈ graph) (acts : step.isComment = false) :
        step.name ∈ names := ran step (Graph.mem_hoisted.mpr member) acts
    have latest : last.latestOutput = context.output := by
      rw [State.latestOutput, faithful.contexts]
      rfl
    dsimp only
    rw [latest]
    refine ⟨published.sorted, find?_output_eq_shown orderless published all, ?_⟩
    intro step member acts
    have run := published.named step.name (all step member acts)
    obtain ⟨value, last, meant, -⟩ := published.ended step member acts run List.not_mem_nil
    exact ⟨value, last, meant⟩
  | failed failure last =>
    rw [ended] at completes
    exact completes
  | stuck reason => trivial

/-- What outcomes amount to depends on the steps alone. -/
theorem Amounts.of_mem_iff (orderless : graph.IsOrderless) {other : Graph}
    (same : ∀ step, step ∈ other ↔ step ∈ graph) {outcome : Outcome σ Object}
    (amounts : Amounts other means outcome) : Amounts graph means outcome := by
  have looks : shown other means = shown graph means := by
    funext name
    rw [shown, shown, orderless.findStep?_of_mem_iff same]
  cases outcome with
  | done output last =>
    obtain ⟨sorted, found, results⟩ := amounts
    rw [looks] at found
    exact ⟨sorted, found, fun step member => results step ((same step).mpr member)⟩
  | failed failure last =>
    obtain ⟨step, member, rest⟩ := amounts
    exact ⟨step, (same step).mp member, rest⟩
  | stuck reason => trivial

/-- Whether two runs have the same output, or both fail. -/
def Agree (left right : Outcome σ Object) : Prop :=
  (∃ output last last', left = .done output last ∧ right = .done output last') ∨
    ∃ failure failure' last last', left = .failed failure last ∧ right = .failed failure' last'

/-- Runs that amount to the same have the same output, or both fail. -/
theorem Amounts.agree {left right : Outcome σ Object} (first : Amounts graph means left)
    (second : Amounts graph means right) (left_ends : ∀ reason, left ≠ .stuck reason)
    (right_ends : ∀ reason, right ≠ .stuck reason) : Agree left right := by
  cases left with
  | stuck reason => exact absurd rfl (left_ends reason)
  | done output last =>
    obtain ⟨sorted, found, results⟩ := first
    cases right with
    | stuck reason => exact absurd rfl (right_ends reason)
    | done output' last' =>
      obtain ⟨sorted', found', -⟩ := second
      have same : output = output' := Dictionary.eq_of_find?_eq sorted sorted' fun key =>
        (found key).trans (found' key).symm
      subst same
      exact .inl ⟨output, last, last', rfl, rfl⟩
    | failed failure last' =>
      obtain ⟨step, member, acts, _, meant⟩ := second
      obtain ⟨_, _, published⟩ := results step member acts
      rw [meant] at published
      cases published
  | failed failure last =>
    cases right with
    | stuck reason => exact absurd rfl (right_ends reason)
    | done output last' =>
      obtain ⟨step, member, acts, _, meant⟩ := first
      obtain ⟨_, _, published⟩ := second.2.2 step member acts
      rw [meant] at published
      cases published
    | failed failure' last' => exact .inr ⟨failure, failure', last, last', rfl, rfl⟩

/-- Without any depth every run fails. -/
theorem graph_of_no_depth (none_left : settings.config.maxDepth = 0) (graph : Graph)
    (inputs : Value) (state : State σ) :
    Run.graph settings graph inputs state = .failed (.cyclicReference rootName 0) state.reset := by
  show nested settings (level settings _) rootName graph (some inputs) none state.reset = _
  rw [nested_apply, none_left]
  rfl

/-- A permutation of a graph has the same output as the graph, or both fail, when the steps are run
for their own results alone: they define no templates, not even inside of bodies, run no bodies that
read from where they are run, do not take the place of the inputs, and refer to each other without
cycles. -/
theorem agree_permuted (settings : Settings σ) (pure : settings.registry.IsPure)
    {graph permuted : Graph} (permutes : graph.Perm permuted) (valid : graph.IsValid)
    (defines : graph.Everywhere fun step => step.definesTemplate = false)
    (detached : ∀ step ∈ graph, step.isNamespaced = false)
    (clear : ∀ step ∈ graph, step.name ≠ inputsKey) (acyclic : graph.IsAcyclic)
    (inputs : Value) (state state' : State σ) :
    Agree (Run.graph settings graph inputs state) (Run.graph settings permuted inputs state') := by
  rcases Nat.eq_zero_or_pos settings.config.maxDepth with none_left | deep
  · rw [graph_of_no_depth none_left, graph_of_no_depth none_left]
    exact .inr ⟨_, _, _, _, rfl, rfl⟩
  · have same (step : Step) : step ∈ permuted ↔ step ∈ graph := permutes.mem_iff.symm
    have orderless := valid.isOrderless defines detached clear acyclic
    obtain ⟨means, fits⟩ := exists_fits settings
      (max (sufficientLevel graph settings.config.maxDepth)
        (sufficientLevel permuted settings.config.maxDepth)) inputs state.host acyclic
    have runs := runs_level pure orderless fits (Nat.le_trans (Nat.le_succ _) (Nat.le_max_left _ _))
    have runs' := runs_level pure (orderless.of_mem_iff same) (fits.of_mem_iff orderless same)
      (Nat.le_trans (Nat.le_succ _) (Nat.le_max_right _ _))
    have first : Amounts graph means (Run.graph settings graph inputs state) :=
      amounts_nested orderless runs deep rootName rfl rfl rfl
    have second : Amounts permuted means (Run.graph settings permuted inputs state') :=
      amounts_nested (orderless.of_mem_iff same) runs' deep rootName rfl rfl rfl
    exact first.agree (second.of_mem_iff orderless same)
      (Run.graph_ne_stuck settings graph inputs state)
      (Run.graph_ne_stuck settings permuted inputs state')

/-- A graph in which each step refers to the one before, the last from the inputs of a body. -/
def chainGraph : Graph :=
  [.action ⟨"a", false, none⟩ (.alias "inputs.x"),
   .action ⟨"b", false, none⟩
    (.transform "add" (.object [("a", .string "a"), ("b", .number (.integer 1))])),
   .graph ⟨"c", false, none⟩ { inputs := some (.object [("y", .string "b")]) } (.inline
    [.action ⟨"d", false, none⟩ (.alias "inputs.y")])]

/-- The references of the chain have no cycle. -/
theorem chainGraph_isAcyclic : chainGraph.IsAcyclic :=
  Graph.isAcyclic_of_rank (fun step => chainGraph.findIdx fun other => other == step)
    (by decide +kernel)

/-- The chain may as well be declared from its end. -/
theorem agree_reversed_chain :
    chainGraph.Perm chainGraph.reverse ∧
      Agree
        (Run.graph ⟨Registry.standard, {}⟩ chainGraph (.object [("x", .number (.integer 3))])
          (State.start ()))
        (Run.graph ⟨Registry.standard, {}⟩ chainGraph.reverse
          (.object [("x", .number (.integer 3))]) (State.start ())) :=
  have permutes : chainGraph.Perm chainGraph.reverse := chainGraph.reverse_perm.symm
  ⟨permutes, agree_permuted ⟨Registry.standard, {}⟩ Registry.standard_isPure permutes
    (by decide +kernel) (by decide +kernel) (by decide +kernel) (by decide +kernel)
    chainGraph_isAcyclic (.object [("x", .number (.integer 3))]) (State.start ()) (State.start ())⟩

end OrderIndependence

end StepGraph
