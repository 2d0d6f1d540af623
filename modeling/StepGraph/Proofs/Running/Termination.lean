import StepGraph.Proofs.Path
import StepGraph.Proofs.Running.Budget
import StepGraph.Proofs.Running.Evaluation
import StepGraph.Proofs.Running.Observation

/-!
# Termination

Every run ends, with an output or a failure: no run is cut off and none loses a context. `Ends` says
so of two sets of operations, which moreover come to the same, for the calls that an allowance
admits with a budget. If the operations inside end with what an allowance leaves to them, so do
those around them (`Ends.around`), and the allowances of the levels are such: marking a step and
nesting an activation lower the worth of the budget, and a path that is handed on to a caller only
gets shorter, so that a level in proportion to the worth is enough.

What holds of calls that end holds of those that are cut off as well where stuck runs are let pass:
whatever they come to, they leave the contexts and the depth that they began with.
-/
namespace StepGraph

variable {σ : Type}

/-- A state that a run of a graph can be in, as a relation of two runs that are the same. -/
def Steady (root : Graph) (maxDepth : Nat) (budget : Budget) (first second : State σ) : Prop :=
  first = second ∧ first.Sound root maxDepth budget

/-- States of two runs that are the same remain so with a larger budget. -/
theorem Steady.relax {root : Graph} {maxDepth : Nat} {less budget : Budget}
    {first second : State σ} (steady : Steady root maxDepth less first second)
    (lower : less.AtMost budget) : Steady root maxDepth budget first second :=
  ⟨steady.1, steady.2.relax lower⟩

/-- Two runs that end and are the same come to the same, which is not stuck. -/
theorem Outcome.eq_of_agrees_steady {α : Type} {root : Graph} {maxDepth : Nat} {budget : Budget}
    {first second : Outcome σ α}
    (agree : Agrees False (Steady root maxDepth budget) (fun _ => Steady root maxDepth budget) first
      second) : first = second ∧ first.HasEnd := by
  cases agree with
  | done value related => exact ⟨congrArg _ related.1, trivial⟩
  | failed failure related => exact ⟨congrArg _ related.1, trivial⟩
  | stuck _ _ passes => exact passes.elim

/-- Which calls may be made with a budget. -/
abbrev Allowance := Budget → Call → Prop

/-- What the operations around allow is allowed to those inside, for the calls that they make. -/
structure Grants (root : Graph) (maxDepth : Nat) (outer inner : Allowance) : Prop where
  /-- The search for a path may run a step, which has been marked. -/
  mark : ∀ {budget : Budget} {id path graph left less step}, outer budget (.resolve id path) →
    budget[id]? = some (graph, left) → less < left →
    inner (budget.set id (graph, less)) (.perform id step)
  /-- The search for a path may call a template. -/
  call : ∀ {budget id path name graph inputs caller}, outer budget (.resolve id path) →
    inner budget (.activate name graph inputs caller)
  /-- The search for a path may go on with a shorter path in the context of the caller. -/
  shorten : ∀ {budget id path caller rest}, outer budget (.resolve id path) →
    rest.length < path.length → inner budget (.resolve caller rest)
  /-- Running a step may look for its paths. -/
  look : ∀ {budget id step graph path}, outer budget (.perform id step) → root.Includes graph →
    step ∈ graph → path ∈ step.paths → inner budget (.resolve id path)
  /-- Running a step may activate a body. -/
  body : ∀ {budget id step name graph inputs caller}, outer budget (.perform id step) →
    inner budget (.activate name graph inputs caller)
  /-- An activation runs the steps of its graph, one level deeper. -/
  enter : ∀ {budget : Budget} {name graph inputs caller less step},
    outer budget (.activate name graph inputs caller) → root.Includes graph →
    budget.length < maxDepth → less < graph.length →
    inner (budget ++ [(graph, less)]) (.perform budget.length step)

/-- Whatever is granted where two allowances both admit a call is granted by both. -/
theorem Grants.and {root : Graph} {maxDepth : Nat} {outer outer' inner inner' : Allowance}
    (one : Grants root maxDepth outer inner) (other : Grants root maxDepth outer' inner') :
    Grants root maxDepth (fun budget call => outer budget call ∧ outer' budget call)
      (fun budget call => inner budget call ∧ inner' budget call) where
  mark := fun both held lower => ⟨one.mark both.1 held lower, other.mark both.2 held lower⟩
  call := fun both => ⟨one.call both.1, other.call both.2⟩
  shorten := fun both shorter => ⟨one.shorten both.1 shorter, other.shorten both.2 shorter⟩
  look := fun both inside member path =>
    ⟨one.look both.1 inside member path, other.look both.2 inside member path⟩
  body := fun both => ⟨one.body both.1, other.body both.2⟩
  enter := fun both inside shallow lower =>
    ⟨one.enter both.1 inside shallow lower, other.enter both.2 inside shallow lower⟩

namespace Interpreter

/-- Two sets of operations that come to the same, and keep to their budget, wherever an allowance
admits their call; a call that is stuck is let pass or not. -/
structure Ends (root : Graph) (maxDepth : Nat) (lenient : Prop) (allows : Allowance)
    (inner inner' : Interpreter σ) : Prop where
  /-- Looking for a path ends. -/
  resolve : ∀ {budget id path}, id < budget.length → allows budget (.resolve id path) →
    Run.Preserve lenient (Steady root maxDepth budget) (Steady root maxDepth budget)
      (inner.resolve id path) (inner'.resolve id path)
  /-- Running a step ends. -/
  perform : ∀ {budget id step context state}, state.Sound root maxDepth budget →
    state.contexts[id]? = some context → step ∈ context.graph →
    allows budget (.perform id step) →
    Outcome.Agrees lenient (Steady root maxDepth budget) (fun _ => Steady root maxDepth budget)
      (inner.perform id step state) (inner'.perform id step state)
  /-- Activating a graph ends. -/
  activate : ∀ {budget name graph inputs caller}, root.Includes graph →
    (∀ id, caller = some id → id < budget.length) →
    allows budget (.activate name graph inputs caller) →
    Run.Preserve lenient (Steady root maxDepth budget) (Steady root maxDepth budget)
      (inner.activate name graph inputs caller) (inner'.activate name graph inputs caller)

/-- The operations around those inside. -/
def around (settings : Settings σ) (inner : Interpreter σ) : Interpreter σ where
  resolve := fun id path => tryResolve settings inner id path
  perform := fun id step => dispatch settings inner id step
  activate := fun name graph inputs caller => nested settings inner name graph inputs caller

/-- The operations at a level are those around the operations one level below. -/
theorem level_succ (settings : Settings σ) (below : Nat) :
    level settings (below + 1) = around settings (level settings below) := rfl

section Ending

variable {root : Graph} {settings : Settings σ} {inner inner' : Interpreter σ} {budget : Budget}
  {maxDepth : Nat} {lenient : Prop} {outer allows : Allowance}

/-- Outside of contexts nothing keeps a run from ending. -/
theorem steady_basis :
    Basis lenient (Steady root maxDepth budget) (Steady root maxDepth budget) (.inside root)
      settings settings where
  aborts := fun _ _ => id
  contains := fun _ => rfl
  calls := by
    rintro function params first _ ⟨rfl, sound⟩
    rw [Run.call_apply]
    exact .done _ ⟨rfl, sound.of_unmoved (first.unmoved_replied _)⟩
  traces := by
    rintro event first _ ⟨rfl, sound⟩
    rw [Run.trace_apply]
    exact .done _ ⟨rfl, sound.of_unmoved (first.unmoved_traced settings event)⟩
  warns := by
    rintro warning first _ ⟨rfl, sound⟩
    exact .done _ ⟨rfl, sound.of_unmoved ⟨rfl, rfl, rfl⟩⟩
  templates := by
    rintro first _ ⟨rfl, -⟩ name -
    rfl
  knows := fun _ _ related _ _ _ => related.2.within.templates

/-- Reading a context that is alive ends. -/
theorem agrees_context {id : Nat} (inside : id < budget.length) :
    Run.Agrees lenient (Steady root maxDepth budget) (Steady root maxDepth budget)
      (fun context first second => Steady root maxDepth budget first second ∧
        first.contexts[id]? = some context)
      (Run.context id : Run σ Context) (Run.context id) := by
  rintro first _ ⟨rfl, sound⟩
  obtain ⟨context, alive⟩ := sound.exists_alive inside
  rw [Run.context_apply alive]
  exact .done _ ⟨⟨rfl, sound⟩, alive⟩

/-- Looking among the published values ends. -/
theorem preserve_lookup {id : Nat} (inside : id < budget.length) (path : String) :
    Run.Preserve lenient (Steady root maxDepth budget) (Steady root maxDepth budget)
      (lookup id path : Run σ (Option Value)) (lookup id path) := by
  refine Run.agrees_bind (agrees_context inside) fun context => ?_
  cases Path.resolve context.values path with
  | ok found => exact Run.agrees_pure _ fun _ _ related => related.1
  | error cause => exact Run.agrees_fail _ fun _ _ related => related.1

/-- Publishing ends. -/
theorem preserve_publish {id : Nat} (inside : id < budget.length) (key : String) (value : Value)
    (hidden : Bool) :
    Run.Preserve lenient (Steady root maxDepth budget) (Steady root maxDepth budget)
      (Run.publish settings id key value hidden) (Run.publish settings id key value hidden) := by
  rintro first _ ⟨rfl, sound⟩
  obtain ⟨context, alive⟩ := sound.exists_alive inside
  rw [Run.publish_apply key value hidden alive]
  have traced := sound.of_unmoved (first.unmoved_traced settings (.executed key hidden value))
  exact .done _ ⟨rfl, traced.publish (by rwa [State.traced_contexts]) key value hidden⟩

/-- Defining a graph inside the whole as a template ends. -/
theorem preserve_define (name : String) {graph : Graph} (inside : root.Includes graph) :
    Run.Preserve lenient (Steady root maxDepth budget) (Steady root maxDepth budget)
      (Run.define name graph : Run σ Unit) (Run.define name graph) := by
  rintro first _ ⟨rfl, sound⟩
  exact .done _ ⟨rfl, sound.define name inside⟩

/-- Running a step unless it has been run ends, if it does once it has been marked. -/
theorem agrees_execute (ends : Ends root maxDepth lenient allows inner inner') {state : State σ}
    {id : Nat} {context : Context} {step : Step} (sound : state.Sound root maxDepth budget)
    (alive : state.contexts[id]? = some context) (member : step ∈ context.graph)
    (granted : ∀ {left less}, budget[id]? = some (context.graph, left) → less < left →
      allows (budget.set id (context.graph, less)) (.perform id step)) :
    Outcome.Agrees lenient (Steady root maxDepth budget) (fun _ => Steady root maxDepth budget)
      (execute inner id step state) (execute inner' id step state) := by
  cases comment : step.isComment with
  | true =>
    rw [execute_of_comment _ comment, execute_of_comment _ comment]
    exact .done _ ⟨rfl, sound⟩
  | false =>
    cases run : context.hasExecuted step.name with
    | true =>
      rw [execute_of_executed _ comment alive run, execute_of_executed _ comment alive run]
      exact .done _ ⟨rfl, sound⟩
    | false =>
      rw [execute_of_fresh _ comment alive run, execute_of_fresh _ comment alive run]
      obtain ⟨left, held, bound⟩ := sound.exists_share alive
      have lower := Nat.lt_of_lt_of_le (Context.unmarked_mark_lt member run) bound
      have marked := sound.setContext alive (context.mark_graph step.name)
        (context.mark_parent step.name) (Nat.le_refl _)
      have raised := Budget.atMost_set held (Nat.le_of_lt lower)
      exact (ends.perform marked (State.getElem?_setContext_self alive _)
        ((context.mark_graph step.name).symm ▸ member) (granted held lower)).mono
        (fun _ _ _ kept => kept.relax raised) fun _ _ kept => kept.relax raised

section Resolving

variable {id : Nat} {path : String}

/-- Running the step that a path refers to ends. -/
theorem preserve_resolveByStep (ends : Ends root maxDepth lenient allows inner inner')
    (grants : Grants root maxDepth outer allows) (inside : id < budget.length)
    (allowed : outer budget (.resolve id path)) :
    Run.Preserve lenient (Steady root maxDepth budget) (Steady root maxDepth budget)
      (resolveByStep inner id path) (resolveByStep inner' id path) := by
  refine Run.agrees_bind (agrees_context inside) fun context => ?_
  cases found : Graph.findStep? context.graph (Path.head path) with
  | none => exact Run.agrees_pure _ fun _ _ related => related.1
  | some step =>
    dsimp only
    split
    · exact Run.agrees_pure _ fun _ _ related => related.1
    · refine Run.agrees_bind ?_ fun _ => preserve_lookup inside path
      rintro first _ ⟨⟨rfl, sound⟩, alive⟩
      exact agrees_execute ends sound alive (List.mem_of_find?_eq_some found)
        fun held lower => grants.mark allowed held lower

/-- Calling a template that a path refers to ends. -/
theorem agrees_callTemplate (ends : Ends root maxDepth lenient allows inner inner')
    (grants : Grants root maxDepth outer allows) (inside : id < budget.length)
    (allowed : outer budget (.resolve id path)) {state : State σ}
    (sound : state.Sound root maxDepth budget) {name : String} {graph : Graph}
    (met : root.Includes graph) :
    Outcome.Agrees lenient (Steady root maxDepth budget) (fun _ => Steady root maxDepth budget)
      (callTemplate settings inner id name graph state)
      (callTemplate settings inner' id name graph state) := by
  obtain ⟨context, alive⟩ := sound.exists_alive inside
  unfold callTemplate
  cases run : context.hasExecuted (implicitCallMark ++ name) with
  | true =>
    rw [Run.bind_apply_of_done (Run.mark_apply_of_executed alive run),
      Run.bind_apply_of_done (Run.mark_apply_of_executed alive run)]
    exact .done _ ⟨rfl, sound⟩
  | false =>
    rw [Run.bind_apply_of_done (Run.mark_apply alive run),
      Run.bind_apply_of_done (Run.mark_apply alive run)]
    have marked := sound.setContext_of_le alive (context.mark_graph _) (context.mark_parent _)
      (context.unmarked_mark_le (implicitCallMark ++ name))
    refine Run.agrees_bind (steady_basis.traces _) (fun _ => ?_) _ _ ⟨rfl, marked⟩
    refine Run.agrees_bind
      (ends.activate met (fun other same => ?_) (grants.call allowed)) fun output => ?_
    · exact Option.some.inj same ▸ inside
    · exact Run.agrees_bind (preserve_publish inside _ _ _) fun _ => Run.preserve_pure _

/-- Calling the template that a path refers to ends. -/
theorem preserve_resolveByTemplate (ends : Ends root maxDepth lenient allows inner inner')
    (grants : Grants root maxDepth outer allows) (inside : id < budget.length)
    (allowed : outer budget (.resolve id path)) :
    Run.Preserve lenient (Steady root maxDepth budget) (Steady root maxDepth budget)
      (resolveByTemplate settings inner id path) (resolveByTemplate settings inner' id path) := by
  have basis : Basis lenient (Steady root maxDepth budget) (Steady root maxDepth budget)
      (.inside root) settings settings := steady_basis
  refine Run.agrees_bind (agrees_template? basis trivial) fun found => ?_
  cases found with
  | none => exact Run.agrees_pure _ fun _ _ related => related.1
  | some graph =>
    rintro first _ ⟨⟨rfl, sound⟩, met⟩
    have calls : Run.Preserve lenient (Steady root maxDepth budget) (Steady root maxDepth budget)
        (callTemplate settings inner id (Path.head path) graph)
        (callTemplate settings inner' id (Path.head path) graph) := by
      rintro state _ ⟨rfl, kept⟩
      exact agrees_callTemplate ends grants inside allowed kept (met graph rfl)
    refine Run.agrees_bind calls (fun called => ?_) first first ⟨rfl, sound⟩
    cases called with
    | true => exact preserve_lookup inside path
    | false => exact Run.preserve_pure _

/-- Resolving a path in the context of the caller ends. -/
theorem preserve_resolveByCaller (ends : Ends root maxDepth lenient allows inner inner')
    (grants : Grants root maxDepth outer allows) (inside : id < budget.length)
    (allowed : outer budget (.resolve id path)) :
    Run.Preserve lenient (Steady root maxDepth budget) (Steady root maxDepth budget)
      (resolveByCaller inner id path) (resolveByCaller inner' id path) := by
  refine Run.agrees_bind (agrees_context inside) fun context => ?_
  cases shortened : insideInputs? path with
  | none => exact Run.agrees_pure _ fun _ _ related => related.1
  | some rest =>
    cases calls : context.parent with
    | none => exact Run.agrees_pure _ fun _ _ related => related.1
    | some caller =>
      rintro first _ ⟨⟨rfl, sound⟩, alive⟩
      have below : caller < id := sound.within.callers alive calls
      exact ends.resolve (Nat.lt_trans below inside)
        (grants.shorten allowed (length_lt_of_insideInputs? shortened)) first first ⟨rfl, sound⟩

/-- Looking for a path, whatever has to be run for it, ends. -/
theorem preserve_tryResolve (ends : Ends root maxDepth lenient allows inner inner')
    (grants : Grants root maxDepth outer allows) (inside : id < budget.length)
    (allowed : outer budget (.resolve id path)) :
    Run.Preserve lenient (Steady root maxDepth budget) (Steady root maxDepth budget)
      (tryResolve settings inner id path) (tryResolve settings inner' id path) :=
  Run.preserve_orElse (preserve_lookup inside path) <|
    Run.preserve_orElse (preserve_resolveByStep ends grants inside allowed) <|
      Run.preserve_orElse (preserve_resolveByTemplate ends grants inside allowed) <|
        preserve_resolveByCaller ends grants inside allowed

end Resolving

/-- Running a step ends. -/
theorem agrees_dispatch (ends : Ends root maxDepth lenient allows inner inner')
    (grants : Grants root maxDepth outer allows) {state : State σ} {id : ContextId}
    {context : Context} {step : Step} (sound : state.Sound root maxDepth budget)
    (alive : state.contexts[id]? = some context) (member : step ∈ context.graph)
    (allowed : outer budget (.perform id step)) :
    Outcome.Agrees lenient (Steady root maxDepth budget) (fun _ => Steady root maxDepth budget)
      (dispatch settings inner id step state) (dispatch settings inner' id step state) := by
  have inside : id < budget.length := sound.length ▸ (List.getElem?_eq_some_iff.mp alive).choose
  have inside_root := sound.within.graphs alive
  rw [dispatch_eq, dispatch_eq]
  have evaluates : Run.Agrees lenient (Steady root maxDepth budget) (Steady root maxDepth budget)
      (fun effect first second => Steady root maxDepth budget first second ∧
        effect.Fits root.Includes step)
      (evaluate settings inner id step) (evaluate settings inner' id step) := by
    refine agrees_evaluate steady_basis (fun header invocation steps same => ?_)
      (fun _ _ _ _ => trivial)
      (fun path path_mem => ends.resolve inside
        (grants.look allowed inside_root member path_mem))
      fun graph given caller met source =>
        ends.activate met (fun other same => ?_) (grants.body allowed)
    · exact .body inside_root (same ▸ member)
    · rcases source with rfl | ⟨rfl, -⟩
      · cases same
      · exact Option.some.inj same ▸ inside
  refine Run.agrees_bind evaluates (fun effect => ?_) state state ⟨rfl, sound⟩
  rintro first second ⟨related, fits⟩
  exact preserve_commit steady_basis fits (fun value => preserve_publish inside _ value _)
    (fun graph known => preserve_define step.name known) first second related

/-- Running the steps of the graph of the latest context ends. -/
theorem preserve_executeAll (ends : Ends root maxDepth lenient allows inner inner')
    {graph : Graph} {steps : List Step} (members : ∀ step ∈ steps, step ∈ graph)
    (granted : ∀ {less step}, less < graph.length →
      allows (budget ++ [(graph, less)]) (.perform budget.length step)) :
    Run.Preserve lenient (Steady root maxDepth (budget ++ [(graph, graph.length)]))
      (Steady root maxDepth (budget ++ [(graph, graph.length)]))
      (executeAll inner budget.length steps) (executeAll inner' budget.length steps) := by
  refine Run.preserve_forEach fun step member => ?_
  rintro inside _ ⟨rfl, kept⟩
  have last : budget.length < (budget ++ [(graph, graph.length)]).length := by simp
  obtain ⟨context, alive⟩ := kept.exists_alive last
  obtain ⟨left, held, -⟩ := kept.exists_share alive
  rw [List.getElem?_concat_length] at held
  obtain rfl : graph = context.graph := congrArg Prod.fst (Option.some.inj held)
  refine agrees_execute ends kept alive (members step member) fun {left less} share lower => ?_
  rw [List.getElem?_concat_length] at share
  obtain rfl : context.graph.length = left := congrArg Prod.snd (Option.some.inj share)
  rw [List.set_append_right _ _ (Nat.le_refl _), Nat.sub_self, List.set_cons_zero]
  exact granted lower

/-- Activating a graph ends. -/
theorem preserve_nested (ends : Ends root settings.config.maxDepth lenient allows inner inner')
    (grants : Grants root settings.config.maxDepth outer allows) {name : String}
    {graph : Graph} {inputs : Option Value} {caller : Option ContextId}
    (met : root.Includes graph) (below : ∀ id, caller = some id → id < budget.length)
    (allowed : outer budget (.activate name graph inputs caller)) :
    Run.Preserve lenient (Steady root settings.config.maxDepth budget)
      (Steady root settings.config.maxDepth budget)
      (nested settings inner name graph inputs caller)
      (nested settings inner' name graph inputs caller) := by
  rintro state _ ⟨rfl, sound⟩
  rw [nested_apply, nested_apply]
  split
  · exact .failed _ ⟨rfl, sound⟩
  · rename_i deep
    rw [sound.depth, Nat.not_le] at deep
    have callers (id : ContextId) (same : caller = some id) : id < state.contexts.length :=
      sound.length ▸ below id same
    have entered := sound.enter deep met inputs callers
    rw [← sound.length] at deep
    have agree := preserve_executeAll ends
      (fun step (member : step ∈ Graph.hoisted graph) => Graph.mem_hoisted.mp member)
      (fun lower => grants.enter allowed met deep lower) _ _ ⟨rfl, entered⟩
    rw [Run.inside_apply, Run.inside_apply, ← sound.length]
    generalize executeAll inner _ _ _ = outcome at agree ⊢
    generalize executeAll inner' _ _ _ = other at agree ⊢
    cases agree with
    | done value related =>
      obtain ⟨rfl, kept⟩ := related
      exact .done _ ⟨rfl, kept.leave⟩
    | failed failure related =>
      obtain ⟨rfl, kept⟩ := related
      exact .failed _ ⟨rfl, kept.leave⟩
    | stuck reason _ passes => exact .stuck reason _ passes

/-- Operations end when those inside do with what they are granted. -/
theorem Ends.around (ends : Ends root settings.config.maxDepth lenient allows inner inner')
    (grants : Grants root settings.config.maxDepth outer allows) :
    Ends root settings.config.maxDepth lenient outer (around settings inner)
      (around settings inner') where
  resolve := preserve_tryResolve ends grants
  perform := agrees_dispatch ends grants
  activate := preserve_nested ends grants

end Ending

end Interpreter

section Levels

variable {root : Graph} {maxDepth : Nat}

/-- What a unit of worth pays for: running a step, and a walk from caller to caller along a path. -/
def unit (root : Graph) : Nat := Step.longestPathOfAll root + 3

/-- What a call costs beside what its budget is worth. -/
def Call.cost (root : Graph) : Call → Nat
  | .resolve _ path => path.length + 2
  | .perform _ _ => unit root
  | .activate _ _ _ _ => 1

/-- The calls that a level is enough for. -/
def Affordable (root : Graph) (maxDepth level : Nat) : Allowance := fun budget call =>
  worth root maxDepth budget * unit root + call.cost root ≤ level

/-- Level zero is enough for no call. -/
theorem not_affordable_zero {budget : Budget} {call : Call} :
    ¬Affordable root maxDepth 0 budget call := by
  cases call <;> simp [Affordable, Call.cost, unit]

/-- What a level is enough for it is enough for with a lower budget. -/
theorem Affordable.mono {less budget : Budget} {level : Nat} {call : Call}
    (paid : Affordable root maxDepth level budget call) (lower : less.AtMost budget) :
    Affordable root maxDepth level less call := by
  have cheaper : worth root maxDepth less ≤ worth root maxDepth budget := by
    unfold worth
    rw [lower.length]
    exact Nat.add_le_add_left lower.total_le _
  exact Nat.le_trans (Nat.add_le_add_right (Nat.mul_le_mul_right _ cheaper) _) paid

/-- A step that has been marked is paid for. -/
theorem affordable_perform {budget less : Budget} {level : Nat}
    (cheaper : worth root maxDepth less < worth root maxDepth budget)
    (paid : worth root maxDepth budget * unit root ≤ level) (id : ContextId) (step : Step) :
    Affordable root maxDepth level less (.perform id step) := by
  have pays := Nat.mul_le_mul_right (unit root) (Nat.succ_le_of_lt cheaper)
  rw [Nat.succ_mul] at pays
  exact Nat.le_trans pays paid

/-- What a level is enough for is granted by the level below. -/
theorem grants_affordable (below : Nat) :
    Grants root maxDepth (Affordable root maxDepth (below + 1))
      (Affordable root maxDepth below) where
  mark := by
    intro budget id path graph left less step paid held lower
    simp only [Affordable, Call.cost] at paid
    exact affordable_perform (worth_set_lt root maxDepth held lower) (by omega) id step
  call := by
    intro budget id path name graph inputs caller paid
    simp only [Affordable, Call.cost] at paid ⊢
    omega
  shorten := by
    intro budget id path caller rest paid shorter
    simp only [Affordable, Call.cost] at paid ⊢
    omega
  look := by
    intro budget id step graph path paid inside member path_mem
    have short := Step.length_le_of_includes inside member path_mem
    simp only [Affordable, Call.cost, unit] at paid ⊢
    omega
  body := by
    intro budget id step name graph inputs caller paid
    simp only [Affordable, Call.cost, unit] at paid ⊢
    omega
  enter := by
    intro budget name graph inputs caller less step paid inside shallow lower
    simp only [Affordable, Call.cost] at paid
    have cheaper := worth_enter_lt shallow inside
    have lowered : worth root maxDepth (budget ++ [(graph, less)]) ≤
        worth root maxDepth (budget ++ [(graph, graph.length)]) := by
      simp only [worth, List.length_append, List.length_singleton, Budget.total_concat]
      omega
    exact affordable_perform (Nat.lt_of_le_of_lt lowered cheaper) (by omega) budget.length step

namespace Interpreter

/-- At a level everything ends that the level is enough for, and comes to the same at all levels
from there on. -/
theorem ends_level (settings : Settings σ) (root : Graph) (n m : Nat) (enough : n ≤ m) :
    Ends root settings.config.maxDepth False (Affordable root settings.config.maxDepth n)
      (level settings n) (level settings m) := by
  induction n generalizing m with
  | zero =>
    exact ⟨fun _ paid => (not_affordable_zero paid).elim,
      fun _ _ _ paid => (not_affordable_zero paid).elim,
      fun _ _ paid => (not_affordable_zero paid).elim⟩
  | succ below ih =>
    obtain ⟨m, rfl⟩ : ∃ above, m = above + 1 := ⟨m - 1, by omega⟩
    rw [level_succ, level_succ]
    exact (ih m (by omega)).around (grants_affordable below)

/-- What ends at a level, whatever the level is enough for, keeps to its budget, and comes to the
same at all levels from there on. -/
theorem keeps_level (settings : Settings σ) (root : Graph) (n m : Nat) (enough : n ≤ m) :
    Ends root settings.config.maxDepth True (fun _ _ => True) (level settings n)
      (level settings m) := by
  induction n generalizing m with
  | zero =>
    exact ⟨fun _ _ _ _ _ => .stuck _ _ trivial, fun _ _ _ _ => .stuck _ _ trivial,
      fun _ _ _ _ _ _ => .stuck _ _ trivial⟩
  | succ below ih =>
    obtain ⟨m, rfl⟩ : ∃ above, m = above + 1 := ⟨m - 1, by omega⟩
    have grants : Grants root settings.config.maxDepth (fun _ _ => True) fun _ _ => True :=
      ⟨fun _ _ _ => trivial, fun _ => trivial, fun _ _ => trivial, fun _ _ _ _ => trivial,
        fun _ => trivial, fun _ _ _ _ => trivial⟩
    rw [level_succ, level_succ]
    exact (ih m (by omega)).around grants

end Interpreter

/-- The level for runs of a graph is enough for every activation in a state that they can be in. -/
theorem affordable_activate {budget : Budget} {state : State σ}
    (sound : state.Sound root maxDepth budget) {level : Nat}
    (enough : sufficientLevel root maxDepth ≤ level) (name : String) (graph : Graph)
    (inputs : Option Value) (caller : Option ContextId) :
    Affordable root maxDepth level state.shares (.activate name graph inputs caller) := by
  refine Nat.le_trans ?_ enough
  have pays := Nat.mul_le_mul_right (unit root) sound.worth_le
  simp only [worth, List.length_nil, Nat.sub_zero, Budget.total, Nat.add_zero] at pays
  simp only [Call.cost, sufficientLevel]
  exact Nat.succ_le_succ pays

end Levels

/-- A state in which a run begins is sound. -/
theorem State.sound_reset (root : Graph) (maxDepth : Nat) (state : State σ) :
    state.reset.Sound root maxDepth [] :=
  ⟨state.within_reset root, rfl, Nat.zero_le _, rfl, nofun⟩

/-- An activation that a run of a graph can come to ends, comes to the same at all levels that are
enough for the run, and keeps to the budget of what was left when it began. -/
theorem State.Sound.agrees_activate {root : Graph} {settings : Settings σ} {budget : Budget}
    {state : State σ} (sound : state.Sound root settings.config.maxDepth budget) {n m : Nat}
    (sufficient : sufficientLevel root settings.config.maxDepth ≤ n) (enough : n ≤ m)
    {graph : Graph} (inside : root.Includes graph) {caller : Option ContextId}
    (below : ∀ id, caller = some id → id < state.contexts.length) (name : String)
    (inputs : Option Value) :
    Outcome.Agrees False (Steady root settings.config.maxDepth state.shares)
      (fun _ => Steady root settings.config.maxDepth state.shares)
      ((Interpreter.level settings n).activate name graph inputs caller state)
      ((Interpreter.level settings m).activate name graph inputs caller state) :=
  (Interpreter.ends_level settings root n m enough).activate inside
    (fun id same => state.shares_length ▸ below id same)
    (affordable_activate sound sufficient name graph inputs caller) state state ⟨rfl, sound.exact⟩

/-- Every run of a graph ends, and leaves no context behind. -/
theorem Run.graph_ends (settings : Settings σ) (graph : Graph) (inputs : Value)
    (state : State σ) :
    Outcome.Agrees False (Steady graph settings.config.maxDepth [])
      (fun _ => Steady graph settings.config.maxDepth []) (Run.graph settings graph inputs state)
      (Run.graph settings graph inputs state) := by
  have callers : ∀ id : ContextId, none = some id → id < state.reset.contexts.length := nofun
  exact (state.sound_reset graph settings.config.maxDepth).agrees_activate (Nat.le_refl _)
    (Nat.le_refl _) .self callers rootName (some inputs)

/-- A run of a graph is the activation of the graph at every level that is enough. -/
theorem Run.activate_eq_graph (settings : Settings σ) (graph : Graph) (inputs : Value)
    (state : State σ) (more : Nat) :
    (Interpreter.level settings
      (sufficientLevel graph settings.config.maxDepth + more)).activate rootName graph
        (some inputs) none state.reset = Run.graph settings graph inputs state := by
  have callers : ∀ id : ContextId, none = some id → id < state.reset.contexts.length := nofun
  have agree := (state.sound_reset graph settings.config.maxDepth).agrees_activate
    (Nat.le_refl _) (Nat.le_add_right _ more) .self callers rootName (some inputs)
  exact (Outcome.eq_of_agrees_steady agree).1.symm

/-- Two runs of graphs, each of which has a sufficient level of its own, are activations at all
levels from a common one on. -/
theorem Run.exists_level {τ : Type} (left : Settings σ) (right : Settings τ) (graph graph' : Graph)
    (inputs inputs' : Value) (state : State σ) (state' : State τ) :
    ∃ n, ∀ m, n ≤ m →
      (Interpreter.level left m).activate rootName graph (some inputs) none state.reset =
          Run.graph left graph inputs state ∧
        (Interpreter.level right m).activate rootName graph' (some inputs') none state'.reset =
          Run.graph right graph' inputs' state' := by
  let enough := sufficientLevel graph left.config.maxDepth
  let enough' := sufficientLevel graph' right.config.maxDepth
  refine ⟨max enough enough', fun m reached => ?_⟩
  obtain ⟨more, one⟩ := Nat.exists_eq_add_of_le (Nat.le_trans (Nat.le_max_left _ _) reached)
  obtain ⟨more', two⟩ := Nat.exists_eq_add_of_le (Nat.le_trans (Nat.le_max_right _ _) reached)
  constructor
  · rw [one]
    exact Run.activate_eq_graph left graph inputs state more
  · rw [two]
    exact Run.activate_eq_graph right graph' inputs' state' more'

/-- Every run of a graph has an end. -/
theorem Run.graph_hasEnd (settings : Settings σ) (graph : Graph) (inputs : Value)
    (state : State σ) : (Run.graph settings graph inputs state).HasEnd :=
  (Outcome.eq_of_agrees_steady (Run.graph_ends settings graph inputs state)).2

/-- No run of a graph is stuck. -/
theorem Run.graph_ne_stuck (settings : Settings σ) (graph : Graph) (inputs : Value)
    (state : State σ) (reason : Stuck) :
    Run.graph settings graph inputs state ≠ .stuck reason := by
  intro stuck
  have ends := Run.graph_hasEnd settings graph inputs state
  rw [stuck] at ends
  exact ends

end StepGraph
