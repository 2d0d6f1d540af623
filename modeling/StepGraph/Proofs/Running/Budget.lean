import StepGraph.Proofs.Running.Within

/-!
# Budgets

What a run of a graph may still do is bounded by a budget, which gives each context that is alive
the number of its steps that may still be marked. A budget is worth the steps in it and a whole
graph for each activation that may still be nested; marking a step lowers its worth, and so does an
activation. A state is sound when it keeps to a budget and its depth counts its contexts.
-/
namespace StepGraph

variable {σ : Type}

/-- How many steps of its graph have not been run in a context. -/
def Context.unmarked (context : Context) : Nat :=
  context.graph.countP fun step => !context.hasExecuted step.name

namespace Context

/-- Marking leaves no more to run. -/
theorem unmarked_mark_le (context : Context) (name : String) :
    (context.mark name).unmarked ≤ context.unmarked := by
  unfold unmarked
  rw [mark_graph]
  refine List.countP_mono_left fun step _ unmarked => ?_
  rw [hasExecuted_mark] at unmarked
  simp only [Bool.not_or, Bool.and_eq_true] at unmarked
  exact unmarked.1

/-- Marking a step that has not been run leaves less to run. -/
theorem unmarked_mark_lt {context : Context} {step : Step} (member : step ∈ context.graph)
    (fresh : context.hasExecuted step.name = false) :
    (context.mark step.name).unmarked < context.unmarked := by
  have counted : 0 < (context.graph.filter fun other => other.name == step.name).countP
      fun other => !context.hasExecuted other.name :=
    List.countP_pos_iff.mpr
      ⟨step, List.mem_filter.mpr ⟨member, beq_self_eq_true _⟩, by simp [fresh]⟩
  have left : (context.mark step.name).unmarked = (context.graph.filter fun other =>
      !(other.name == step.name)).countP fun other => !context.hasExecuted other.name := by
    unfold unmarked
    rw [List.countP_filter, mark_graph]
    simp only [hasExecuted_mark, Bool.not_or]
  have parts := List.countP_eq_countP_filter_add context.graph
    (fun other => !context.hasExecuted other.name) fun other => other.name == step.name
  unfold unmarked at left ⊢
  omega

/-- A context has at most its whole graph to run. -/
theorem unmarked_le_length (context : Context) : context.unmarked ≤ context.graph.length :=
  List.countP_le_length

end Context

/-- For each context that is alive, its graph and how many steps may still be marked in it. -/
abbrev Budget := List (Graph × Nat)

namespace Budget

/-- A budget with the graphs of another that has no larger share than that. -/
structure AtMost (less budget : Budget) : Prop where
  /-- The graphs are the same. -/
  shape : less.map Prod.fst = budget.map Prod.fst
  /-- No share is larger. -/
  share : ∀ {id : Nat} {small large : Graph × Nat}, less[id]? = some small →
    budget[id]? = some large → small.2 ≤ large.2

/-- The steps that may still be marked in all of the contexts. -/
def total : Budget → Nat
  | [] => 0
  | (_, left) :: rest => left + total rest

/-- Changing a share changes the total by as much. -/
theorem total_set_add {budget : Budget} {id : Nat} {graph : Graph} {left : Nat}
    (held : budget[id]? = some (graph, left)) (less : Nat) :
    total (budget.set id (graph, less)) + left = total budget + less := by
  induction budget generalizing id with
  | nil => cases held
  | cons first rest ih =>
    cases id with
    | zero =>
      obtain rfl : first = (graph, left) := Option.some.inj held
      simp only [List.set_cons_zero, total]
      omega
    | succ id =>
      have tail := ih (show rest[id]? = some (graph, left) from held)
      simp only [List.set_cons_succ, total]
      omega

/-- A new context adds its share to the total. -/
theorem total_concat (budget : Budget) (graph : Graph) (left : Nat) :
    total (budget ++ [(graph, left)]) = total budget + left := by
  induction budget with
  | nil => simp only [List.nil_append, total, Nat.add_comm]
  | cons first rest ih => simp only [List.cons_append, total, ih, Nat.add_assoc]

/-- A lower budget has as many shares. -/
theorem AtMost.length {less budget : Budget} (lower : less.AtMost budget) :
    less.length = budget.length := by
  have lengths := congrArg List.length lower.shape
  rwa [List.length_map, List.length_map] at lengths

/-- A lower budget has no larger total. -/
theorem AtMost.total_le {less budget : Budget} (lower : less.AtMost budget) :
    total less ≤ total budget := by
  induction less generalizing budget with
  | nil => exact Nat.zero_le _
  | cons small rest ih =>
    cases budget with
    | nil => exact nomatch lower.length
    | cons large others =>
      have first := lower.share (show (small :: rest)[0]? = some small from rfl)
        (show (large :: others)[0]? = some large from rfl)
      have shapes := lower.shape
      rw [List.map_cons, List.map_cons] at shapes
      have tail : AtMost rest others := by
        refine ⟨(List.cons.inj shapes).2, fun {id one other} left held => ?_⟩
        exact lower.share (show (small :: rest)[id + 1]? = some one from left)
          (show (large :: others)[id + 1]? = some other from held)
      exact Nat.add_le_add first (ih tail)

/-- Lowering a share lowers the budget. -/
theorem atMost_set {budget : Budget} {id : Nat} {graph : Graph} {left less : Nat}
    (held : budget[id]? = some (graph, left)) (lower : less ≤ left) :
    AtMost (budget.set id (graph, less)) budget where
  shape := by
    have there : (budget.map Prod.fst)[id]? = some graph := by
      rw [List.getElem?_map, held, Option.map_some]
    rw [List.map_set, set_eq_self there]
  share := by
    intro other small large small_held large_held
    by_cases same : id = other
    · subst same
      obtain rfl : (graph, left) = large := Option.some.inj (held.symm.trans large_held)
      rw [List.getElem?_set_self (List.getElem?_eq_some_iff.mp held).choose] at small_held
      exact Option.some.inj small_held ▸ lower
    · rw [List.getElem?_set_ne same, large_held] at small_held
      exact Option.some.inj small_held ▸ Nat.le_refl _

end Budget

/-- What the contexts that are alive have left. -/
def State.shares (state : State σ) : Budget :=
  state.contexts.map fun context => (context.graph, context.unmarked)

/-- Each context that is alive has a share. -/
@[simp] theorem State.shares_length (state : State σ) :
    state.shares.length = state.contexts.length :=
  List.length_map _

/-- A state that a run of a graph can be in, with as many steps left as a budget allows. -/
structure State.Sound (root : Graph) (maxDepth : Nat) (budget : Budget) (state : State σ) :
    Prop where
  /-- The run stays within the graph. -/
  within : state.Within root
  /-- The depth counts the contexts that are alive. -/
  depth : state.depth = state.contexts.length
  /-- Activations nest as deeply as allowed. -/
  nested : state.contexts.length ≤ maxDepth
  /-- The budget has the graphs of the contexts that are alive. -/
  shape : state.contexts.map Context.graph = budget.map Prod.fst
  /-- No context has more steps left than its share. -/
  unmarked : ∀ {id : ContextId} {context share}, state.contexts[id]? = some context →
    budget[id]? = some share → context.unmarked ≤ share.2

namespace State.Sound

variable {root : Graph} {maxDepth : Nat} {budget : Budget} {state state' : State σ}

/-- There are as many shares as contexts. -/
theorem length (sound : state.Sound root maxDepth budget) :
    budget.length = state.contexts.length := by
  have lengths := congrArg List.length sound.shape
  rw [List.length_map, List.length_map] at lengths
  exact lengths.symm

/-- Every share belongs to a context that is alive. -/
theorem exists_alive (sound : state.Sound root maxDepth budget) {id : Nat}
    (inside : id < budget.length) : ∃ context, state.contexts[id]? = some context :=
  ⟨_, List.getElem?_eq_getElem (sound.length ▸ inside)⟩

/-- Every context that is alive has a share. -/
theorem exists_share (sound : state.Sound root maxDepth budget) {id : ContextId}
    {context : Context} (alive : state.contexts[id]? = some context) :
    ∃ left, budget[id]? = some (context.graph, left) ∧ context.unmarked ≤ left := by
  have graphs := congrArg (fun held => held[id]?) sound.shape
  simp only [List.getElem?_map, alive, Option.map_some] at graphs
  obtain ⟨⟨graph, left⟩, held, same⟩ := Option.map_eq_some_iff.mp graphs.symm
  dsimp only at same
  subst same
  exact ⟨left, held, sound.unmarked alive held⟩

/-- The log and the state of the functions do not matter. -/
theorem of_unmoved (sound : state.Sound root maxDepth budget) (unmoved : state.Unmoved state') :
    state'.Sound root maxDepth budget where
  within := sound.within.of_unmoved unmoved
  depth := by rw [unmoved.depth, unmoved.contexts, sound.depth]
  nested := unmoved.contexts ▸ sound.nested
  shape := unmoved.contexts ▸ sound.shape
  unmarked := by
    rw [unmoved.contexts]
    exact sound.unmarked

/-- A context may be changed as long as it keeps its graph and its caller and has a share for what
it has left. -/
theorem setContext (sound : state.Sound root maxDepth budget) {id : ContextId}
    {old new : Context} (alive : state.contexts[id]? = some old) (graph : new.graph = old.graph)
    (parent : new.parent = old.parent) {left : Nat} (bound : new.unmarked ≤ left) :
    (state.setContext id new).Sound root maxDepth (budget.set id (old.graph, left)) where
  within := sound.within.setContext alive graph parent
  depth := by
    rw [setContext_depth, setContext_contexts, List.length_set, sound.depth]
  nested := by
    rw [setContext_contexts, List.length_set]
    exact sound.nested
  shape := by
    rw [setContext_contexts, List.map_set, List.map_set, sound.shape, graph]
  unmarked := by
    intro other context share there held
    rcases eq_or_of_getElem?_setContext there with ⟨rfl, rfl⟩ | ⟨different, old_there⟩
    · have inside : other < budget.length :=
        sound.length ▸ (List.getElem?_eq_some_iff.mp alive).choose
      rw [List.getElem?_set_self inside] at held
      exact Option.some.inj held ▸ bound
    · rw [List.getElem?_set_ne (Ne.symm different)] at held
      exact sound.unmarked old_there held

/-- A context may be changed as long as it keeps its graph and its caller and has no more left. -/
theorem setContext_of_le (sound : state.Sound root maxDepth budget) {id : ContextId}
    {old new : Context} (alive : state.contexts[id]? = some old) (graph : new.graph = old.graph)
    (parent : new.parent = old.parent) (fewer : new.unmarked ≤ old.unmarked) :
    (state.setContext id new).Sound root maxDepth budget := by
  obtain ⟨left, held, bound⟩ := sound.exists_share alive
  have changed := sound.setContext alive graph parent (Nat.le_trans fewer bound)
  rwa [set_eq_self held] at changed

/-- Publishing is sound. -/
theorem publish (sound : state.Sound root maxDepth budget) {id : ContextId} {context : Context}
    (alive : state.contexts[id]? = some context) (key : String) (value : Value) (hidden : Bool) :
    (state.setContext id (context.publish key value hidden)).Sound root maxDepth budget :=
  sound.setContext_of_le alive rfl rfl (Nat.le_refl _)

/-- Defining a graph inside the whole as a template is sound. -/
theorem define (sound : state.Sound root maxDepth budget) (name : String) {graph : Graph}
    (inside : root.Includes graph) : (state.define name graph).Sound root maxDepth budget :=
  ⟨sound.within.define name inside, sound.depth, sound.nested, sound.shape, sound.unmarked⟩

/-- Entering an activation is sound, with a share for its whole graph. -/
theorem enter (sound : state.Sound root maxDepth budget)
    (shallow : state.contexts.length < maxDepth) {graph : Graph} (inside : root.Includes graph)
    (inputs : Option Value) {caller : Option ContextId}
    (below : ∀ id, caller = some id → id < state.contexts.length) :
    (state.enter (Context.start graph inputs caller)).Sound root maxDepth
      (budget ++ [(graph, graph.length)]) where
  within := sound.within.enter inside inputs below
  depth := by
    rw [enter_depth, enter_contexts, List.length_append, List.length_singleton, sound.depth]
  nested := by
    rw [enter_contexts, List.length_append, List.length_singleton]
    exact shallow
  shape := by
    rw [enter_contexts, List.map_append, List.map_append, sound.shape]
    rfl
  unmarked := by
    intro id context share there held
    rcases eq_or_of_getElem?_enter there with ⟨old, old_there⟩ | ⟨rfl, rfl⟩
    · rw [List.getElem?_append_left (sound.length ▸ old)] at held
      exact sound.unmarked old_there held
    · rw [← sound.length, List.getElem?_concat_length] at held
      exact Option.some.inj held ▸ Context.unmarked_le_length _

/-- Leaving an activation is sound. -/
theorem leave {share : Graph × Nat} (sound : state.Sound root maxDepth (budget ++ [share])) :
    state.leave.Sound root maxDepth budget := by
  refine ⟨sound.within.leave, ?_, ?_, ?_, ?_⟩
  · rw [leave_depth, leave_contexts, List.length_dropLast, sound.depth]
  · rw [leave_contexts, List.length_dropLast]
    exact Nat.le_trans (Nat.sub_le _ _) sound.nested
  · rw [leave_contexts, List.map_dropLast, sound.shape, List.map_append, List.map_singleton,
      List.dropLast_concat]
  · intro id context share there held
    have kept := (List.getElem?_eq_some_iff.mp held).choose
    exact sound.unmarked (of_getElem?_leave there).2
      ((List.getElem?_append_left kept).trans held)

/-- A budget may be raised. -/
theorem relax {less : Budget} (sound : state.Sound root maxDepth less)
    (lower : less.AtMost budget) : state.Sound root maxDepth budget where
  within := sound.within
  depth := sound.depth
  nested := sound.nested
  shape := sound.shape.trans lower.shape
  unmarked := by
    intro id context share there held
    obtain ⟨left, small, bound⟩ := sound.exists_share there
    exact Nat.le_trans bound (lower.share small held)

/-- A sound state keeps to the budget of what it has left. -/
theorem exact (sound : state.Sound root maxDepth budget) :
    state.Sound root maxDepth state.shares where
  within := sound.within
  depth := sound.depth
  nested := sound.nested
  shape := by simp [shares]
  unmarked := by
    intro id context share there held
    rw [shares, List.getElem?_map, there, Option.map_some] at held
    exact Option.some.inj held ▸ Nat.le_refl _

/-- What a sound state has left is within its budget. -/
theorem shares_atMost (sound : state.Sound root maxDepth budget) :
    state.shares.AtMost budget where
  shape := by
    rw [← sound.shape, shares, List.map_map]
    rfl
  share := by
    intro id small large left held
    rw [shares, List.getElem?_map] at left
    obtain ⟨context, there, rfl⟩ := Option.map_eq_some_iff.mp left
    exact sound.unmarked there held

end State.Sound

/-- What a budget is worth: each activation that may still be nested more than a whole graph, and
each step that may still be marked one. -/
def worth (root : Graph) (maxDepth : Nat) (budget : Budget) : Nat :=
  (maxDepth - budget.length) * (Step.sizeOfAll root + 1) + budget.total

/-- Lowering a share lowers the worth. -/
theorem worth_set_lt (root : Graph) (maxDepth : Nat) {budget : Budget} {id : Nat} {graph : Graph}
    {left less : Nat} (held : budget[id]? = some (graph, left)) (lower : less < left) :
    worth root maxDepth (budget.set id (graph, less)) < worth root maxDepth budget := by
  have totals := Budget.total_set_add held less
  unfold worth
  rw [List.length_set]
  omega

/-- Entering an activation lowers the worth. -/
theorem worth_enter_lt {root graph : Graph} {maxDepth : Nat} {budget : Budget}
    (shallow : budget.length < maxDepth) (inside : root.Includes graph) :
    worth root maxDepth (budget ++ [(graph, graph.length)]) < worth root maxDepth budget := by
  have counted := Nat.le_trans (Step.length_le_sizeOfAll graph)
    (Step.sizeOfAll_le_of_includes inside)
  have deeper : maxDepth - budget.length = maxDepth - (budget.length + 1) + 1 := by omega
  unfold worth
  rw [List.length_append, List.length_singleton, Budget.total_concat, deeper, Nat.succ_mul]
  omega

/-- Contexts of graphs inside the whole have no more left than the whole for each. -/
theorem Budget.total_unmarked_le {root : Graph} {contexts : List Context}
    (inside : ∀ context ∈ contexts, root.Includes context.graph) :
    total (contexts.map fun context => (context.graph, context.unmarked)) ≤
      contexts.length * (Step.sizeOfAll root + 1) := by
  induction contexts with
  | nil => exact Nat.zero_le _
  | cons context rest ih =>
    have share := Nat.le_trans context.unmarked_le_length <|
      Nat.le_trans (Step.length_le_sizeOfAll _)
        (Step.sizeOfAll_le_of_includes (inside context List.mem_cons_self))
    have others := ih fun other member => inside other (List.mem_cons_of_mem _ member)
    simp only [List.map_cons, total, List.length_cons, Nat.succ_mul]
    omega

/-- What a sound state has left is worth no more than what a run begins with. -/
theorem State.Sound.worth_le {root : Graph} {maxDepth : Nat} {budget : Budget} {state : State σ}
    (sound : state.Sound root maxDepth budget) :
    worth root maxDepth state.shares ≤ worth root maxDepth [] := by
  have total : state.shares.total ≤ state.contexts.length * (Step.sizeOfAll root + 1) :=
    Budget.total_unmarked_le fun context member => by
      obtain ⟨id, there⟩ := List.mem_iff_getElem?.mp member
      exact sound.within.graphs there
  have whole : maxDepth * (Step.sizeOfAll root + 1) =
      (maxDepth - state.contexts.length) * (Step.sizeOfAll root + 1) +
        state.contexts.length * (Step.sizeOfAll root + 1) := by
    rw [← Nat.add_mul, Nat.sub_add_cancel sound.nested]
  unfold worth
  rw [State.shares_length, List.length_nil, Nat.sub_zero, whole]
  exact Nat.add_le_add_left total _

end StepGraph
