import StepGraph.Proofs.Running.Primitives

/-!
# States whose contexts face each other

Two states face each other when activations are nested equally deep in both and each context of one
is related to the context in its place in the other, whatever relates them. This is what two runs
that are compared step by step have in common, and it goes along with every change of a context, with
an activation that begins and with one that ends.
-/
namespace StepGraph

variable {σ τ : Type}

/-- Two states each of whose contexts is related to the one in its place in the other state, the
first of which runs some graphs. -/
structure State.Facing (faces : Context → Context → Prop) (graphs : List Graph) (first : State σ)
    (second : State τ) : Prop where
  /-- Activations are nested equally deep. -/
  depths : first.depth = second.depth
  /-- The contexts of the first state run these graphs. -/
  shape : first.contexts.map Context.graph = graphs
  /-- As many contexts are alive. -/
  lengths : second.contexts.length = first.contexts.length
  /-- Contexts in the same place are related. -/
  faces : ∀ {id : ContextId} {context context'}, first.contexts[id]? = some context →
    second.contexts[id]? = some context' → faces context context'

namespace State.Facing

variable {faces : Context → Context → Prop} {graphs : List Graph} {first first' : State σ}
  {second second' : State τ} {id : ContextId} {context context' : Context}

/-- There are as many contexts as graphs. -/
theorem length (facing : first.Facing faces graphs second) :
    first.contexts.length = graphs.length := by
  rw [← facing.shape, List.length_map]

/-- A context that is alive faces one. -/
theorem exists_alive (facing : first.Facing faces graphs second)
    (alive : first.contexts[id]? = some context) :
    ∃ context', second.contexts[id]? = some context' ∧ faces context context' := by
  have inside := (List.getElem?_eq_some_iff.mp alive).choose
  have alive' := List.getElem?_eq_getElem (facing.lengths ▸ inside)
  exact ⟨_, alive', facing.faces alive alive'⟩

/-- A context that is alive runs the graph in its place. -/
theorem graph (facing : first.Facing faces graphs second)
    (alive : first.contexts[id]? = some context) : graphs[id]? = some context.graph := by
  rw [← facing.shape, List.getElem?_map, alive, Option.map_some]

/-- The graph in the last place is run by the latest context. -/
theorem exists_latest {graph : Graph} (facing : first.Facing faces (graphs ++ [graph]) second) :
    ∃ context, first.contexts[graphs.length]? = some context ∧ context.graph = graph := by
  have there := congrArg (fun held => held[graphs.length]?) facing.shape
  simp only [List.getElem?_concat_length, List.getElem?_map] at there
  exact Option.map_eq_some_iff.mp there

/-- Only contexts and the depth matter. -/
theorem of_unmoved (facing : first.Facing faces graphs second) (one : first.Unmoved first')
    (two : second.Unmoved second') : first'.Facing faces graphs second' where
  depths := by rw [one.depth, two.depth, facing.depths]
  shape := one.contexts ▸ facing.shape
  lengths := by rw [one.contexts, two.contexts, facing.lengths]
  faces := by
    rw [one.contexts, two.contexts]
    exact facing.faces

/-- A context may be changed in both states, as long as the changed contexts run the graphs from
before and are related. -/
theorem setContext (facing : first.Facing faces graphs second)
    (alive : first.contexts[id]? = some context) {new new' : Context}
    (graph : new.graph = context.graph) (related : faces new new') :
    (first.setContext id new).Facing faces graphs (second.setContext id new') where
  depths := facing.depths
  shape := by
    have held : graphs[id]? = some new.graph := by rw [facing.graph alive, graph]
    rw [State.setContext_contexts, List.map_set, facing.shape, set_eq_self held]
  lengths := by
    rw [State.setContext_contexts, State.setContext_contexts, List.length_set, List.length_set,
      facing.lengths]
  faces := by
    intro other one two there there'
    rcases State.eq_or_of_getElem?_setContext there with ⟨rfl, rfl⟩ | ⟨different, before⟩
    · rcases State.eq_or_of_getElem?_setContext there' with ⟨-, rfl⟩ | ⟨different, -⟩
      · exact related
      · exact absurd rfl different
    · rcases State.eq_or_of_getElem?_setContext there' with ⟨same, -⟩ | ⟨-, before'⟩
      · exact absurd same different
      · exact facing.faces before before'

/-- Related contexts may be entered in both states. -/
theorem enter (facing : first.Facing faces graphs second) {new new' : Context}
    (related : faces new new') :
    (first.enter new).Facing faces (graphs ++ [new.graph]) (second.enter new') where
  depths := by rw [State.enter_depth, State.enter_depth, facing.depths]
  shape := by
    rw [State.enter_contexts, List.map_append, facing.shape]
    rfl
  lengths := by
    rw [State.enter_contexts, State.enter_contexts, List.length_append, List.length_append,
      facing.lengths]
    rfl
  faces := by
    intro id one two there there'
    have lengths := facing.lengths
    rcases State.eq_or_of_getElem?_enter there with ⟨inside, before⟩ | ⟨last, rfl⟩
    · rcases State.eq_or_of_getElem?_enter there' with ⟨-, before'⟩ | ⟨last, -⟩
      · exact facing.faces before before'
      · exact absurd (last.trans lengths) (Nat.ne_of_lt inside)
    · rcases State.eq_or_of_getElem?_enter there' with ⟨inside, -⟩ | ⟨-, rfl⟩
      · exact absurd (last.trans lengths.symm) (Nat.ne_of_lt inside)
      · exact related

/-- What the latest contexts have for their callers is the output of related contexts. -/
theorem latestOutput {graph : Graph} (facing : first.Facing faces (graphs ++ [graph]) second) :
    ∃ context context', context.graph = graph ∧ faces context context' ∧
      first.latestOutput = context.output ∧ second.latestOutput = context'.output := by
  obtain ⟨context, alive, same⟩ := facing.exists_latest
  obtain ⟨context', alive', related⟩ := facing.exists_alive alive
  have length := facing.length
  rw [List.length_append, List.length_singleton] at length
  refine ⟨context, context', same, related, ?_, ?_⟩
  · rw [State.latestOutput, List.getLast?_eq_getElem?, length, Nat.add_sub_cancel, alive]
    rfl
  · rw [State.latestOutput, List.getLast?_eq_getElem?, facing.lengths, length, Nat.add_sub_cancel,
      alive']
    rfl

/-- The latest activation may be left in both states. -/
theorem leave {graph : Graph} (facing : first.Facing faces (graphs ++ [graph]) second) :
    first.leave.Facing faces graphs second.leave where
  depths := by rw [State.leave_depth, State.leave_depth, facing.depths]
  shape := by rw [State.leave_contexts, List.map_dropLast, facing.shape, List.dropLast_concat]
  lengths := by
    rw [State.leave_contexts, State.leave_contexts, List.length_dropLast, List.length_dropLast,
      facing.lengths]
  faces := fun there there' =>
    facing.faces (State.of_getElem?_leave there).2 (State.of_getElem?_leave there').2

/-- States in which runs begin face each other. -/
theorem reset (first : State σ) (second : State τ) :
    first.reset.Facing faces [] second.reset :=
  ⟨rfl, rfl, rfl, nofun⟩

end State.Facing

end StepGraph
