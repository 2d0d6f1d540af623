import StepGraph.Proofs.Purity
import StepGraph.Proofs.Running.Lockstep

/-!
# Closed activations

An activation without a caller to read from is closed: it reaches no context that was alive before
it, so that what it comes to, the templates it leaves and the contexts that it leaves alone do not
depend on them, nor, where registered functions are pure, on the state of these, nor on whether
runs are traced. Two runs that start alike but for such contexts stay alike, and this holds at any
two levels.
-/
namespace StepGraph

variable {σ : Type}

/-- Two runs have left alone the contexts and the depth that they started with, and they have left
the same templates. -/
structure Restored (first second last last' : State σ) : Prop where
  /-- The contexts of the first run. -/
  contexts : last.contexts = first.contexts
  /-- The contexts of the second run. -/
  contexts' : last'.contexts = second.contexts
  /-- The depth of the first run. -/
  depth : last.depth = first.depth
  /-- The depth of the second run. -/
  depth' : last'.depth = second.depth
  /-- The templates of both runs. -/
  templates : last.templates = last'.templates

/-- Two states that are alike above some contexts of theirs, which no context above reads from, and
which were entered at some depth. -/
structure Aligned (below below' : List Context) (depth : Nat) (graphs : List Graph)
    (first second : State σ) : Prop where
  /-- Activations are nested equally deep. -/
  depths : first.depth = second.depth
  /-- Each context above is one activation. -/
  levels : first.depth + below.length = depth + graphs.length
  /-- The same templates are defined. -/
  templates : first.templates = second.templates
  /-- The same contexts are alive above. -/
  split : ∃ above, first.contexts = below ++ above ∧ second.contexts = below' ++ above ∧
    graphs.length = below.length + above.length ∧
    graphs.drop below.length = above.map Context.graph ∧
    ∀ context ∈ above, ∀ caller, context.parent = some caller → below.length ≤ caller

namespace Aligned

variable {below below' : List Context} {depth : Nat} {graphs : List Graph}
  {first second : State σ} {id : ContextId} {context : Context}

/-- The log and the state of the functions do not matter. -/
theorem of_unmoved (aligned : Aligned below below' depth graphs first second)
    {first' second' : State σ} (one : first.Unmoved first') (two : second.Unmoved second') :
    Aligned below below' depth graphs first' second' where
  depths := by rw [one.depth, two.depth, aligned.depths]
  levels := by
    rw [one.depth]
    exact aligned.levels
  templates := by rw [one.templates, two.templates, aligned.templates]
  split := by
    rw [one.contexts, two.contexts]
    exact aligned.split

/-- All of the contexts below are alive. -/
theorem le_length (aligned : Aligned below below' depth graphs first second) :
    below.length ≤ graphs.length := by
  obtain ⟨above, _, _, lengths, _, _⟩ := aligned.split
  omega

/-- A context above is alive in both states and reads from contexts above. -/
theorem alive (aligned : Aligned below below' depth graphs first second)
    (sizes : below.length = below'.length) (above : below.length ≤ id)
    (there : first.contexts[id]? = some context) :
    second.contexts[id]? = some context ∧
      ∀ caller, context.parent = some caller → below.length ≤ caller := by
  obtain ⟨contexts, one, two, -, -, callers⟩ := aligned.split
  rw [one, List.getElem?_append_right above] at there
  rw [two, List.getElem?_append_right (sizes ▸ above), ← sizes]
  exact ⟨there, callers context (List.mem_of_getElem? there)⟩

/-- A context above may be changed in both states alike, as long as it keeps its graph and its
caller. -/
theorem setContext (aligned : Aligned below below' depth graphs first second)
    (sizes : below.length = below'.length) (above : below.length ≤ id) {new : Context}
    (there : first.contexts[id]? = some context) (graph : new.graph = context.graph)
    (parent : new.parent = context.parent) :
    Aligned below below' depth graphs (first.setContext id new) (second.setContext id new) where
  depths := aligned.depths
  levels := aligned.levels
  templates := aligned.templates
  split := by
    obtain ⟨contexts, one, two, lengths, runs, callers⟩ := aligned.split
    rw [one, List.getElem?_append_right above] at there
    have held : (contexts.map Context.graph)[id - below.length]? = some new.graph := by
      rw [List.getElem?_map, there, Option.map_some, graph]
    refine ⟨contexts.set (id - below.length) new, ?_, ?_, ?_, ?_, ?_⟩
    · rw [State.setContext_contexts, one, List.set_append_right _ _ above]
    · rw [State.setContext_contexts, two, List.set_append_right _ _ (sizes ▸ above), sizes]
    · rw [List.length_set]
      exact lengths
    · rw [runs, List.map_set, set_eq_self held]
    · intro other member caller calls
      rcases List.mem_or_eq_of_mem_set member with old | rfl
      · exact callers other old caller calls
      · exact callers context (List.mem_of_getElem? there) caller (parent ▸ calls)

/-- Defining the same template in both states keeps them alike. -/
theorem define (aligned : Aligned below below' depth graphs first second) (name : String)
    (graph : Graph) :
    Aligned below below' depth graphs (first.define name graph) (second.define name graph) where
  depths := aligned.depths
  levels := aligned.levels
  templates := by rw [State.define_templates, State.define_templates, aligned.templates]
  split := aligned.split

/-- Entering the same activation in both states, with a caller above or none, keeps them alike. -/
theorem enter (aligned : Aligned below below' depth graphs first second) (graph : Graph)
    (inputs : Option Value) {caller : Option ContextId}
    (above : ∀ id, caller = some id → below.length ≤ id) :
    Aligned below below' depth (graphs ++ [graph]) (first.enter (Context.start graph inputs caller))
      (second.enter (Context.start graph inputs caller)) where
  depths := by rw [State.enter_depth, State.enter_depth, aligned.depths]
  levels := by
    have levels := aligned.levels
    rw [State.enter_depth, List.length_append, List.length_singleton]
    omega
  templates := aligned.templates
  split := by
    obtain ⟨contexts, one, two, lengths, runs, callers⟩ := aligned.split
    refine ⟨contexts ++ [Context.start graph inputs caller], ?_, ?_, ?_, ?_, ?_⟩
    · rw [State.enter_contexts, one, List.append_assoc]
    · rw [State.enter_contexts, two, List.append_assoc]
    · simp only [List.length_append, List.length_singleton, lengths, Nat.add_assoc]
    · rw [List.drop_append_of_le_length (by omega), runs, List.map_append]
      rfl
    · intro context member id calls
      rcases List.mem_append.mp member with old | new
      · exact callers context old id calls
      · rw [List.mem_singleton] at new
        subst new
        exact above id calls

/-- Leaving the latest activation above in both states keeps them alike. -/
theorem leave {graph : Graph} (enough : below.length ≤ graphs.length)
    (aligned : Aligned below below' depth (graphs ++ [graph]) first second) :
    first.latestOutput = second.latestOutput ∧
      Aligned below below' depth graphs first.leave second.leave := by
  obtain ⟨contexts, one, two, lengths, runs, callers⟩ := aligned.split
  rw [List.length_append, List.length_singleton] at lengths
  have filled : contexts ≠ [] := by
    rintro rfl
    rw [List.length_nil] at lengths
    omega
  refine ⟨?_, ?_, ?_, aligned.templates, contexts.dropLast, ?_, ?_, ?_, ?_, ?_⟩
  · rw [State.latestOutput, State.latestOutput, one, two, List.getLast?_append,
      List.getLast?_append, List.getLast?_eq_some_getLast filled, Option.some_or, Option.some_or]
  · rw [State.leave_depth, State.leave_depth, aligned.depths]
  · have levels := aligned.levels
    rw [List.length_append, List.length_singleton] at levels
    rw [State.leave_depth]
    omega
  · rw [State.leave_contexts, one, List.dropLast_append_of_ne_nil filled]
  · rw [State.leave_contexts, two, List.dropLast_append_of_ne_nil filled]
  · rw [List.length_dropLast]
    omega
  · rw [List.map_dropLast, ← runs, List.drop_append_of_le_length enough, List.dropLast_concat]
  · exact fun context member => callers context (List.dropLast_subset _ member)

/-- Two states that differ below are alike. -/
theorem of_below {first second : State σ} (depths : first.depth = second.depth)
    (templates : first.templates = second.templates) :
    Aligned first.contexts second.contexts first.depth (first.contexts.map Context.graph) first
      second :=
  ⟨depths, by rw [List.length_map], templates, [], (List.append_nil _).symm,
    (List.append_nil _).symm, by simp, by simp, nofun⟩

/-- States that are alike where nothing is above have been restored. -/
theorem restored {first second last last' : State σ} (depths : first.depth = second.depth)
    (aligned : Aligned first.contexts second.contexts first.depth
      (first.contexts.map Context.graph) last last') : Restored first second last last' := by
  obtain ⟨above, one, two, lengths, -, -⟩ := aligned.split
  have levels := aligned.levels
  rw [List.length_map] at lengths levels
  obtain rfl : above = [] := List.length_eq_zero_iff.mp (by omega)
  rw [List.append_nil] at one two
  have kept : last.depth = first.depth := by omega
  exact ⟨one, two, kept, by rw [← aligned.depths, kept, depths], aligned.templates⟩

end Aligned

/-- Two states that are alike above some contexts of theirs, and in which the functions of a
registry answer alike. -/
def Abreast (registry : Registry σ) (below below' : List Context) (depth : Nat) (frame : Frame)
    (first second : State σ) : Prop :=
  Aligned below below' depth frame.graphs first second ∧
    registry.AnswersAlike first.host second.host

/-- Settings that may differ in what is traced, but in nothing else. -/
structure Settings.Alike (left right : Settings σ) : Prop where
  /-- The functions are the same. -/
  registry : left.registry = right.registry
  /-- Activations nest as deeply. -/
  maxDepth : left.config.maxDepth = right.config.maxDepth

/-- Settings are like themselves. -/
theorem Settings.Alike.refl (settings : Settings σ) : settings.Alike settings := ⟨rfl, rfl⟩

namespace Interpreter

variable {settings left right : Settings σ} {below below' : List Context} {depth : Nat}

/-- Outside of contexts, runs that are alike stay alike. -/
theorem basis_aligned (same : left.Alike right) (frame : Frame) :
    Basis True (Aligned below below' depth frame.graphs)
      (Abreast left.registry below below' depth frame) .whole left right :=
  .of_unmoved same.registry (fun _ _ both => both.1) (fun both => both.2)
    (fun both one two hosts => ⟨both.1.of_unmoved one two, hosts⟩)
    (fun _ _ both _ _ => by rw [both.1.templates]) fun _ _ _ _ _ _ _ => trivial

/-- Publishing a result in a context above agrees. -/
theorem preserve_publish_aligned (sizes : below.length = below'.length) {frame : Frame}
    {id : ContextId} (above : below.length ≤ id) (key : String) (value : Value) (hidden : Bool) :
    Run.Preserve True (Aligned below below' depth frame.graphs)
      (Abreast left.registry below below' depth frame) (Run.publish left id key value hidden)
      (Run.publish right id key value hidden) := by
  intro first second both
  cases there : first.contexts[id]? with
  | none =>
    rw [Run.publish_apply_of_none _ _ _ there]
    exact .stuck _ _ trivial
  | some context =>
    have there' := (both.1.alive sizes above there).1
    rw [Run.publish_apply _ _ _ there, Run.publish_apply _ _ _ there']
    have traced := both.1.of_unmoved (first.unmoved_traced left (.executed key hidden value))
      (second.unmoved_traced right (.executed key hidden value))
    have kept : (first.traced left (.executed key hidden value)).contexts[id]? = some context := by
      rwa [State.traced_contexts]
    refine .done _ ⟨traced.setContext sizes above kept rfl rfl, ?_⟩
    rw [State.setContext_host, State.setContext_host, State.traced_host, State.traced_host]
    exact both.2

/-- Runs that are alike stay in lockstep. -/
theorem lockstep_aligned (same : left.Alike right) (sizes : below.length = below'.length)
    (depth : Nat) :
    Lockstep (Aligned below below' depth) left right .silent .silent
      (fun _ id => below.length ≤ id) .whole (Abreast left.registry below below' depth) where
  basis := basis_aligned same
  maxDepth := same.maxDepth
  shape := by
    rintro frame first second ⟨aligned, -⟩
    obtain ⟨contexts, one, two, lengths, -, -⟩ := aligned.split
    refine ⟨aligned.depths, ?_, ?_⟩
    · rw [one, List.length_append, lengths]
    · rw [two, List.length_append, lengths, sizes]
  latest := by
    rintro frame before before' first second graph ⟨begun, -⟩ ⟨aligned, -⟩
    have above := begun.le_length
    obtain ⟨contexts, one, -, -, runs, -⟩ := aligned.split
    have there := congrArg (fun held => held[frame.graphs.length - below.length]?) runs
    simp only [Frame.deeper, List.getElem?_drop, Nat.add_sub_cancel' above,
      List.getElem?_concat_length, List.getElem?_map] at there
    obtain ⟨context, alive, same⟩ := Option.map_eq_some_iff.mp there.symm
    refine ⟨above, context, ?_, same⟩
    rw [one, List.getElem?_append_right above]
    exact alive
  context := by
    rintro frame first second id context ⟨aligned, -⟩ above there
    obtain ⟨there', callers⟩ := aligned.alive sizes above there
    exact ⟨⟨context, there', .refl trivial⟩, callers⟩
  resolveBegins := fun both _ => both
  resolveEnds := fun both _ => both
  stepBegins := by
    rintro frame first second id context context' step ⟨aligned, hosts⟩ above there there' - - - -
    obtain rfl := Option.some.inj ((aligned.alive sizes above there).1.symm.trans there')
    exact ⟨aligned.setContext sizes above there (Context.mark_graph _ _) (Context.mark_parent _ _),
      hosts⟩
  stepEnds := fun above _ fits => preserve_commit (basis_aligned same _) fits
    (fun value => preserve_publish_aligned sizes above _ value _) fun graph _ _ _ both =>
      .done _ ⟨both.1.define _ graph, both.2⟩
  callBegins := by
    rintro frame first second id context context' name graph ⟨aligned, hosts⟩ above there there' -
      - -
    obtain rfl := Option.some.inj ((aligned.alive sizes above there).1.symm.trans there')
    exact ⟨aligned.setContext sizes above there (Context.mark_graph _ _) (Context.mark_parent _ _),
      hosts⟩
  callEnds := fun above => preserve_publish_aligned sizes above _ _ _
  activateBegins := fun _ _ both _ _ => both
  enters := fun _ inputs _ above both _ => ⟨both.1.enter _ inputs above, both.2⟩
  leaves := by
    rintro frame before before' first second graph name inputs caller - ⟨begun, -⟩ ⟨aligned, hosts⟩
    obtain ⟨outputs, left'⟩ := aligned.leave begun.le_length
    exact ⟨outputs, left', hosts⟩
  abandons := by
    rintro frame before before' first second graph ⟨begun, -⟩ aligned
    exact (aligned.leave begun.le_length).2

/-- Operations at a level agree with those at any level from there on, in states that are alike. -/
theorem follows_aligned (same : left.Alike right) (sizes : below.length = below'.length)
    (depth : Nat) {n m : Nat} (enough : n ≤ m) :
    Follows (Aligned below below' depth) .silent .silent (fun _ id => below.length ≤ id) .whole
      (Abreast left.registry below below' depth) (level left n) (level right m) := by
  have follows := (lockstep_aligned same sizes depth).level n m enough
  rwa [observed_silent, observed_silent] at follows

/-- An activation without a caller comes to the same at two levels in states that are alike but for
the contexts, unless the lower level is not enough, and leaves the contexts as they are. -/
theorem agrees_activate_apart (same : left.Alike right) {first second : State σ}
    (depths : first.depth = second.depth) (templates : first.templates = second.templates)
    (sizes : first.contexts.length = second.contexts.length)
    (hosts : left.registry.AnswersAlike first.host second.host) {n m : Nat} (enough : n ≤ m)
    (name : String) (graph : Graph) (inputs : Option Value) :
    Outcome.Agrees True (fun last last' => Restored first second last last')
      (fun _ last last' => Restored first second last last')
      ((level left n).activate name graph inputs none first)
      ((level right m).activate name graph inputs none second) := by
  have follows := follows_aligned same sizes first.depth enough
  have callers : ∀ id : ContextId, none = some id → first.contexts.length ≤ id := nofun
  have begun : Abreast left.registry first.contexts second.contexts first.depth
      (Frame.mk (first.contexts.map Context.graph) []) first second :=
    ⟨.of_below depths templates, hosts⟩
  exact (follows.activate trivial callers first second begun).mono
    (fun _ _ _ ends => ends.1.restored depths) fun _ _ ends => ends.restored depths

/-- Where registered functions are pure, it comes to the same whatever their state is. -/
theorem agrees_activate_closed (pure : settings.registry.IsPure) {first second : State σ}
    (depths : first.depth = second.depth) (templates : first.templates = second.templates)
    (sizes : first.contexts.length = second.contexts.length) {n m : Nat} (enough : n ≤ m)
    (name : String) (graph : Graph) (inputs : Option Value) :
    Outcome.Agrees True (fun last last' => Restored first second last last')
      (fun _ last last' => Restored first second last last')
      ((level settings n).activate name graph inputs none first)
      ((level settings m).activate name graph inputs none second) :=
  agrees_activate_apart (.refl settings) depths templates sizes (.inr pure) enough name graph inputs

end Interpreter

end StepGraph
