import StepGraph.Proofs.Addressing
import StepGraph.Proofs.Settling

/-!
# Wildcards in a run

A path to which nothing answers stands for its own text, but not a path with a wildcard. The
wildcard character is judged where the path is resolved, and again once the search has ended without
an answer, while the search may have gone on from caller to caller with what is left of the path.
All of them agree: what is left of a path has its wildcard, an answer to a path with a wildcard is
an array, a wildcard in the wrong place fails where the path is first looked up, and a search that
ends without an answer has come past that point, so that its path has a target to be named.
-/
namespace StepGraph

variable {σ : Type}

namespace Path

/-- A path is a projection when it has one wildcard character, and that is a segment. -/
def IsProjection (path : String) : Prop :=
  path.toList.count '*' = 1 ∧ wildcard ∈ segments path

instance (path : String) : Decidable (IsProjection path) := inferInstanceAs (Decidable (_ ∧ _))

/-- What is left inside the inputs has the wildcard of the path. -/
theorem wildcard_mem_rest {path rest : String} (within : insideInputs? path = some rest)
    (marked : '*' ∈ path.toList) : '*' ∈ rest.toList := by
  rw [toList_of_insideInputs? within, List.mem_append, List.mem_cons] at marked
  rcases marked with name | dot | left
  · exact absurd name (by decide)
  · cases dot
  · exact left

/-- What is projected is an array. -/
theorem exists_items_of_resolveWildcard {ρ : Type} [Addressable ρ] {root : ρ} {path : String}
    {before after : List String} {value : Value}
    (found : resolveWildcard root path before after = .ok (some value)) :
    ∃ items, value = .array items := by
  dsimp only [resolveWildcard] at found
  split at found
  · split at found
    · exact ⟨_, (Option.some.inj (Except.ok.inj found)).symm⟩
    · cases found
  · split at found
    · cases found
    · split at found
      · exact ⟨_, (Option.some.inj (Except.ok.inj found)).symm⟩
      · cases found

section Resolving

variable {ρ : Type} [Addressable ρ] {root : ρ} {path : String} (marked : '*' ∈ path.toList)

include marked

/-- Only a projection resolves without an error, if there is a wildcard at all. -/
theorem isProjection_of_resolve {answer : Option Value}
    (resolved : resolve root path = .ok answer) : IsProjection path := by
  by_contra misplaced
  rw [resolve_unsupported marked (by rwa [IsProjection, not_and_or] at misplaced)] at resolved
  cases resolved

/-- What is found with a wildcard is an array. -/
theorem exists_items_of_resolve {value : Value} (found : resolve root path = .ok (some value)) :
    ∃ items, value = .array items := by
  obtain ⟨single, placed⟩ := isProjection_of_resolve marked found
  obtain ⟨before, after, split⟩ := List.append_of_mem placed
  rw [resolve_projection single split] at found
  exact exists_items_of_resolveWildcard found

end Resolving

/-- The target of a projection is what stands in front of its wildcard. -/
theorem IsProjection.exists_target {path : String} (projects : IsProjection path) :
    ∃ before after, segments path = before ++ wildcard :: after ∧ wildcard ∉ before ∧
      wildcardTarget? path = some (dotted before) := by
  obtain ⟨before, after, split⟩ := List.append_of_mem projects.2
  have plain := (wildcard_not_mem projects.1 split).1
  refine ⟨before, after, split, plain, ?_⟩
  rw [wildcardTarget?, split, splitWildcard_append plain after]
  rfl

end Path

namespace Interpreter

variable {settings : Settings σ} {id : ContextId} {path : String} {state last : State σ}

section Searching

variable (marked : '*' ∈ path.toList)

include marked

/-- A search with a wildcard has an array for its answer, if it has one. -/
theorem exists_items_of_search {n : Nat} {value : Value} (descending : state.Descending)
    (ends : (level settings n).resolve id path state = .done (some value) last) :
    ∃ items, value = .array items := by
  induction n generalizing id path state with
  | zero => cases ends
  | succ n ih =>
    rcases exists_idle_of_tryResolve descending ends with
      ⟨context, _, -, stored, same⟩ | ⟨middle, context, grows, alive, -, -, asked⟩
    · obtain rfl := Option.some.inj same
      exact Path.exists_items_of_resolve marked stored
    · cases within : insideInputs? path with
      | none =>
        rw [resolveByCaller_apply_of_outside _ alive (.inl within)] at asked
        cases asked
      | some rest =>
        cases calls : context.parent with
        | none =>
          rw [resolveByCaller_apply_of_outside _ alive (.inr calls)] at asked
          cases asked
        | some caller =>
          rw [resolveByCaller_apply _ alive within calls] at asked
          exact ih (Path.wildcard_mem_rest within marked) (grows.descending descending) asked

/-- A search that ends without an answer, in spite of a wildcard, is for a projection. -/
theorem isProjection_of_search {n : Nat}
    (ends : (level settings n).resolve id path state = .done none last) :
    Path.IsProjection path := by
  cases n with
  | zero => cases ends
  | succ n =>
    rcases exists_of_orElse ends with ⟨_, missing, -⟩ | ⟨_, looked, -⟩
    · cases missing
    · obtain ⟨-, context, -, resolved⟩ := lookup_eq_done looked
      exact Path.isProjection_of_resolve marked resolved

/-- A search for a wildcard in the wrong place fails where the path is first looked up. -/
theorem search_of_misplaced (settings : Settings σ) (misplaced : ¬ Path.IsProjection path)
    {context : Context} (alive : state.contexts[id]? = some context) (n : Nat) :
    (level settings (n + 1)).resolve id path state =
      .failed (.path (.unsupported path)) state := by
  have refused : Path.resolve context.values path = .error (.unsupported path) :=
    Path.resolve_unsupported marked (by rwa [Path.IsProjection, not_and_or] at misplaced) _
  have looked : lookup id path state = .failed (.path (.unsupported path)) state := by
    rw [lookup, Run.bind_apply_of_done (Run.context_apply alive), refused]
    rfl
  show tryResolve settings (level settings n) id path state = _
  rw [tryResolve, Run.orElse, Run.bind_apply_of_failed looked]

end Searching

section Falling

variable {inner : Interpreter σ} (marked : '*' ∈ path.toList)

include marked

/-- With a wildcard the only value of a path is the answer of its search. -/
theorem resolve_of_resolvePath {value : Value}
    (ends : resolvePath inner id path state = .done value last) :
    inner.resolve id path state = .done (some value) last := by
  obtain ⟨answer, middle, searched, further⟩ := Run.exists_of_bind_eq_done ends
  cases answer with
  | some found =>
    cases further
    exact searched
  | none =>
    rw [if_pos (by simpa using marked)] at further
    cases further

/-- With a wildcard there is nothing to fall back to. -/
theorem resolvePath_of_unresolved (unresolved : inner.resolve id path state = .done none last) :
    resolvePath inner id path state = .failed (.path (unresolvedWildcard path)) last := by
  rw [resolvePath, Run.bind_apply_of_done unresolved]
  dsimp only
  rw [if_pos (by simpa using marked)]
  rfl

/-- With a wildcard a path has a value, or fails, when its search ends. -/
theorem resolvePath_hasEnd (ends : (inner.resolve id path state).HasEnd) :
    (resolvePath inner id path state).HasEnd := by
  rcases ends.done_or_failed with ⟨answer, middle, searched⟩ | ⟨failure, middle, searched⟩
  · cases answer with
    | some value =>
      rw [resolvePath, Run.bind_apply_of_done searched]
      trivial
    | none =>
      rw [resolvePath_of_unresolved marked searched]
      trivial
  · rw [resolvePath, Run.bind_apply_of_failed searched]
    trivial

end Falling

end Interpreter

namespace Projection

open Interpreter

/-- A path with a wildcard never stands for its own text, in any context that is alive at a moment
of a run: its value, if it has one, is an array. Unless it is a projection it fails as unsupported,
and the state is as before. When its search ends without an answer it fails for the target in front
of the wildcard, which it then has. From some level on it has a value or fails. -/
theorem resolvePath_projects {settings : Settings σ} {root : Graph} {inputs : Value}
    {start : State σ} {moment : Moment σ}
    (reached : moment ∈ Run.history settings root inputs start)
    {id : ContextId} (alive : id < moment.state.contexts.length) {path : String}
    (marked : '*' ∈ path.toList) :
    (∀ n value last, resolvePath (level settings n) id path moment.state = .done value last →
      ∃ items, value = .array items) ∧
      (¬ Path.IsProjection path → ∀ n,
        resolvePath (level settings (n + 1)) id path moment.state =
          .failed (.path (.unsupported path)) moment.state) ∧
      (∀ n last, (level settings n).resolve id path moment.state = .done none last →
        ∃ before after, Path.segments path = before ++ Path.wildcard :: after ∧
          Path.wildcard ∉ before ∧ Path.wildcardTarget? path = some (Path.dotted before) ∧
          resolvePath (level settings n) id path moment.state =
            .failed (.path (.notIterable path (Path.dotted before))) last) ∧
      ∃ n, ∀ m, n ≤ m → (resolvePath (level settings m) id path moment.state).HasEnd := by
  have descending : moment.state.Descending := fun _ _ _ there calls =>
    (Run.stacked_of_mem_history reached).callers there calls
  refine ⟨fun n value last ends => ?_, fun misplaced n => ?_, fun n last unresolved => ?_, ?_⟩
  · exact exists_items_of_search marked descending (resolve_of_resolvePath marked ends)
  · have there := List.getElem?_eq_getElem alive
    rw [resolvePath,
      Run.bind_apply_of_failed (search_of_misplaced marked settings misplaced there n)]
  · obtain ⟨before, after, split, plain, target⟩ :=
      (isProjection_of_search marked unresolved).exists_target
    refine ⟨before, after, split, plain, target, ?_⟩
    rw [resolvePath_of_unresolved marked unresolved, unresolvedWildcard, target]
  · obtain ⟨n, ends⟩ := Run.exists_level_resolve reached alive path
    exact ⟨n, fun m enough => resolvePath_hasEnd marked (ends m enough)⟩

/-- A graph with a body that plucks a field from the items of a result that its caller is yet to
publish. -/
def pluckingGraph : Graph :=
  [.graph ⟨"c", false, none⟩ { namespaceKey := some "n" }
     (.inline [.action ⟨"v", false, none⟩ (.alias "inputs.rows.*.v")]),
   .action ⟨"rows", false, none⟩ (.static (.array [.object [("v", .bool true)], .null]))]

/-- The moments of a run of that graph without registered functions. -/
def pluckingMoments : List (Moment Unit) :=
  Run.history ⟨Registry.empty, {}⟩ pluckingGraph (.object []) (State.start ())

/-- The body runs the step of its caller and has the fields in an array, null for the one that is
missing. A wildcard that is no segment is refused in the same state before anything is run, and one
over something that nobody has is refused for its target. -/
theorem plucking_projects :
    let settings : Settings Unit := ⟨Registry.empty, {}⟩
    ∃ moment ∈ pluckingMoments,
      (∃ items last, last ≠ moment.state ∧
        resolvePath (level settings 5) 1 "inputs.rows.*.v" moment.state =
          .done (.array items) last) ∧
      resolvePath (level settings 5) 1 "inputs.rows*.v" moment.state =
        .failed (.path (.unsupported "inputs.rows*.v")) moment.state ∧
      resolvePath (level settings 5) 1 "inputs.columns.*" moment.state =
        .failed (.path (.notIterable "inputs.columns.*" (Path.dotted ["inputs", "columns"])))
          moment.state := by
  intro settings
  let moment := pluckingMoments.get ⟨4, by decide +kernel⟩
  have reached : moment ∈ pluckingMoments := List.get_mem _ _
  have alive : 1 < moment.state.contexts.length := by decide +kernel
  let last : State Unit :=
    match resolvePath (level settings 5) 1 "inputs.rows.*.v" moment.state with
    | .done _ last => last
    | .failed _ last => last
    | .stuck _ => moment.state
  have found : resolvePath (level settings 5) 1 "inputs.rows.*.v" moment.state =
      .done (.array [.bool true, .null]) last := by decide +kernel
  have nobody : (level settings 5).resolve 1 "inputs.columns.*" moment.state =
      .done none moment.state := by decide +kernel
  obtain ⟨items, same⟩ := (resolvePath_projects reached alive (by decide)).1 5 _ _ found
  have misplaced := (resolvePath_projects reached alive
    (show '*' ∈ "inputs.rows*.v".toList by decide)).2.1 (by decide +kernel) 4
  obtain ⟨before, after, split, plain, -, refused⟩ :=
    (resolvePath_projects reached alive (by decide)).2.2.1 5 _ nobody
  have target : some (before, after) = some (["inputs", "columns"], []) :=
    (Path.splitWildcard_append plain after).symm.trans (split ▸ by decide +kernel)
  obtain ⟨rfl, -⟩ := Prod.mk.inj (Option.some.inj target)
  exact ⟨moment, reached, ⟨items, last, by decide +kernel, same ▸ found⟩, misplaced, refused⟩

end Projection

end StepGraph
