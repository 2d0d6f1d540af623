import StepGraph.Proofs.Addressing
import StepGraph.Proofs.Settling

/-!
# Spellings of a path

A search reads its path in three ways. It walks along the segments, it takes the first segment for
the name of a step or a template, and it asks the caller for what stands behind the name of the
inputs and a dot. The first two depend on the segments alone, so that `a[0].b` and `a.0.b` are
spellings of one path. The third one reads the text: `inputs[0]` has the segments of `inputs.0`, but
leaves nothing for the caller.

Spellings of one path are therefore interchangeable as long as they are passed on alike, from caller
to caller: then a search comes to the same, in its answer as in the state that it leaves. Any two
spellings are passed on alike where there is no caller, and where the path does not start from the
inputs.
-/
namespace StepGraph

variable {σ : Type}

/-- Two texts are spellings of one path: they have no wildcard and the same segments, and there are
some. -/
structure Path.Respells (path other : String) : Prop where
  /-- The segments are the same. -/
  same : segments other = segments path
  /-- There are segments. -/
  given : segments path ≠ []
  /-- The first text has no wildcard. -/
  plain : '*' ∉ path.toList
  /-- Nor has the second one. -/
  plain' : '*' ∉ other.toList

/-- Two texts leave spellings of one path for the caller of a context, and for the callers above. -/
inductive State.PassesAlike (state : State σ) : ContextId → String → String → Prop where
  /-- There is no caller. -/
  | orphan {id : ContextId} {path other : String} {context : Context}
      (alive : state.contexts[id]? = some context) (orphan : context.parent = none) :
      PassesAlike state id path other
  /-- Both leave the same, or nothing. -/
  | equal (id : ContextId) {path other : String}
      (equal : insideInputs? other = insideInputs? path) : PassesAlike state id path other
  /-- Both leave segments, which are passed on alike. -/
  | further {id caller : ContextId} {path other rest rest' : String} {context : Context}
      (alive : state.contexts[id]? = some context) (calls : context.parent = some caller)
      (within : insideInputs? path = some rest) (within' : insideInputs? other = some rest')
      (given : Path.segments rest ≠ []) (above : PassesAlike state caller rest rest') :
      PassesAlike state id path other

namespace Path

/-- A path that does not start from the inputs leaves nothing for the caller. -/
theorem insideInputs?_eq_none {path : String} (elsewhere : head path ≠ inputsKey) :
    insideInputs? path = none :=
  Option.eq_none_iff_forall_ne_some.mpr fun _ within => elsewhere (head_of_insideInputs? within)

namespace Respells

variable {path other : String} (respells : Respells path other)

include respells

/-- Spellings of one path start from the same name. -/
theorem head_eq : head other = head path := by
  unfold head
  rw [respells.same]
  cases parts : segments path with
  | nil => exact absurd parts respells.given
  | cons segment rest => rfl

/-- Spellings of one path resolve alike against every root. -/
theorem resolve_eq {ρ : Type} [Addressable ρ] (root : ρ) :
    resolve root other = resolve root path := by
  rw [resolve_plain respells.plain', resolve_plain respells.plain, respells.same]

/-- What spellings of one path leave for the caller are spellings of one path, if anything is left
of it. -/
theorem rest {rest rest' : String} (within : insideInputs? path = some rest)
    (within' : insideInputs? other = some rest') (given : segments rest ≠ []) :
    Respells rest rest' where
  same := by
    have same := respells.same
    rw [segments_of_insideInputs? within, segments_of_insideInputs? within'] at same
    exact (List.cons.inj same).2
  given := given
  plain := fun marked => respells.plain ((isSuffix_of_insideInputs? within).subset marked)
  plain' := fun marked => respells.plain' ((isSuffix_of_insideInputs? within').subset marked)

/-- Spellings of a path that does not start from the inputs are passed on alike, since nothing
is. -/
theorem passesAlike (elsewhere : head path ≠ inputsKey) (state : State σ) (id : ContextId) :
    state.PassesAlike id path other := by
  have elsewhere' : head other ≠ inputsKey := respells.head_eq ▸ elsewhere
  exact .equal id ((insideInputs?_eq_none elsewhere').trans (insideInputs?_eq_none elsewhere).symm)

end Respells

end Path

/-- What is passed on alike still is when contexts have grown. -/
theorem State.PassesAlike.of_grows {state last : State σ} {top id : ContextId}
    {path other : String} (alike : state.PassesAlike id path other) (grows : state.Grows top last) :
    last.PassesAlike id path other := by
  induction alike with
  | orphan alive orphan =>
    obtain ⟨context, there, grown, -⟩ := grows.contexts alive
    exact .orphan there (grown.parent.trans orphan)
  | equal id equal => exact .equal id equal
  | further alive calls within within' given above ih =>
    obtain ⟨context, there, grown, -⟩ := grows.contexts alive
    exact .further there (grown.parent.trans calls) within within' given ih

/-- What is tried where the first search finds nothing need only be the same there. -/
theorem Run.orElse_congr {α : Type} {first second second' : Run σ (Option α)} {state : State σ}
    (same : ∀ middle, first state = .done none middle → second middle = second' middle) :
    Run.orElse first second state = Run.orElse first second' state := by
  cases tried : first state with
  | done found middle =>
    rw [Run.orElse, Run.orElse, Run.bind_apply_of_done tried, Run.bind_apply_of_done tried]
    cases found with
    | some value => rfl
    | none => exact same middle tried
  | failed failure middle =>
    rw [Run.orElse, Run.orElse, Run.bind_apply_of_failed tried, Run.bind_apply_of_failed tried]
  | stuck reason =>
    rw [Run.orElse, Run.orElse, Run.bind_apply_of_stuck tried, Run.bind_apply_of_stuck tried]

namespace Interpreter

variable {path other : String}

section Stages

variable (respells : Path.Respells path other) (id : ContextId)

include respells

/-- Spellings of one path are looked up alike. -/
theorem lookup_respelled : (lookup id other : Run σ (Option Value)) = lookup id path := by
  simp only [lookup, respells.resolve_eq]

/-- Spellings of one path wait for the same step. -/
theorem resolveByStep_respelled (inner : Interpreter σ) :
    resolveByStep inner id other = resolveByStep inner id path := by
  simp only [resolveByStep, respells.head_eq, lookup_respelled respells]

/-- Spellings of one path call the same template. -/
theorem resolveByTemplate_respelled (settings : Settings σ) (inner : Interpreter σ) :
    resolveByTemplate settings inner id other = resolveByTemplate settings inner id path := by
  simp only [resolveByTemplate, respells.head_eq, lookup_respelled respells]

end Stages

/-- Spellings of one path that are passed on alike come to the same at every level. -/
theorem resolve_respelled (settings : Settings σ) {id : ContextId} {state : State σ}
    (descending : state.Descending) (respells : Path.Respells path other)
    (alike : state.PassesAlike id path other) (n : Nat) :
    (level settings n).resolve id other state = (level settings n).resolve id path state := by
  induction n generalizing id path other state with
  | zero => rfl
  | succ n ih =>
    show tryResolve settings (level settings n) id other state =
      tryResolve settings (level settings n) id path state
    rw [tryResolve, tryResolve, lookup_respelled respells, resolveByStep_respelled respells,
      resolveByTemplate_respelled respells]
    -- Only the caller is asked differently, once nothing else has been found.
    refine Run.orElse_congr fun first looked => Run.orElse_congr fun second ran =>
      Run.orElse_congr fun third called => ?_
    obtain ⟨_, grows, -, -, -⟩ := idle_of_unfound descending looked ran called
    cases alike.of_grows grows with
    | orphan alive orphan =>
      rw [resolveByCaller_apply_of_outside _ alive (.inr orphan),
        resolveByCaller_apply_of_outside _ alive (.inr orphan)]
    | equal _ equal => rw [resolveByCaller, resolveByCaller, equal]
    | further alive calls within within' given above =>
      rw [resolveByCaller_apply _ alive within calls, resolveByCaller_apply _ alive within' calls]
      exact ih (grows.descending descending) (respells.rest within within' given) above

end Interpreter

namespace Spelling

open Interpreter

/-- Spellings of one path are interchangeable in every context that is alive at a moment of a run,
unless they start from the inputs and are not passed on alike from there: at every level a search
for either has the same answer or the same failure, and leaves the same state. From some level on it
ends. -/
theorem resolve_interchangeable {settings : Settings σ} {root : Graph} {inputs : Value}
    {start : State σ} {moment : Moment σ}
    (reached : moment ∈ Run.history settings root inputs start)
    {id : ContextId} (alive : id < moment.state.contexts.length) {path other : String}
    (respells : Path.Respells path other)
    (alike : Path.head path = inputsKey → moment.state.PassesAlike id path other) :
    (∀ n, (level settings n).resolve id other moment.state =
      (level settings n).resolve id path moment.state) ∧
      ∃ n, ∀ m, n ≤ m → ((level settings m).resolve id path moment.state).HasEnd := by
  have descending : moment.state.Descending := fun _ _ _ there calls =>
    (Run.stacked_of_mem_history reached).callers there calls
  have passed : moment.state.PassesAlike id path other := by
    by_cases starts : Path.head path = inputsKey
    · exact alike starts
    · exact respells.passesAlike starts moment.state id
  exact ⟨resolve_respelled settings descending respells passed,
    Run.exists_level_resolve reached alive path⟩

/-- A graph with a body that looks for an entry of a result that its caller is yet to publish. -/
def inwardGraph : Graph :=
  [.graph ⟨"c", false, none⟩ { namespaceKey := some "n" }
     (.inline [.action ⟨"v", false, none⟩ (.alias "inputs.0.0")]),
   .action ⟨"0", false, none⟩ (.static (.array [.bool true]))]

/-- The moments of a run of that graph without registered functions. -/
def inwardMoments : List (Moment Unit) :=
  Run.history ⟨Registry.empty, {}⟩ inwardGraph (.object []) (State.start ())

/-- The search that the body begins runs the step of the caller and finds the entry, with the index
of the entry in either spelling. -/
theorem inward_interchangeable :
    ∃ moment ∈ inwardMoments, moment.call = .resolve 1 "inputs.0.0" ∧
      ∃ last, last ≠ moment.state ∧
        (level ⟨Registry.empty, {}⟩ 5).resolve 1 "inputs.0[0]" moment.state =
          .done (some (.bool true)) last := by
  let settings : Settings Unit := ⟨Registry.empty, {}⟩
  let moment := inwardMoments.get ⟨4, by decide +kernel⟩
  have reached : moment ∈ inwardMoments := List.get_mem _ _
  let last : State Unit :=
    match (level settings 5).resolve 1 "inputs.0.0" moment.state with
    | .done _ last => last
    | .failed _ last => last
    | .stuck _ => moment.state
  have found : (level settings 5).resolve 1 "inputs.0.0" moment.state =
      .done (some (.bool true)) last := by decide +kernel
  let body : Context := moment.state.contexts[1]?.getD (.start [] none none)
  let around : Context := moment.state.contexts[0]?.getD (.start [] none none)
  have alive : moment.state.contexts[1]? = some body := by decide +kernel
  have alive_around : moment.state.contexts[0]? = some around := by decide +kernel
  have calls : body.parent = some 0 := by decide +kernel
  have within : insideInputs? "inputs.0.0" = some "0.0" := by decide +kernel
  have within' : insideInputs? "inputs.0[0]" = some "0[0]" := by decide +kernel
  have alike : moment.state.PassesAlike 1 "inputs.0.0" "inputs.0[0]" :=
    .further alive calls within within' (by decide +kernel)
      (.orphan alive_around (by decide +kernel))
  have respells : Path.Respells "inputs.0.0" "inputs.0[0]" :=
    ⟨by decide +kernel, by decide +kernel, by decide +kernel, by decide +kernel⟩
  have same := (resolve_interchangeable reached (by decide +kernel) respells fun _ => alike).1 5
  exact ⟨moment, reached, by decide +kernel, last, by decide +kernel, same.trans found⟩

/-- With the index of the result itself in brackets the same search asks no caller and finds
nothing, although the segments are the same. -/
theorem inward_not_interchangeable :
    Path.Respells "inputs.0.0" "inputs[0].0" ∧
      ∃ moment ∈ inwardMoments, 1 < moment.state.contexts.length ∧
        (∃ last, (level ⟨Registry.empty, {}⟩ 5).resolve 1 "inputs.0.0" moment.state =
          .done (some (.bool true)) last) ∧
        (level ⟨Registry.empty, {}⟩ 5).resolve 1 "inputs[0].0" moment.state =
          .done none moment.state := by
  let settings : Settings Unit := ⟨Registry.empty, {}⟩
  let moment := inwardMoments.get ⟨4, by decide +kernel⟩
  let last : State Unit :=
    match (level settings 5).resolve 1 "inputs.0.0" moment.state with
    | .done _ last => last
    | .failed _ last => last
    | .stuck _ => moment.state
  refine ⟨⟨by decide +kernel, by decide +kernel, by decide +kernel, by decide +kernel⟩, moment,
    List.get_mem _ _, by decide +kernel, ⟨last, ?_⟩, ?_⟩
  · decide +kernel
  · decide +kernel

end Spelling

end StepGraph
