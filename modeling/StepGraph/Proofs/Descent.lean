import Mathlib.Data.Prod.Lex
import Mathlib.Order.WithBot
import StepGraph.Proofs.Running.Termination

/-!
# Descent

The operations of a run call each other without end in sight: a path runs steps, steps look for
paths and activate bodies, and bodies ask the contexts of their callers. Yet each call is made at a
smaller measure than the one that it is made in. The measure orders calls first by how many more
activations may be nested, then by how many steps have not been run in the contexts that are alive,
and last by what is being done: running a step comes before looking for a path, a long path before a
short one, and an activation, after which nesting is deeper, comes last of all.

So an activation lowers the first part of the measure, a step that is run for a path lowers the
second, and asking the caller shortens the path. `Interpreter.descending` is the interpreter by
recursion on the measure, without levels; it refuses a call that would not lower it. As it does what
the interpreter at a sufficient level does, which is never stuck, there is no such call.
-/
namespace StepGraph

variable {σ : Type}

/-- What orders the calls of a run: how many more activations may be nested, how many steps have not
been run in the contexts that are alive, and what is being done. -/
abbrev Measure := Nat ×ₗ Nat ×ₗ WithTop Nat

namespace Call

/-- The measure of a call when so many activations may still be nested and so many steps have not
been run. -/
def measure (remaining unmarked : Nat) : Call → Measure
  | .resolve _ path => toLex (remaining, toLex (unmarked, WithTop.some (path.length + 1)))
  | .perform _ _ => toLex (remaining, toLex (unmarked, ⊤))
  | .activate _ _ _ _ => toLex (remaining, toLex (0, WithTop.some 0))

section Comparing

variable {remaining remaining' unmarked unmarked' : Nat}

/-- The fewer steps have not been run, the smaller is the measure. -/
theorem measure_mono (call : Call) (fewer : unmarked ≤ unmarked') :
    call.measure remaining unmarked ≤ call.measure remaining unmarked' := by
  rcases Nat.lt_or_eq_of_le fewer with less | rfl
  · cases call <;> simp [measure, Prod.Lex.toLex_le_toLex, less]
  · exact le_refl _

/-- Whatever is called where fewer activations may be nested has a smaller measure. -/
theorem measure_lt_of_deeper (deeper : remaining < remaining') (call other : Call) :
    call.measure remaining unmarked < other.measure remaining' unmarked' := by
  cases call <;> cases other <;> simp [measure, Prod.Lex.toLex_lt_toLex, deeper]

/-- Running a step has a smaller measure than the search for a path exactly if fewer activations may
be nested or fewer steps have not been run. -/
theorem measure_perform_lt_resolve_iff {id other : ContextId} {step : Step} {path : String} :
    (perform id step).measure remaining unmarked < (resolve other path).measure remaining' unmarked'
      ↔ remaining < remaining' ∨ remaining = remaining' ∧ unmarked < unmarked' := by
  simp [measure, Prod.Lex.toLex_lt_toLex]

/-- The search for a path has a smaller measure than that for another exactly if fewer activations
may be nested, fewer steps have not been run, or the path is shorter. -/
theorem measure_resolve_lt_resolve_iff {id other : ContextId} {path longer : String} :
    (resolve id path).measure remaining unmarked <
        (resolve other longer).measure remaining' unmarked' ↔
      remaining < remaining' ∨ remaining = remaining' ∧
        (unmarked < unmarked' ∨ unmarked = unmarked' ∧ path.length < longer.length) := by
  simp only [measure, Prod.Lex.toLex_lt_toLex, WithTop.coe_lt_coe, Nat.add_lt_add_iff_right]

/-- An activation has a smaller measure than the search for a path where as many may be nested. -/
theorem measure_activate_lt_resolve (name : String) (graph : Graph) (inputs : Option Value)
    (caller : Option ContextId) (id : ContextId) (path : String) :
    (activate name graph inputs caller).measure remaining unmarked <
      (resolve id path).measure remaining unmarked' := by
  rcases Nat.eq_zero_or_pos unmarked' with rfl | some_left <;>
    simp [measure, Prod.Lex.toLex_lt_toLex, *]

/-- An activation has a smaller measure than running a step where as many may be nested. -/
theorem measure_activate_lt_perform (name : String) (graph : Graph) (inputs : Option Value)
    (caller : Option ContextId) (id : ContextId) (step : Step) :
    (activate name graph inputs caller).measure remaining unmarked <
      (perform id step).measure remaining unmarked' := by
  rcases Nat.eq_zero_or_pos unmarked' with rfl | some_left <;>
    simp [measure, Prod.Lex.toLex_lt_toLex, *]

/-- The search for a path has a smaller measure than running a step where as much is left. -/
theorem measure_resolve_lt_perform (id other : ContextId) (path : String) (step : Step) :
    (resolve id path).measure remaining unmarked <
      (perform other step).measure remaining unmarked := by
  simp [measure, Prod.Lex.toLex_lt_toLex]

end Comparing

end Call

/-- The measure of a call in a state. -/
def State.measure (settings : Settings σ) (call : Call) (state : State σ) : Measure :=
  call.measure (settings.config.maxDepth - state.depth) state.shares.total

/-- The measure that a budget allows a call. -/
def Budget.measure (maxDepth : Nat) (budget : Budget) (call : Call) : Measure :=
  call.measure (maxDepth - budget.length) budget.total

/-- The measure of a call in a sound state is the one that what is left allows it. -/
theorem State.Sound.measure_eq {root : Graph} {settings : Settings σ} {budget : Budget}
    {state : State σ} (sound : state.Sound root settings.config.maxDepth budget) (call : Call) :
    state.measure settings call = state.shares.measure settings.config.maxDepth call := by
  rw [State.measure, Budget.measure, sound.depth, State.shares_length]

/-- A lower budget allows no larger measure. -/
theorem Budget.AtMost.measure_le {less budget : Budget} (lower : less.AtMost budget)
    (maxDepth : Nat) (call : Call) :
    less.measure maxDepth call ≤ budget.measure maxDepth call := by
  rw [Budget.measure, Budget.measure, lower.length]
  exact call.measure_mono lower.total_le

/-- Every call is made at a smaller measure than the one that it is made in. -/
theorem grants_descent (root : Graph) (maxDepth : Nat) (here : Measure) :
    Grants root maxDepth (fun budget call => budget.measure maxDepth call ≤ here)
      (fun budget call => budget.measure maxDepth call < here) where
  mark := by
    intro budget id path graph left less step allowed held lower
    have totals := Budget.total_set_add held less
    refine lt_of_lt_of_le (Call.measure_perform_lt_resolve_iff.mpr (.inr ⟨?_, ?_⟩)) allowed
    · rw [List.length_set]
    · omega
  call := fun allowed => lt_of_lt_of_le (Call.measure_activate_lt_resolve ..) allowed
  shorten := fun allowed shorter =>
    lt_of_lt_of_le (Call.measure_resolve_lt_resolve_iff.mpr (.inr ⟨rfl, .inr ⟨rfl, shorter⟩⟩))
      allowed
  look := fun allowed _ _ _ => lt_of_lt_of_le (Call.measure_resolve_lt_perform ..) allowed
  body := fun allowed => lt_of_lt_of_le (Call.measure_activate_lt_perform ..) allowed
  enter := by
    intro budget name graph inputs caller less step allowed _ shallow _
    refine lt_of_lt_of_le (Call.measure_lt_of_deeper ?_ _ _) allowed
    rw [List.length_append, List.length_singleton]
    omega

namespace Interpreter

/-- The operations by recursion on the measure of calls: a call whose measure is not below a bound
is cut off, and its own measure is the bound for the calls that are made in it. -/
def descending (settings : Settings σ) (bound : Measure) : Interpreter σ :=
  { resolve := fun id path state =>
      let here := state.measure settings (.resolve id path)
      if _smaller : here < bound then tryResolve settings (descending settings here) id path state
      else .stuck .cutOff
    perform := fun id step state =>
      let here := state.measure settings (.perform id step)
      if _smaller : here < bound then dispatch settings (descending settings here) id step state
      else .stuck .cutOff
    activate := fun name graph inputs caller state =>
      let here := state.measure settings (.activate name graph inputs caller)
      if _smaller : here < bound then
        nested settings (descending settings here) name graph inputs caller state
      else .stuck .cutOff }
termination_by bound
decreasing_by all_goals assumption

section Descending

variable {settings : Settings σ} {bound : Measure} {id : ContextId} {path : String} {step : Step}
  {name : String} {graph : Graph} {inputs : Option Value} {caller : Option ContextId}
  {state : State σ}

/-- A path is looked for below the bound. -/
theorem descending_resolve (lower : state.measure settings (.resolve id path) < bound) :
    (descending settings bound).resolve id path state =
      tryResolve settings (descending settings (state.measure settings (.resolve id path))) id path
        state := by
  rw [descending]
  exact dif_pos lower

/-- A step is run below the bound. -/
theorem descending_perform (lower : state.measure settings (.perform id step) < bound) :
    (descending settings bound).perform id step state =
      dispatch settings (descending settings (state.measure settings (.perform id step))) id step
        state := by
  rw [descending]
  exact dif_pos lower

/-- A graph is activated below the bound. -/
theorem descending_activate
    (lower : state.measure settings (.activate name graph inputs caller) < bound) :
    (descending settings bound).activate name graph inputs caller state =
      nested settings
        (descending settings (state.measure settings (.activate name graph inputs caller))) name
        graph inputs caller state := by
  rw [descending]
  exact dif_pos lower

end Descending

/-- The calls that a level is enough for and that are below a bound come to the same by recursion on
their measure, and end. -/
theorem ends_descending (settings : Settings σ) (root : Graph) (n : Nat) (bound : Measure) :
    Ends root settings.config.maxDepth False
      (fun budget call => Affordable root settings.config.maxDepth n budget call ∧
        budget.measure settings.config.maxDepth call < bound)
      (level settings n) (descending settings bound) := by
  induction n generalizing bound with
  | zero =>
    exact ⟨fun _ both => (not_affordable_zero both.1).elim,
      fun _ _ _ both => (not_affordable_zero both.1).elim,
      fun _ _ both => (not_affordable_zero both.1).elim⟩
  | succ below ih =>
    have grants (here : Measure) := (show Grants root settings.config.maxDepth _ _ from
      grants_affordable below).and (grants_descent root settings.config.maxDepth here)
    -- A state may have less left than its budget, and its own measure bounds what it calls: so
    -- every call is looked at with the budget of what is left.
    refine ⟨?_, ?_, ?_⟩
    · rintro budget id path inside ⟨paid, lower⟩ state _ ⟨rfl, sound⟩
      have least := sound.shares_atMost
      have measured := sound.measure_eq (.resolve id path)
      rw [descending_resolve (measured ▸ lt_of_le_of_lt (least.measure_le _ _) lower)]
      exact (preserve_tryResolve (ih _) (grants _) (least.length ▸ inside)
        ⟨paid.mono least, le_of_eq measured.symm⟩ state state ⟨rfl, sound.exact⟩).mono
          (fun _ _ _ kept => kept.relax least) fun _ _ kept => kept.relax least
    · rintro budget id step context state sound alive member ⟨paid, lower⟩
      have least := sound.shares_atMost
      have measured := sound.measure_eq (.perform id step)
      rw [descending_perform (measured ▸ lt_of_le_of_lt (least.measure_le _ _) lower)]
      exact (agrees_dispatch (ih _) (grants _) sound.exact alive member
        ⟨paid.mono least, le_of_eq measured.symm⟩).mono
          (fun _ _ _ kept => kept.relax least) fun _ _ kept => kept.relax least
    · rintro budget name graph inputs caller inside callers ⟨paid, lower⟩ state _ ⟨rfl, sound⟩
      have least := sound.shares_atMost
      have measured := sound.measure_eq (.activate name graph inputs caller)
      rw [descending_activate (measured ▸ lt_of_le_of_lt (least.measure_le _ _) lower)]
      exact (preserve_nested (ih _) (grants _) inside (least.length ▸ callers)
        ⟨paid.mono least, le_of_eq measured.symm⟩ state state ⟨rfl, sound.exact⟩).mono
          (fun _ _ _ kept => kept.relax least) fun _ _ kept => kept.relax least

end Interpreter

namespace Run

/-- The output of a graph on inputs, by recursion on the measure of calls. -/
def descending (settings : Settings σ) (graph : Graph) (inputs : Value) : Run σ Object := do
  update State.reset
  let root := Call.activate rootName graph (some inputs) none
  (Interpreter.descending settings (root.measure (settings.config.maxDepth + 1) 0)).activate
    rootName graph (some inputs) none

/-- Every run of a graph ends with an output or a failure. Its calls descend along the measure, so
that recursion on it gives the same run, and so does every level that is large enough. -/
theorem graph_descends (settings : Settings σ) (graph : Graph) (inputs : Value)
    (state : State σ) :
    ((∃ output last, Run.graph settings graph inputs state = .done output last) ∨
        ∃ failure last, Run.graph settings graph inputs state = .failed failure last) ∧
      descending settings graph inputs state = Run.graph settings graph inputs state ∧
      ∀ more,
        (Interpreter.level settings
          (sufficientLevel graph settings.config.maxDepth + more)).activate rootName graph
            (some inputs) none state.reset = Run.graph settings graph inputs state := by
  have sound := state.sound_reset graph settings.config.maxDepth
  have callers : ∀ id : ContextId, none = some id → id < state.reset.contexts.length := nofun
  have paid := affordable_activate sound (Nat.le_refl _) rootName graph (some inputs) none
  have below : state.reset.shares.measure settings.config.maxDepth
      (.activate rootName graph (some inputs) none) <
      (Call.activate rootName graph (some inputs) none).measure (settings.config.maxDepth + 1) 0 :=
    Call.measure_lt_of_deeper (Nat.lt_succ_self _) _ _
  have descends := Outcome.eq_of_agrees_steady <|
    (Interpreter.ends_descending settings graph _ _).activate .self callers ⟨paid, below⟩
      state.reset state.reset ⟨rfl, sound⟩
  have ends := graph_hasEnd settings graph inputs state
  exact ⟨ends.done_or_failed, descends.1.symm, activate_eq_graph settings graph inputs state⟩

end Run

end StepGraph
