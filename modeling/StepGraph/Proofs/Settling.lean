import StepGraph.Proofs.Discipline
import StepGraph.Proofs.Running.Growth

/-!
# Settled searches

The search for a path tries the published values, the step that the path refers to, the template of
that name and the context of the caller, and each attempt may change what an earlier one has found
missing. Yet nothing is left to be tried once a search has ended: the step and the call that it
waited for are marked for good, and the caller is asked last, whose search leaves the contexts above
it alone. Only a template that is defined under the name of the inputs, while the caller searches,
could still be called.

So the answer is settled in the state that the search has left. The same search has the same
answer there, runs nothing and leaves the state as it is.
-/
namespace StepGraph

variable {σ : Type}

/-- Nothing is left to be run for a path in a context: the step that it refers to has been run, and
the template of that name, if there is one, has been called. -/
structure Context.Idle (templates : Dictionary Graph) (context : Context) (path : String) :
    Prop where
  /-- The path waits for no step. -/
  awaited : context.awaited? path = none
  /-- The path waits for no call. -/
  called : Dictionary.find? templates (Path.head path) = none ∨
    context.hasExecuted (implicitCallMark ++ Path.head path) = true

/-- The answer that a search, through so many callers at most, has in a state without running
anything. -/
inductive Settled (state : State σ) : Nat → ContextId → String → Option Value → Prop where
  /-- The path is found among the values of the context. -/
  | found {n : Nat} {id : ContextId} {path : String} {context : Context} {value : Value}
      (alive : state.contexts[id]? = some context)
      (stored : Path.resolve context.values path = .ok (some value)) :
      Settled state (n + 1) id path (some value)
  /-- It is not found there, and the caller has the answer. -/
  | caller {n : Nat} {id caller : ContextId} {path rest : String} {context : Context}
      {answer : Option Value} (alive : state.contexts[id]? = some context)
      (missing : Path.resolve context.values path = .ok none)
      (idle : context.Idle state.templates path) (within : insideInputs? path = some rest)
      (calls : context.parent = some caller) (further : Settled state n caller rest answer) :
      Settled state (n + 1) id path answer
  /-- It is not found there, and no caller is asked. -/
  | nowhere {n : Nat} {id : ContextId} {path : String} {context : Context}
      (alive : state.contexts[id]? = some context)
      (missing : Path.resolve context.values path = .ok none)
      (idle : context.Idle state.templates path)
      (outside : insideInputs? path = none ∨ context.parent = none) :
      Settled state (n + 1) id path none

/-- A path in a context, and what is left of it inside the inputs, in each of the callers above. -/
inductive Remainder (state : State σ) : ContextId → String → ContextId → String → Prop where
  /-- The path itself. -/
  | here (id : ContextId) (path : String) : Remainder state id path id path
  /-- What is left of it for the caller. -/
  | caller {id caller other : ContextId} {path rest left : String} {context : Context}
      (alive : state.contexts[id]? = some context) (calls : context.parent = some caller)
      (within : insideInputs? path = some rest) (further : Remainder state caller rest other left) :
      Remainder state id path other left

/-- Nothing is stored at a path in a context, and the step that it refers to has been run. -/
structure Context.Exhausted (context : Context) (path : String) : Prop where
  /-- Nothing is stored there. -/
  missing : Path.resolve context.values path = .ok none
  /-- The step that it refers to, if there is one, has been run. -/
  executed : ∀ step, Graph.findStep? context.graph (Path.head path) = some step →
    context.hasExecuted step.name = true

/-- A path that waits for no step refers to one that has been run, if to any. -/
theorem Context.awaited?_eq_none_iff {context : Context} {path : String} :
    context.awaited? path = none ↔
      ∀ step, Graph.findStep? context.graph (Path.head path) = some step →
        context.hasExecuted step.name = true := by
  rw [Option.eq_none_iff_forall_ne_some]
  simp only [ne_eq, awaited?_eq_some_iff, not_and, Bool.not_eq_false]

/-- A path that waits for no step waits for none later. -/
theorem Context.Grows.awaited? {old new : Context} (grown : old.Grows new) {path : String}
    (idle : old.awaited? path = none) : new.awaited? path = none := by
  rw [Context.awaited?_eq_none_iff] at idle ⊢
  rw [grown.graph]
  exact fun step found => grown.marks _ (idle step found)

/-- A search that is settled without an answer has exhausted its path in the context, and what is
left of it in all callers above. -/
theorem Settled.exhausted {state : State σ} {n : Nat} {id other : ContextId} {path left : String}
    (settled : Settled state n id path none) (remains : Remainder state id path other left) :
    ∃ context, state.contexts[other]? = some context ∧ context.Exhausted left := by
  generalize same : (none : Option Value) = answer at settled
  induction settled with
  | found alive stored => cases same
  | caller alive missing idle within calls further ih =>
    cases remains with
    | here => exact ⟨_, alive, missing, Context.awaited?_eq_none_iff.mp idle.awaited⟩
    | caller alive' calls' within' remains' =>
      obtain rfl := Option.some.inj (alive.symm.trans alive')
      obtain rfl := Option.some.inj (calls.symm.trans calls')
      obtain rfl := Option.some.inj (within.symm.trans within')
      exact ih remains' same
  | nowhere alive missing idle outside =>
    cases remains with
    | here => exact ⟨_, alive, missing, Context.awaited?_eq_none_iff.mp idle.awaited⟩
    | caller alive' calls' within' remains' =>
      obtain rfl := Option.some.inj (alive.symm.trans alive')
      rcases outside with unread | orphan
      · rw [unread] at within'
        cases within'
      · rw [orphan] at calls'
        cases calls'

namespace Interpreter

variable {settings : Settings σ} {inner : Interpreter σ} {id : ContextId} {path : String}
  {context : Context} {state last : State σ}

/-! ## Searching again -/

/-- What is looked up in a context that is alive. -/
theorem lookup_apply (alive : state.contexts[id]? = some context) {answer : Option Value}
    (stored : Path.resolve context.values path = .ok answer) :
    lookup id path state = .done answer state := by
  rw [lookup, Run.bind_apply_of_done (Run.context_apply alive), stored]
  rfl

/-- A path that is found among the values is not looked for any further. -/
theorem tryResolve_of_found (settings : Settings σ) (inner : Interpreter σ)
    (alive : state.contexts[id]? = some context) {value : Value}
    (stored : Path.resolve context.values path = .ok (some value)) :
    tryResolve settings inner id path state = .done (some value) state := by
  rw [tryResolve, Run.orElse, Run.bind_apply_of_done (lookup_apply alive stored)]
  rfl

/-- Where nothing is left to be run only the caller is asked. -/
theorem tryResolve_of_idle (settings : Settings σ) (inner : Interpreter σ)
    (alive : state.contexts[id]? = some context)
    (missing : Path.resolve context.values path = .ok none)
    (idle : context.Idle state.templates path) :
    tryResolve settings inner id path state = resolveByCaller inner id path state := by
  have step : resolveByStep inner id path state = .done none state := by
    rw [resolveByStep_eq, Run.bind_apply_of_done (Run.context_apply alive), idle.awaited]
    rfl
  have template : resolveByTemplate settings inner id path state = .done none state := by
    rw [resolveByTemplate, Run.bind_apply_of_done (Run.template?_apply _ state)]
    cases held : Dictionary.find? state.templates (Path.head path) with
    | none => rfl
    | some graph =>
      have called := idle.called.resolve_left (by rw [held]; exact nofun)
      have passed : callTemplate settings inner id (Path.head path) graph state =
          .done false state := by
        rw [callTemplate, Run.bind_apply_of_done (Run.mark_apply_of_executed alive called)]
        rfl
      dsimp only
      rw [Run.bind_apply_of_done passed]
      rfl
  rw [tryResolve, Run.orElse, Run.bind_apply_of_done (lookup_apply alive missing)]
  dsimp only
  rw [Run.orElse, Run.bind_apply_of_done step]
  dsimp only
  rw [Run.orElse, Run.bind_apply_of_done template]

/-- For a path into the inputs the caller is asked for the rest. -/
theorem resolveByCaller_apply (inner : Interpreter σ) {caller : ContextId} {rest : String}
    (alive : state.contexts[id]? = some context) (within : insideInputs? path = some rest)
    (calls : context.parent = some caller) :
    resolveByCaller inner id path state = inner.resolve caller rest state := by
  rw [resolveByCaller, Run.bind_apply_of_done (Run.context_apply alive), within, calls]

/-- Otherwise no caller is asked. -/
theorem resolveByCaller_apply_of_outside (inner : Interpreter σ)
    (alive : state.contexts[id]? = some context)
    (outside : insideInputs? path = none ∨ context.parent = none) :
    resolveByCaller inner id path state = .done none state := by
  rw [resolveByCaller, Run.bind_apply_of_done (Run.context_apply alive)]
  rcases outside with unread | orphan
  · rw [unread]
    rfl
  · rw [orphan]
    cases insideInputs? path <;> rfl

/-- A search that is settled has its answer at every level from there on, and leaves the state as it
is. -/
theorem resolve_of_settled (settings : Settings σ) {n m : Nat} {answer : Option Value}
    (settled : Settled state n id path answer) (enough : n ≤ m) :
    (level settings m).resolve id path state = .done answer state := by
  induction settled generalizing m with
  | found alive stored =>
    cases m with
    | zero => omega
    | succ m => exact tryResolve_of_found settings _ alive stored
  | caller alive missing idle within calls further ih =>
    cases m with
    | zero => omega
    | succ m =>
      refine (tryResolve_of_idle settings _ alive missing idle).trans ?_
      rw [resolveByCaller_apply _ alive within calls]
      exact ih (by omega)
  | nowhere alive missing idle outside =>
    cases m with
    | zero => omega
    | succ m =>
      refine (tryResolve_of_idle settings _ alive missing idle).trans ?_
      exact resolveByCaller_apply_of_outside _ alive outside

/-- Moments at which a path is looked for in a state. -/
def Searches (state : State σ) (notes : List (Moment σ)) : Prop :=
  ∀ moment ∈ notes, moment.state = state ∧ ∃ id path, moment.call = .resolve id path

/-- A search around others begins and ends in their state. -/
theorem Searches.around {notes : List (Moment σ)} (searched : Searches state notes)
    (id : ContextId) (path : String) : Searches state
      (⟨.resolve id path, true, state⟩ :: notes ++ [⟨.resolve id path, false, state⟩]) := by
  intro moment member
  rcases List.mem_append.mp member with inner | first
  · rcases List.mem_cons.mp inner with rfl | inner
    · exact ⟨rfl, id, path, rfl⟩
    · exact searched moment inner
  · obtain rfl := List.mem_singleton.mp first
    exact ⟨rfl, id, path, rfl⟩

/-- The journal of a search has its begin and its end around what it tries. -/
theorem journaled_resolve {m : Nat} {answer : Option Value} {tried notes : List (Moment σ)}
    (tries : tryResolve settings.carry (journaled settings m) id path
      (state.carrying (⟨.resolve id path, false, state⟩ :: notes)) =
        .done answer (last.carrying tried)) :
    (journaled settings (m + 1)).resolve id path (state.carrying notes) =
      .done answer (last.carrying (⟨.resolve id path, true, last⟩ :: tried)) := by
  show journal.around (.resolve id path) (tryResolve settings.carry (journaled settings m) id path)
    (state.carrying notes) = _
  have begun : journal.began (.resolve id path) (state.carrying notes) =
      state.carrying (⟨.resolve id path, false, state⟩ :: notes) := rfl
  rw [Observer.around, begun, tries]
  rfl

/-- The journal of a search that is settled lists nothing but searches, all in the one state. -/
theorem journaled_of_settled (settings : Settings σ) {n m : Nat} {answer : Option Value}
    (settled : Settled state n id path answer) (enough : n ≤ m) :
    ∃ searches, Searches state searches ∧ ∀ notes,
      (journaled settings m).resolve id path (state.carrying notes) =
        .done answer (state.carrying (searches ++ notes)) := by
  have nothing : Searches state [] := nofun
  induction settled generalizing m with
  | @found n id path context value alive stored =>
    cases m with
    | zero => omega
    | succ m =>
      refine ⟨_, nothing.around id path, fun notes => ?_⟩
      have there (notes : List (Moment σ)) : (state.carrying notes).contexts[id]? = some context :=
        alive
      exact journaled_resolve (tryResolve_of_found settings.carry _ (there _) stored)
  | @caller n id caller path rest context answer alive missing idle within calls further ih =>
    cases m with
    | zero => omega
    | succ m =>
      obtain ⟨searches, searched, search⟩ := ih (Nat.le_of_succ_le_succ enough)
      refine ⟨_, searched.around id path, fun notes => ?_⟩
      have there (notes : List (Moment σ)) : (state.carrying notes).contexts[id]? = some context :=
        alive
      have asked := tryResolve_of_idle settings.carry (journaled settings m)
        (there (⟨.resolve id path, false, state⟩ :: notes)) missing idle
      rw [resolveByCaller_apply _ (there _) within calls, search, List.append_cons] at asked
      exact journaled_resolve asked
  | @nowhere n id path context alive missing idle outside =>
    cases m with
    | zero => omega
    | succ m =>
      refine ⟨_, nothing.around id path, fun notes => ?_⟩
      have there (notes : List (Moment σ)) : (state.carrying notes).contexts[id]? = some context :=
        alive
      have asked := tryResolve_of_idle settings.carry (journaled settings m)
        (there (⟨.resolve id path, false, state⟩ :: notes)) missing idle
      exact journaled_resolve (asked.trans (resolveByCaller_apply_of_outside _ (there _) outside))

/-! ## Settling -/

/-- A search that has an answer found it at first or went on. -/
theorem exists_of_orElse {first second : Run σ (Option Value)} {answer : Option Value}
    (ends : Run.orElse first second state = .done answer last) :
    (∃ value, answer = some value ∧ first state = .done (some value) last) ∨
      ∃ middle, first state = .done none middle ∧ second middle = .done answer last := by
  obtain ⟨found, middle, tried, further⟩ := Run.exists_of_bind_eq_done ends
  cases found with
  | some value =>
    cases further
    exact .inl ⟨value, rfl, tried⟩
  | none => exact .inr ⟨middle, tried, further⟩

/-- A context in which a run found it is alive. -/
theorem context_eq_done {found : Context} (ends : Run.context id state = .done found last) :
    last = state ∧ state.contexts[id]? = some found := by
  cases alive : state.contexts[id]? with
  | none =>
    rw [Run.context_apply_of_none alive] at ends
    cases ends
  | some context =>
    rw [Run.context_apply alive] at ends
    cases ends
    exact ⟨rfl, rfl⟩

/-- What was looked up is what the values of the context say. -/
theorem lookup_eq_done {answer : Option Value} (ends : lookup id path state = .done answer last) :
    last = state ∧ ∃ context, state.contexts[id]? = some context ∧
      Path.resolve context.values path = .ok answer := by
  obtain ⟨context, middle, found, read⟩ := Run.exists_of_bind_eq_done ends
  obtain ⟨rfl, alive⟩ := context_eq_done found
  cases stored : Path.resolve context.values path with
  | ok result =>
    rw [stored] at read
    cases read
    exact ⟨rfl, context, alive, stored⟩
  | error cause =>
    rw [stored] at read
    cases read

section Stages

variable {n : Nat} (descending : state.Descending) (alive : state.contexts[id]? = some context)

include descending alive

/-- A step that is run grows the state and is marked. -/
theorem execute_grows {step : Step} (member : step ∈ context.graph) (acts : step.isComment = false)
    (fresh : context.hasExecuted step.name = false)
    (ends : execute (level settings n) id step state = .done () last) :
    state.Grows id last ∧ ∃ context', last.contexts[id]? = some context' ∧
      context.Grows context' ∧ context'.hasExecuted step.name = true := by
  rw [execute_of_fresh _ acts alive fresh] at ends
  have marked : state.Grows id (state.setContext id (context.mark step.name)) :=
    .setContext alive (.mark context step.name)
  have ran := grows_perform (marked.descending descending) member acts ends
  obtain ⟨context', there, grown, -⟩ :=
    ran.contexts (State.getElem?_setContext_self alive (context.mark step.name))
  exact ⟨marked.trans ran, context', there, (Context.Grows.mark context _).trans grown,
    grown.marks _ (context.hasExecuted_mark_self _)⟩

/-- What running the step that a path waits for comes to. -/
theorem resolveByStep_eq_done {answer : Option Value}
    (missing : Path.resolve context.values path = .ok none)
    (ends : resolveByStep (level settings n) id path state = .done answer last) :
    state.Grows id last ∧ ∃ context', last.contexts[id]? = some context' ∧
      Path.resolve context'.values path = .ok answer ∧ context'.awaited? path = none := by
  rw [resolveByStep_eq, Run.bind_apply_of_done (Run.context_apply alive)] at ends
  cases awaited : context.awaited? path with
  | none =>
    rw [awaited] at ends
    cases ends
    exact ⟨.of_unmoved ⟨rfl, rfl, rfl⟩, context, alive, missing, awaited⟩
  | some step =>
    rw [awaited] at ends
    obtain ⟨_, middle, ran, found⟩ := Run.exists_of_bind_eq_done ends
    obtain ⟨waits, fresh⟩ := Context.awaited?_eq_some_iff.mp awaited
    obtain ⟨member, acts, -⟩ := Graph.findStep?_eq_some waits
    obtain ⟨grows, context', there, grown, marked⟩ :=
      execute_grows descending alive member acts fresh ran
    obtain ⟨rfl, held, here, stored⟩ := lookup_eq_done found
    obtain rfl := Option.some.inj (there.symm.trans here)
    refine ⟨grows, context', there, stored, Context.awaited?_eq_none_iff.mpr ?_⟩
    intro other waits'
    rw [grown.graph, waits] at waits'
    exact Option.some.inj waits' ▸ marked

/-- A template that is called, or was before, is marked as such. -/
theorem callTemplate_grows {name : String} {graph : Graph} {called : Bool}
    (ends : callTemplate settings (level settings n) id name graph state = .done called last) :
    state.Grows id last ∧ (called = false → last = state) ∧
      ∃ context', last.contexts[id]? = some context' ∧ context.Grows context' ∧
        context'.hasExecuted (implicitCallMark ++ name) = true := by
  cases run : context.hasExecuted (implicitCallMark ++ name) with
  | true =>
    rw [callTemplate, Run.bind_apply_of_done (Run.mark_apply_of_executed alive run)] at ends
    cases ends
    exact ⟨.of_unmoved ⟨rfl, rfl, rfl⟩, fun _ => rfl, context, alive, .refl context, run⟩
  | false =>
    rw [callTemplate, Run.bind_apply_of_done (Run.mark_apply alive run)] at ends
    have marked : state.Grows id (state.setContext id (context.mark (implicitCallMark ++ name))) :=
      .setContext alive (.mark context _)
    obtain ⟨_, traced, logged, ends⟩ := Run.exists_of_bind_eq_done ends
    rw [Run.trace_apply] at logged
    obtain ⟨-, rfl⟩ := Outcome.done.inj logged
    have logs := State.unmoved_traced
      (state.setContext id (context.mark (implicitCallMark ++ name))) settings (.implicitCall name)
    obtain ⟨output, middle, ran, ends⟩ := Run.exists_of_bind_eq_done ends
    have begun := marked.trans (.of_unmoved logs)
    have after := (State.Grows.of_unmoved logs).trans
      (grows_activate (begun.descending descending) ran)
    obtain ⟨held, here, grown, -⟩ := after.contexts (State.getElem?_setContext_self alive _)
    obtain ⟨_, final, published, ends⟩ := Run.exists_of_bind_eq_done ends
    rw [Run.publish_apply _ _ _ here] at published
    obtain ⟨-, rfl⟩ := Outcome.done.inj published
    cases ends
    have reports := State.unmoved_traced middle settings (.executed name true (.object output))
    have there : (middle.traced settings (.executed name true (.object output))).contexts[id]? =
        some held := reports.contexts ▸ here
    have grows := (marked.trans after).trans (.of_unmoved reports)
    refine ⟨grows.trans (.setContext there (.publish held _ _ _)), Bool.noConfusion, _,
      State.getElem?_setContext_self there _, ?_, grown.marks _ (context.hasExecuted_mark_self _)⟩
    exact (Context.Grows.mark context _).trans (grown.trans (.publish held _ _ _))

/-- What calling the template that a path refers to comes to. -/
theorem resolveByTemplate_eq_done {answer : Option Value}
    (missing : Path.resolve context.values path = .ok none)
    (awaited : context.awaited? path = none)
    (ends : resolveByTemplate settings (level settings n) id path state = .done answer last) :
    state.Grows id last ∧ ∃ context', last.contexts[id]? = some context' ∧
      Path.resolve context'.values path = .ok answer ∧ (answer = none →
        context'.Idle last.templates path) := by
  rw [resolveByTemplate, Run.bind_apply_of_done (Run.template?_apply _ state)] at ends
  cases held : Dictionary.find? state.templates (Path.head path) with
  | none =>
    rw [held] at ends
    cases ends
    exact ⟨.of_unmoved ⟨rfl, rfl, rfl⟩, context, alive, missing, fun _ => ⟨awaited, .inl held⟩⟩
  | some graph =>
    rw [held] at ends
    obtain ⟨called, middle, calls, ends⟩ := Run.exists_of_bind_eq_done ends
    obtain ⟨grows, kept, context', there, grown, marked⟩ :=
      callTemplate_grows descending alive calls
    cases called with
    | true =>
      obtain ⟨rfl, held, here, stored⟩ := lookup_eq_done ends
      obtain rfl := Option.some.inj (there.symm.trans here)
      exact ⟨grows, context', there, stored, fun _ => ⟨grown.awaited? awaited, .inr marked⟩⟩
    | false =>
      cases ends
      obtain rfl := kept rfl
      obtain rfl := Option.some.inj (alive.symm.trans there)
      exact ⟨grows, context, alive, missing, fun _ => ⟨awaited, .inr marked⟩⟩

end Stages

/-- When a path has not been found among the values, nor after running the step or calling the
template that it refers to, nothing is left to be run for it. -/
theorem idle_of_unfound {n : Nat} (descending : state.Descending) {first second third : State σ}
    (looked : lookup id path state = .done none first)
    (ran : resolveByStep (level settings n) id path first = .done none second)
    (called : resolveByTemplate settings (level settings n) id path second = .done none third) :
    ∃ context, state.Grows id third ∧ third.contexts[id]? = some context ∧
      Path.resolve context.values path = .ok none ∧ context.Idle third.templates path := by
  obtain ⟨rfl, context₁, alive₁, missing₁⟩ := lookup_eq_done looked
  obtain ⟨grows₂, context₂, alive₂, missing₂, awaited₂⟩ :=
    resolveByStep_eq_done descending alive₁ missing₁ ran
  obtain ⟨grows₃, context₃, alive₃, missing₃, idle₃⟩ :=
    resolveByTemplate_eq_done (grows₂.descending descending) alive₂ missing₂ awaited₂ called
  exact ⟨context₃, grows₂.trans grows₃, alive₃, missing₃, idle₃ rfl⟩

/-- A search that has an answer found the path, or asked the caller when nothing was left to be
run. -/
theorem exists_idle_of_tryResolve {n : Nat} (descending : state.Descending) {answer : Option Value}
    (ends : tryResolve settings (level settings n) id path state = .done answer last) :
    (∃ context value, last.contexts[id]? = some context ∧
      Path.resolve context.values path = .ok (some value) ∧ answer = some value) ∨
      ∃ middle context, state.Grows id middle ∧ middle.contexts[id]? = some context ∧
        Path.resolve context.values path = .ok none ∧ context.Idle middle.templates path ∧
        resolveByCaller (level settings n) id path middle = .done answer last := by
  rcases exists_of_orElse ends with ⟨value, rfl, found⟩ | ⟨first, looked, searched⟩
  · obtain ⟨rfl, context, alive, stored⟩ := lookup_eq_done found
    exact .inl ⟨context, value, alive, stored, rfl⟩
  obtain ⟨rfl, context₁, alive₁, missing₁⟩ := lookup_eq_done looked
  rcases exists_of_orElse searched with ⟨value, rfl, found⟩ | ⟨second, ran, called⟩
  · obtain ⟨-, context, alive, stored, -⟩ :=
      resolveByStep_eq_done descending alive₁ missing₁ found
    exact .inl ⟨context, value, alive, stored, rfl⟩
  rcases exists_of_orElse called with ⟨value, rfl, found⟩ | ⟨third, unfound, asked⟩
  · obtain ⟨grows₂, context₂, alive₂, missing₂, awaited₂⟩ :=
      resolveByStep_eq_done descending alive₁ missing₁ ran
    obtain ⟨-, context, alive, stored, -⟩ :=
      resolveByTemplate_eq_done (grows₂.descending descending) alive₂ missing₂ awaited₂ found
    exact .inl ⟨context, value, alive, stored, rfl⟩
  obtain ⟨context, grows, alive, missing, idle⟩ := idle_of_unfound descending looked ran unfound
  exact .inr ⟨third, context, grows, alive, missing, idle, asked⟩

/-- A search that has an answer is settled in the state that it leaves, unless a template is there
under the name of the inputs. -/
theorem settled_of_resolve {n : Nat} {answer : Option Value} (descending : state.Descending)
    (ends : (level settings n).resolve id path state = .done answer last)
    (clear : Dictionary.find? last.templates inputsKey = none) :
    Settled last n id path answer := by
  induction n generalizing id path state answer with
  | zero => cases ends
  | succ n ih =>
    rcases exists_idle_of_tryResolve descending ends with
      ⟨context, value, alive, stored, rfl⟩ | ⟨middle, context, grows, alive, missing, idle, asked⟩
    · exact .found alive stored
    · have descends := grows.descending descending
      cases within : insideInputs? path with
      | none =>
        rw [resolveByCaller_apply_of_outside _ alive (.inl within)] at asked
        cases asked
        exact .nowhere alive missing idle (.inl within)
      | some rest =>
        cases calls : context.parent with
        | none =>
          rw [resolveByCaller_apply_of_outside _ alive (.inr calls)] at asked
          cases asked
          exact .nowhere alive missing idle (.inr calls)
        | some caller =>
          rw [resolveByCaller_apply _ alive within calls] at asked
          -- The caller stands below the context, which its search therefore leaves alone.
          have searched := grows_resolve descends asked
          obtain ⟨context', there, -, same⟩ := searched.contexts alive
          obtain rfl := same (descends alive calls)
          have called : Dictionary.find? last.templates (Path.head path) = none :=
            (Path.head_of_insideInputs? within).symm ▸ clear
          exact .caller there missing ⟨idle.awaited, .inl called⟩ within calls
            (ih descends asked)

end Interpreter

namespace Settling

open Interpreter

/-- Whenever a search in the course of a run has an answer, and no template is there under the name
of the inputs once it has ended, the same search has the same answer in the state that it has left,
runs no step and calls no template, and leaves the state as it is. Where it found nothing, nothing
is stored at the path, nor at what is left of it in the callers above, and the steps that they refer
to have been run. -/
theorem resolve_again {settings : Settings σ} {root : Graph} {inputs : Value} {start : State σ}
    {moment : Moment σ} (reached : moment ∈ Run.history settings root inputs start)
    {n : Nat} {id : ContextId} {path : String} {answer : Option Value} {last : State σ}
    (ends : (level settings n).resolve id path moment.state = .done answer last)
    (clear : Dictionary.find? last.templates inputsKey = none) :
    (∀ m, n ≤ m → (level settings m).resolve id path last = .done answer last ∧
      ∃ searches, Searches last searches ∧ ∀ notes,
        (journaled settings m).resolve id path (last.carrying notes) =
          .done answer (last.carrying (searches ++ notes))) ∧
      (answer = none → ∀ other left, Remainder last id path other left →
        ∃ context, last.contexts[other]? = some context ∧ context.Exhausted left) := by
  have descending : moment.state.Descending := fun _ _ _ alive calls =>
    (Run.stacked_of_mem_history reached).callers alive calls
  have settled := settled_of_resolve descending ends clear
  refine ⟨fun m enough => ⟨resolve_of_settled settings settled enough,
    journaled_of_settled settings settled enough⟩, ?_⟩
  rintro rfl other left remains
  exact settled.exhausted remains

/-- A graph with a body that looks into a result of the context of its step, which is yet to be
run. -/
def outwardGraph : Graph :=
  [.graph ⟨"c", false, none⟩ { namespaceKey := some "n" }
     (.inline [.action ⟨"v", false, none⟩ (.alias "inputs.a.z")]),
   .action ⟨"a", false, none⟩ (.static (.object []))]

/-- The search of the body runs the step of its caller, finds nothing in its result, and is
settled. -/
theorem outward_settled :
    let settings : Settings Unit := ⟨Registry.empty, {}⟩
    ∃ moment ∈ Run.history settings outwardGraph (.object []) (State.start ()), ∃ last,
      (level settings 4).resolve 1 "inputs.a.z" moment.state = .done none last ∧
        last ≠ moment.state ∧ Dictionary.find? last.templates inputsKey = none ∧
        (level settings 4).resolve 1 "inputs.a.z" last = .done none last ∧
        ∃ context, last.contexts[0]? = some context ∧ context.Exhausted "a.z" := by
  intro settings
  let moment := (Run.history settings outwardGraph (.object []) (State.start ())).get
    ⟨4, by decide +kernel⟩
  have reached : moment ∈ Run.history settings outwardGraph (.object []) (State.start ()) :=
    List.get_mem _ _
  let last : State Unit :=
    match (level settings 4).resolve 1 "inputs.a.z" moment.state with
    | .done _ last => last
    | .failed _ last => last
    | .stuck _ => moment.state
  have ends : (level settings 4).resolve 1 "inputs.a.z" moment.state = .done none last := by
    decide +kernel
  have clear : Dictionary.find? last.templates inputsKey = none := by decide +kernel
  obtain ⟨again, exhausts⟩ := resolve_again reached ends clear
  let body : Context := last.contexts[1]?.getD (.start [] none none)
  have alive : last.contexts[1]? = some body := by decide +kernel
  have calls : body.parent = some 0 := by decide +kernel
  have within : insideInputs? "inputs.a.z" = some "a.z" := by decide +kernel
  exact ⟨moment, reached, last, ends, by decide +kernel, clear, (again 4 (Nat.le_refl 4)).1,
    exhausts rfl 0 "a.z" (.caller alive calls within (.here 0 "a.z"))⟩

end Settling

end StepGraph
