import StepGraph.Proofs.Running.Invariant

/-!
# Outputs of activations

An activation that ends with an output has run every step of its graph exactly once in its context,
whichever way each of them was reached, and the output holds exactly the results of the steps that
show theirs. The account that a context keeps of this is invariant from the begin of the activation
to its end, while the sequence of the steps adds one step after the other to those that are known
to have been run.
-/
namespace StepGraph

variable {σ : Type}

/-- Whether the result of the step goes to the caller. -/
def Step.isShown (step : Step) : Bool := step.publishes && !step.isHidden

/-- A step whose result goes to the caller publishes one. -/
theorem Step.publishes_of_isShown {step : Step} (visible : step.isShown = true) :
    step.publishes = true := (Bool.and_eq_true _ _ ▸ visible).1

/-- Whether a step begins to be run in a context at a moment. -/
def Moment.begins (id : ContextId) (step : Step) (moment : Moment σ) : Bool :=
  decide (moment.call = .perform id step) && !moment.ended

namespace Output

/-- What a context and the journal so far say of the steps of the context, some of which are known
to have been run. -/
structure Account (id : ContextId) (ran : List Step) (frame : Frame) (notes : List (Moment σ))
    (context : Context) : Prop where
  /-- These steps have been run. -/
  run : ∀ step ∈ ran, step.isComment = false → context.hasExecuted step.name = true
  /-- A step that has been run has begun once, and any other never. -/
  begun : ∀ step ∈ context.graph, step.isComment = false →
    notes.countP (Moment.begins id step) = if context.hasExecuted step.name then 1 else 0
  /-- The output has the keys of the steps that have ended and show their results. -/
  shown : ∀ key, (Dictionary.find? context.output key).isSome = true ↔
    ∃ step ∈ context.graph, step.isShown = true ∧ step.publishKey = key ∧
      context.hasExecuted step.name = true ∧ (id, Task.step step) ∉ frame.pending
  /-- Each holds what its step had published when it ended. -/
  published : ∀ step ∈ context.graph, step.isShown = true →
    context.hasExecuted step.name = true → (id, Task.step step) ∉ frame.pending →
    ∃ moment ∈ notes, moment.call = .perform id step ∧ moment.ended = true ∧
      ∃ held, moment.state.contexts[id]? = some held ∧
        Dictionary.find? context.output step.publishKey =
          Dictionary.find? held.values step.publishKey

/-- A graph in which steps and the calls of templates that paths bring about cannot be mistaken for
each other or for the inputs. -/
structure Distinct (graph : Graph) : Prop where
  /-- A text refers to at most one step. -/
  valid : graph.IsValid
  /-- No step answers to the inputs. -/
  clear : ∀ step ∈ graph, inputsKey ∉ step.keys
  /-- No step bears the name of a call. -/
  apart : ∀ step ∈ graph, ∀ template, step.name ≠ implicitCallMark ++ template

namespace Account

variable {id : ContextId} {ran : List Step} {frame frame' : Frame} {notes : List (Moment σ)}
  {context : Context}

/-- A moment at which no step begins in the context may be noted. -/
theorem note (account : Account id ran frame notes context) {moment : Moment σ}
    (other : ∀ step, moment.begins id step = false) :
    Account id ran frame (moment :: notes) context where
  run := account.run
  begun := by
    intro step member acts
    rw [List.countP_cons_of_neg (by rw [other step]; exact Bool.false_ne_true)]
    exact account.begun step member acts
  shown := account.shown
  published := by
    intro step member visible run ended
    obtain ⟨moment, noted, rest⟩ := account.published step member visible run ended
    exact ⟨moment, List.mem_cons_of_mem _ noted, rest⟩

/-- Only the tasks that are being run in the context matter. -/
theorem of_pending (account : Account id ran frame notes context)
    (same : ∀ step ∈ context.graph, step.isShown = true →
      ((id, Task.step step) ∈ frame'.pending ↔ (id, Task.step step) ∈ frame.pending)) :
    Account id ran frame' notes context where
  run := account.run
  begun := account.begun
  shown := by
    intro key
    rw [account.shown]
    constructor
    · rintro ⟨step, member, visible, found, run, ended⟩
      exact ⟨step, member, visible, found, run,
        fun begun => ended ((same step member visible).mp begun)⟩
    · rintro ⟨step, member, visible, found, run, ended⟩
      exact ⟨step, member, visible, found, run,
        fun begun => ended ((same step member visible).mpr begun)⟩
  published := fun step member visible run ended =>
    account.published step member visible run fun begun =>
      ended ((same step member visible).mpr begun)

/-- Marking the call of a template and beginning it changes nothing that the account speaks of. -/
theorem callBegins (account : Account id ran frame notes context)
    (distinct : Distinct context.graph) (name : String) :
    Account id ran (frame.begin id (.call name)) notes
      (context.mark (implicitCallMark ++ name)) := by
  have marks (step : Step) (member : step ∈ context.graph) :
      (context.mark (implicitCallMark ++ name)).hasExecuted step.name =
        context.hasExecuted step.name := by
    exact context.hasExecuted_mark_of_ne (distinct.apart step member name)
  have pending (step : Step) : (id, Task.step step) ∈ (frame.begin id (.call name)).pending ↔
      (id, Task.step step) ∈ frame.pending := by
    simp [Frame.begin]
  refine ⟨fun step member acts => ?_, ?_, ?_, ?_⟩
  · exact Context.hasExecuted_mark_of_executed _ (account.run step member acts)
  · intro step member acts
    rw [context.mark_graph] at member
    rw [marks step member]
    exact account.begun step member acts
  · intro key
    rw [context.mark_output, context.mark_graph, account.shown]
    refine exists_congr fun step => and_congr_right fun member => ?_
    rw [marks step member, pending]
  · intro step member visible run ended
    rw [context.mark_graph] at member
    rw [marks step member] at run
    rw [pending] at ended
    rw [context.mark_output]
    exact account.published step member visible run ended

/-- Publishing the output of a call, hidden, changes nothing that the account speaks of. -/
theorem callPublishes {name : String}
    (account : Account id ran (frame.begin id (.call name)) notes context) (value : Value) :
    Account id ran frame notes (context.publish name value true) := by
  have same : Account id ran frame notes context :=
    account.of_pending fun step _ _ => by simp [Frame.begin]
  exact ⟨same.run, same.begun, same.shown, same.published⟩

/-- Marking a step and beginning it accounts for its begin. -/
theorem stepBegins (account : Account id ran frame notes context)
    (distinct : Distinct context.graph) {step : Step} (member : step ∈ context.graph)
    (acts : step.isComment = false) (fresh : context.hasExecuted step.name = false)
    (state : State σ) :
    Account id ran (frame.begin id (.step step)) (⟨.perform id step, false, state⟩ :: notes)
      (context.mark step.name) := by
  have marks (other : Step) (other_mem : other ∈ context.graph)
      (other_acts : other.isComment = false) (different : other ≠ step) :
      (context.mark step.name).hasExecuted other.name = context.hasExecuted other.name :=
    context.hasExecuted_mark_of_ne
      (distinct.valid.name_ne member acts other_mem other_acts different)
  have ended (other : Step) (other_mem : other ∈ context.graph) (visible : other.isShown = true) :
      ((context.mark step.name).hasExecuted other.name = true ∧
          (id, Task.step other) ∉ (frame.begin id (.step step)).pending) ↔
        (context.hasExecuted other.name = true ∧ (id, Task.step other) ∉ frame.pending) := by
    by_cases same : other = step
    · subst same
      simp [Frame.begin, fresh]
    · have other_acts := Step.acts_of_publishes (Step.publishes_of_isShown visible)
      rw [marks other other_mem other_acts same]
      simp [Frame.begin, same]
  refine ⟨fun other among other_acts => ?_, ?_, ?_, ?_⟩
  · exact Context.hasExecuted_mark_of_executed _ (account.run other among other_acts)
  · intro other other_mem other_acts
    rw [context.mark_graph] at other_mem
    rw [List.countP_cons, account.begun other other_mem other_acts]
    by_cases same : other = step
    · subst same
      rw [fresh, context.hasExecuted_mark_self]
      simp [Moment.begins]
    · rw [marks other other_mem other_acts same]
      simp [Moment.begins, Ne.symm same]
  · intro key
    rw [context.mark_output, context.mark_graph, account.shown]
    refine exists_congr fun other => and_congr_right fun other_mem => and_congr_right fun visible =>
      and_congr_right fun _ => ?_
    exact (ended other other_mem visible).symm
  · intro other other_mem visible run settled
    rw [context.mark_graph] at other_mem
    obtain ⟨run, settled⟩ := (ended other other_mem visible).mp ⟨run, settled⟩
    obtain ⟨moment, noted, rest⟩ := account.published other other_mem visible run settled
    rw [context.mark_output]
    exact ⟨moment, List.mem_cons_of_mem _ noted, rest⟩

/-- Ending a step that defines a template changes nothing that the account speaks of. -/
theorem stepDefines {step : Step}
    (account : Account id ran (frame.begin id (.step step)) notes context)
    (defines : step.definesTemplate = true) (state : State σ) :
    Account id ran frame (⟨.perform id step, true, state⟩ :: notes) context := by
  refine (account.of_pending fun other _ visible => ?_).note fun other => ?_
  · have different : other ≠ step := by
      rintro rfl
      have publishes := Step.publishes_of_isShown visible
      simp [Step.publishes, defines] at publishes
    simp [Frame.begin, different]
  · simp [Moment.begins]

/-- Ending a step that publishes its result accounts for it. -/
theorem stepPublishes {step : Step}
    (account : Account id ran (frame.begin id (.step step)) notes context)
    (distinct : Distinct context.graph) (member : step ∈ context.graph)
    (publishes : step.publishes = true) (run : context.hasExecuted step.name = true)
    (once : (id, Task.step step) ∉ frame.pending) (value : Value) {state : State σ}
    (alive : state.contexts[id]? =
      some (context.publish step.publishKey value step.isHidden)) :
    Account id ran frame (⟨.perform id step, true, state⟩ :: notes)
      (context.publish step.publishKey value step.isHidden) := by
  have clear : step.publishKey ≠ inputsKey := fun same =>
    distinct.clear step member (same ▸ step.publishKey_mem_keys)
  have pending (other : Step) (different : other ≠ step) :
      (id, Task.step other) ∈ (frame.begin id (.step step)).pending ↔
        (id, Task.step other) ∈ frame.pending := by
    simp [Frame.begin, different]
  have keys (other : Step) (other_mem : other ∈ context.graph) (visible : other.isShown = true)
      (different : other ≠ step) : other.publishKey ≠ step.publishKey :=
    distinct.valid.publishKey_ne member (Step.acts_of_publishes publishes) other_mem
      (Step.acts_of_publishes (Step.publishes_of_isShown visible)) different
  have before : ¬(Dictionary.find? context.output step.publishKey).isSome = true := by
    intro stored
    obtain ⟨other, other_mem, visible, found, -, ended⟩ := (account.shown _).mp stored
    by_cases same : other = step
    · exact ended (same ▸ List.mem_cons_self)
    · exact keys other other_mem visible same found
  refine ⟨account.run, ?_, ?_, ?_⟩
  · intro other other_mem other_acts
    rw [List.countP_cons_of_neg (by simp [Moment.begins])]
    exact account.begun other other_mem other_acts
  · intro key
    by_cases same : key = step.publishKey
    · subst same
      cases hidden : step.isHidden with
      | true =>
        rw [context.publish_output_of_hidden]
        refine ⟨fun stored => absurd stored before, ?_⟩
        rintro ⟨other, other_mem, visible, found, -, -⟩
        refine absurd found (keys other other_mem visible fun same => ?_)
        rw [same, Step.isShown, hidden, Bool.not_true, Bool.and_false] at visible
        cases visible
      | false =>
        rw [context.publish_output _ _ clear, Dictionary.find?_insert_self]
        refine ⟨fun _ => ⟨step, member, ?_, rfl, run, once⟩, fun _ => rfl⟩
        rw [Step.isShown, publishes, hidden]
        rfl
    · rw [context.find?_publish_output_of_ne _ _ same, account.shown]
      refine exists_congr fun other => and_congr_right fun other_mem => and_congr_right
        fun visible => and_congr_right fun found => and_congr_right fun _ =>
        not_congr (pending other ?_)
      rintro rfl
      exact same found.symm
  · intro other other_mem visible other_run ended
    by_cases same : other = step
    · subst same
      refine ⟨_, List.mem_cons_self, rfl, rfl, _, alive, ?_⟩
      have unhidden := (Bool.and_eq_true _ _ ▸ visible : _ ∧ _).2
      rw [Bool.not_eq_eq_eq_not, Bool.not_true] at unhidden
      rw [unhidden, context.publish_output _ _ clear, Context.publish_values,
        Dictionary.find?_insert_self, Dictionary.find?_insert_self]
    · obtain ⟨moment, noted, rest⟩ := account.published other other_mem visible other_run
        fun begun => ended ((pending other same).mp begun)
      rw [context.find?_publish_output_of_ne _ _ (keys other other_mem visible same)]
      exact ⟨moment, List.mem_cons_of_mem _ noted, rest⟩

end Account

/-- The account that the context of an activation of a graph keeps while others come and go. -/
def Accounted (id : ContextId) (graph : Graph) (ran : List Step) (frame : Frame)
    (notes : List (Moment σ)) (state : State σ) : Prop :=
  ∃ context, state.contexts[id]? = some context ∧ context.graph = graph ∧
    Account id ran frame notes context

section Keeping

variable {root graph : Graph} {maxDepth : Nat} {id : ContextId} {ran : List Step}

/-- The account of a context is invariant. -/
theorem invariant (distinct : Distinct graph) :
    Invariant root maxDepth (Accounted id graph ran : Frame → List (Moment σ) → State σ → Prop)
      fun _ => True where
  aborts := fun _ => trivial
  fields := by
    rintro frame notes state state' ⟨context, alive, same, account⟩ contexts - -
    exact ⟨context, contexts ▸ alive, same, account⟩
  searches := by
    rintro frame notes state other path ended - ⟨context, alive, same, account⟩ -
    exact ⟨context, alive, same, account.note fun step => by simp [Moment.begins]⟩
  stepBegins := by
    rintro frame notes state other held step - ⟨context, alive, rfl, account⟩ there member acts
      fresh
    by_cases here : other = id
    · subst here
      obtain rfl : context = held := Option.some.inj (alive.symm.trans there)
      exact ⟨_, State.getElem?_setContext_self alive _, context.mark_graph _,
        account.stepBegins distinct member acts fresh _⟩
    · refine ⟨context, ?_, rfl, ?_⟩
      · rwa [State.setContext_contexts, List.getElem?_set_ne here]
      · refine (account.of_pending fun work _ _ => ?_).note fun work => ?_
        · simp [Frame.begin, Ne.symm here]
        · simp [Moment.begins, here]
  stepPublishes := by
    rintro frame notes state other held step value orderly ⟨context, alive, rfl, account⟩ there
      publishes
    by_cases here : other = id
    · subst here
      obtain rfl : context = held := Option.some.inj (alive.symm.trans there)
      obtain ⟨run, member, -⟩ := orderly.belongs alive
      have published := State.getElem?_setContext_self alive
        (context.publish step.publishKey value step.isHidden)
      exact ⟨_, published, rfl, account.stepPublishes distinct member publishes run
        (List.nodup_cons.mp orderly.once).1 value published⟩
    · refine ⟨context, ?_, rfl, ?_⟩
      · rwa [State.setContext_contexts, List.getElem?_set_ne here]
      · refine (account.of_pending fun work _ _ => ?_).note fun work => ?_
        · simp [Frame.begin, Ne.symm here]
        · simp [Moment.begins]
  stepDefines := by
    rintro frame notes state other step defined - ⟨context, alive, rfl, account⟩ defines -
    refine ⟨context, alive, rfl, ?_⟩
    by_cases here : other = id
    · subst here
      exact account.stepDefines defines _
    · refine (account.of_pending fun work _ _ => ?_).note fun work => ?_
      · simp [Frame.begin, Ne.symm here]
      · simp [Moment.begins]
  callBegins := by
    rintro frame notes state other held name defined - ⟨context, alive, rfl, account⟩ there - fresh
    by_cases here : other = id
    · subst here
      obtain rfl : context = held := Option.some.inj (alive.symm.trans there)
      exact ⟨_, State.getElem?_setContext_self alive _, context.mark_graph _,
        account.callBegins distinct name⟩
    · refine ⟨context, ?_, rfl, account.of_pending fun work _ _ => ?_⟩
      · rwa [State.setContext_contexts, List.getElem?_set_ne here]
      · simp [Frame.begin]
  callPublishes := by
    rintro frame notes state other held name value - ⟨context, alive, rfl, account⟩ there
    by_cases here : other = id
    · subst here
      obtain rfl : context = held := Option.some.inj (alive.symm.trans there)
      exact ⟨_, State.getElem?_setContext_self alive _, rfl, account.callPublishes value⟩
    · refine ⟨context, ?_, rfl, account.of_pending fun work _ _ => ?_⟩
      · rwa [State.setContext_contexts, List.getElem?_set_ne here]
      · simp [Frame.begin]
  activates := by
    rintro frame notes state name activated inputs caller - ⟨context, alive, same, account⟩ - -
    exact ⟨context, alive, same, account.note fun step => by simp [Moment.begins]⟩
  enters := by
    rintro frame notes state name activated inputs caller - ⟨context, alive, same, account⟩ - - -
    have entered : Account id ran (frame.deeper activated) notes context :=
      account.of_pending fun _ _ _ => Iff.rfl
    refine ⟨context, ?_, same, entered.note fun step => ?_⟩
    · rw [State.enter_contexts, List.getElem?_append_left (Orderly.lt_length alive)]
      exact alive
    · simp [Moment.begins]
  leaves := by
    rintro frame earlier before notes state name activated inputs caller - begun ⟨_, old_alive, -⟩
      orderly ⟨context, alive, same, account⟩
    have left : Account id ran frame notes context := account.of_pending fun _ _ _ => Iff.rfl
    exact ⟨context, begun.alive_leave orderly.shape old_alive alive, same,
      left.note fun step => by simp [Moment.begins]⟩

open Interpreter Invariant

variable (settings : Settings σ) {frame : Frame} {first : State σ}
  {second : State (σ × List (Moment σ))}

/-- Running one step more of the graph accounts for it. -/
theorem agrees_execute (distinct : Distinct graph) (n : Nat)
    (related : Keeps root (Accounted id graph ran) frame first second)
    (inside : InRange frame.graphs id) {step : Step} (member : step ∈ graph) :
    Outcome.Agrees True (Breaks fun _ => True)
      (fun _ => Keeps root (Accounted id graph (step :: ran)) frame)
      (execute (level settings n) id step first)
      (execute (journaled settings n) id step second) := by
  obtain ⟨notes, rfl, orderly, context, alive, rfl, account⟩ := related
  have more {frame : Frame} {notes : List (Moment σ)} {held : Context}
      (account : Account id ran frame notes held)
      (run : step.isComment = false → held.hasExecuted step.name = true) :
      Account id (step :: ran) frame notes held :=
    ⟨List.forall_mem_cons.mpr ⟨run, account.run⟩, account.begun, account.shown,
      account.published⟩
  have alive' : (first.carrying notes).contexts[id]? = some context := alive
  cases comment : step.isComment with
  | true =>
    rw [execute_of_comment _ comment, execute_of_comment _ comment]
    exact .done _ ⟨notes, rfl, orderly, context, alive, rfl,
      more account fun acts => by rw [comment] at acts; cases acts⟩
  | false =>
    cases run : context.hasExecuted step.name with
    | true =>
      rw [execute_of_executed _ comment alive run, execute_of_executed _ comment alive' run]
      exact .done _ ⟨notes, rfl, orderly, context, alive, rfl, more account fun _ => run⟩
    | false =>
      rw [execute_of_fresh _ comment alive run, execute_of_fresh _ comment alive' run]
      have belongs : Task.Belongs root context (.step step) := ⟨member, comment⟩
      have marked := context.hasExecuted_mark_self step.name
      have lockstep : Lockstep (fun _ => Breaks fun _ => True) settings settings.carry .silent
          journal InRange (.inside root) (Keeps root (Accounted id context.graph (step :: ran))) :=
        (invariant distinct).lockstep
      have follows := lockstep.level n n (Nat.le_refl n)
      rw [observed_silent] at follows
      exact follows.perform inside (orderly.within.graphs alive) member comment
        ⟨_, rfl, orderly.begin alive belongs run, _, State.getElem?_setContext_self alive _,
          context.mark_graph _, more (account.stepBegins distinct member comment run _)
            fun _ => marked⟩

/-- Running steps of the graph one after the other accounts for all of them. -/
theorem agrees_executeAll (distinct : Distinct graph) (n : Nat)
    (inside : InRange frame.graphs id) {steps : List Step}
    (members : ∀ step ∈ steps, step ∈ graph) :
    Run.Agrees True (Breaks fun _ => True) (Keeps root (Accounted id graph ran) frame)
      (fun _ => Keeps root (Accounted id graph (steps.reverse ++ ran)) frame)
      (executeAll (level settings n) id steps)
      (executeAll (journaled settings n) id steps) := by
  induction steps generalizing ran with
  | nil => exact fun _ _ related => .done _ related
  | cons step rest ih =>
    have first : Run.Agrees True (Breaks fun _ => True)
        (Keeps root (Accounted id graph ran) frame)
        (fun _ => Keeps root (Accounted id graph (step :: ran)) frame)
        (execute (level settings n) id step) (execute (journaled settings n) id step) :=
      fun _ _ related =>
        agrees_execute settings distinct n related inside (members step List.mem_cons_self)
    rw [List.reverse_cons, List.append_assoc, List.singleton_append]
    exact Run.agrees_bind first fun _ =>
      ih fun other member => members other (List.mem_cons_of_mem _ member)

end Keeping

/-- The account with which an activation begins. -/
theorem account_start (graph : Graph) (inputs : Option Value) (caller : Option ContextId)
    {id : ContextId} {frame : Frame} {moment : Moment σ}
    (other : ∀ step, moment.begins id step = false) :
    Account id [] frame [moment] (Context.start graph inputs caller) where
  run := nofun
  begun := by
    intro step _ _
    rw [List.countP_cons_of_neg (by simp [other step])]
    rfl
  shown := by
    intro key
    refine ⟨(fun stored => nomatch stored), ?_⟩
    rintro ⟨step, -, -, -, run, -⟩
    cases run
  published := by
    intro step _ _ run
    cases run

section Activating

open Interpreter Invariant

variable {root graph : Graph} {settings : Settings σ} {n : Nat} {name : String}
  {given : Option Value} {caller : Option ContextId} {state final : State σ} {output : Object}

/-- An activation that ends has accounted for all steps of its graph. -/
theorem account_of_nested (distinct : Distinct graph) (inside : root.Includes graph)
    (orderly : Orderly root ⟨state.contexts.map Context.graph, []⟩ state)
    (below : ∀ id, caller = some id → id < state.contexts.length)
    (ended : nested settings (level settings n) name graph given caller state =
      .done output final) :
    ∃ notes context, nested settings.carry (journaled settings n) name graph given caller
        (state.carrying [⟨.activate name graph given caller, false, state⟩]) =
          .done output (final.carrying notes) ∧
      context.graph = graph ∧ context.output = output ∧
      Account state.contexts.length (Graph.hoisted graph).reverse
        (Frame.deeper ⟨state.contexts.map Context.graph, []⟩ graph) notes context := by
  have callers : ∀ id, caller = some id → id < (state.contexts.map Context.graph).length := by
    rwa [List.length_map]
  have alive : (state.enter (Context.start graph given caller)).contexts[state.contexts.length]? =
      some (Context.start graph given caller) := List.getElem?_concat_length
  have entered : Keeps root (Accounted state.contexts.length graph [])
      (Frame.deeper ⟨state.contexts.map Context.graph, []⟩ graph)
      (state.enter (Context.start graph given caller))
      ((state.carrying [⟨.activate name graph given caller, false, state⟩]).enter
        (Context.start graph given caller)) :=
    ⟨_, rfl, orderly.enter inside given callers, _, alive, rfl,
      account_start graph given caller fun step => by simp [Moment.begins]⟩
  have inRange : InRange (state.contexts.map Context.graph ++ [graph]) state.contexts.length := by
    simp [InRange]
  have agree := agrees_executeAll settings distinct n inRange
    (fun step member => Graph.mem_hoisted.mp member) _ _ entered
  obtain ⟨shallow, last, ran, rfl, rfl⟩ := exists_of_nested_eq_done ended
  rw [ran] at agree
  obtain ⟨_, ran', notes, rfl, final_orderly, context, there, same, account⟩ := agree.of_done
  refine ⟨notes, context, ?_, same, ?_, by rwa [List.append_nil] at account⟩
  · have shallow' (moments : List (Moment σ)) : (state.carrying moments).depth <
        (settings.carry : Settings (σ × List (Moment σ))).config.maxDepth := shallow
    exact nested_eq_done (shallow' _) ran'
  · have count := final_orderly.length
    rw [Frame.deeper, List.length_append, List.length_map, List.length_singleton] at count
    rw [State.latestOutput, List.getLast?_eq_getElem?, ← count, Nat.add_sub_cancel, there]
    rfl

/-- The journal of an activation ends with its end. -/
theorem journal_activate {notes : List (Moment σ)}
    (ended : nested settings.carry (journaled settings n) name graph given caller
        (state.carrying [⟨.activate name graph given caller, false, state⟩]) =
      .done output (final.carrying notes)) :
    ((journaled settings (n + 1)).activate name graph given caller (state.carrying [])).journal =
      (⟨.activate name graph given caller, true, final⟩ :: notes).reverse := by
  show (journal.around (.activate name graph given caller)
    (nested settings.carry (journaled settings n) name graph given caller)
    (state.carrying [])).journal = _
  have begun : journal.began (.activate name graph given caller) (state.carrying []) =
      state.carrying [⟨.activate name graph given caller, false, state⟩] := rfl
  rw [Observer.around, begun, ended]
  rfl

end Activating

/-- When an activation that a run comes to ends with an output, every step of its graph that does
something has been run exactly once in its context, the output has exactly the keys of the steps
that show their results, and each of them holds what its step had published when it ended. -/
theorem output_exact (settings : Settings σ) {root : Graph} (valid : root.IsValid)
    (clear : root.Everywhere fun step => inputsKey ∉ step.keys)
    (apart : root.Everywhere fun step => ¬implicitCallMark.toList <+: step.name.toList)
    (inputs : Value) (state : State σ) {moment : Moment σ}
    (reached : moment ∈ Run.history settings root inputs state) (begins : moment.ended = false)
    {name : String} {graph : Graph} {given : Option Value} {caller : Option ContextId}
    (activates : moment.call = .activate name graph given caller) (n : Nat) {output : Object}
    {final : State σ}
    (ends : (Interpreter.level settings n).activate name graph given caller moment.state =
      .done output final) :
    let id := moment.state.contexts.length
    let moments := ((Interpreter.journaled settings n).activate name graph given caller
      (moment.state.carrying [])).journal
    (∀ step ∈ graph, step.isComment = false → moments.countP (Moment.begins id step) = 1) ∧
      (∀ key, key ∈ Dictionary.keys output ↔
        ∃ step ∈ graph, step.isShown = true ∧ step.publishKey = key) ∧
      ∀ step ∈ graph, step.isShown = true → ∃ moment ∈ moments,
        moment.call = .perform id step ∧ moment.ended = true ∧
          ∃ context, moment.state.contexts[id]? = some context ∧
            Dictionary.find? output step.publishKey =
              Dictionary.find? context.values step.publishKey := by
  have reached := Run.reached_of_mem_history reached
  obtain ⟨inside, below⟩ := reached.activates activates begins
  have distinct : Distinct graph :=
    ⟨valid.of_includes inside, clear graph inside, fun step member template same =>
      apart graph inside step member ⟨template.toList, by rw [same, String.toList_append]⟩⟩
  intro id moments
  cases n with
  | zero => cases ends
  | succ n =>
    obtain ⟨notes, context, journaled_ends, same, visible, account⟩ :=
      account_of_nested distinct inside (.of_reached reached) below ends
    subst same
    subst visible
    have listed : moments =
        (⟨.activate name context.graph given caller, true, final⟩ :: notes).reverse :=
      journal_activate journaled_ends
    have ran (step : Step) (member : step ∈ context.graph) (acts : step.isComment = false) :
        context.hasExecuted step.name = true :=
      account.run step (List.mem_reverse.mpr (Graph.mem_hoisted.mpr member)) acts
    have finished (step : Step) : (id, Task.step step) ∉
        (Frame.deeper ⟨moment.state.contexts.map Context.graph, []⟩ context.graph).pending := nofun
    rw [listed]
    refine ⟨fun step member acts => ?_, fun key => ?_, fun step member visible => ?_⟩
    · rw [List.countP_reverse, List.countP_cons_of_neg (by simp [Moment.begins]),
        account.begun step member acts, if_pos (ran step member acts)]
    · rw [Dictionary.mem_keys_iff, account.shown]
      constructor
      · rintro ⟨step, member, visible, found, -, -⟩
        exact ⟨step, member, visible, found⟩
      · rintro ⟨step, member, visible, found⟩
        have acts := Step.acts_of_publishes (Step.publishes_of_isShown visible)
        exact ⟨step, member, visible, found, ran step member acts, finished step⟩
    · have acts := Step.acts_of_publishes (Step.publishes_of_isShown visible)
      obtain ⟨moment, noted, rest⟩ :=
        account.published step member visible (ran step member acts) (finished step)
      exact ⟨moment, List.mem_reverse.mpr (List.mem_cons_of_mem _ noted), rest⟩

/-- A graph with a template, a path that calls it and a hidden step. -/
def mixedGraph : Graph :=
  [.action ⟨"c", false, none⟩ (.alias "t"),
   .graph ⟨"t", false, none⟩ {} (.inline [.action ⟨"v", false, none⟩ (.static (.bool true))]),
   .action ⟨"h", true, none⟩ (.static .null)]

/-- A run of that graph without registered functions. -/
def mixedRun : List (Moment Unit) :=
  Run.history ⟨Registry.empty, {}⟩ mixedGraph (.object []) (State.start ())

/-- The output of that graph has the path alone: neither the template, nor the result of its call,
nor the hidden step. -/
theorem mixed_output_keys :
    mixedGraph.IsValid ∧
      ∀ key, key ∈ Dictionary.keys [("c", Value.object [("v", .bool true)])] ↔
        ∃ step ∈ mixedGraph, step.isShown = true ∧ step.publishKey = key := by
  have valid : mixedGraph.IsValid := by decide +kernel
  have reached : mixedRun.get ⟨0, by decide +kernel⟩ ∈ mixedRun := List.get_mem _ _
  have activates : (mixedRun.get ⟨0, by decide +kernel⟩).call =
      .activate rootName mixedGraph (some (.object [])) none := by decide +kernel
  have ends : (Interpreter.level ⟨Registry.empty, {}⟩ 6).activate rootName mixedGraph
      (some (.object [])) none (mixedRun.get ⟨0, by decide +kernel⟩).state =
        .done [("c", Value.object [("v", .bool true)])]
          ⟨[], [("t", [.action ⟨"v", false, none⟩ (.static (.bool true))])], 0, (), []⟩ := by
    decide +kernel
  exact ⟨valid, (output_exact ⟨Registry.empty, {}⟩ valid (by decide +kernel) (by decide +kernel)
    (.object []) (State.start ()) reached (by decide +kernel) activates 6 ends).2.1⟩

end Output

end StepGraph
