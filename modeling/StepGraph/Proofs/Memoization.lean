import StepGraph.Proofs.Path
import StepGraph.Proofs.Running.Invariant

/-!
# Published values

What is published in a context stays as it is, unless its key is contested: a step of the context
publishes under it, and a template of that name, defined anywhere in the run, has been called for a
path. Both then write under the one key, and the later result takes the place of the earlier one.
Names are checked for clashes in each graph on its own, so that nothing rules this out.
-/
namespace StepGraph

variable {σ : Type}

/-- A key that a step of the context and the call of a template both publish under. -/
def Context.Contested (templates : Dictionary Graph) (context : Context) (key : String) : Prop :=
  (Dictionary.find? templates key).isSome = true ∧
    context.hasExecuted (implicitCallMark ++ key) = true ∧
    ∃ step ∈ context.graph, step.publishes = true ∧ step.publishKey = key ∧
      context.hasExecuted step.name = true

/-- What a context has published is still there later, but for contested keys. -/
def Context.Lasts (templates : Dictionary Graph) (old new : Context) : Prop :=
  ∀ key value, Dictionary.find? old.values key = some value →
    Dictionary.find? new.values key = some value ∨ new.Contested templates key

/-- What a context has for its caller is what paths see, but for contested keys. -/
def Context.Shows (templates : Dictionary Graph) (context : Context) : Prop :=
  ∀ key value, Dictionary.find? context.output key = some value →
    Dictionary.find? context.values key = some value ∨ context.Contested templates key

/-- The latest moments, as far back as a context has been alive. -/
def lifetime (id : ContextId) (notes : List (Moment σ)) : List (Moment σ) :=
  notes.takeWhile fun moment => id < moment.state.contexts.length

/-- What every context that is alive has published since its begin is still there. -/
def Stable (notes : List (Moment σ)) (state : State σ) : Prop :=
  ∀ (id : ContextId) context, state.contexts[id]? = some context →
    context.Shows state.templates ∧
    ∀ moment ∈ lifetime id notes, ∃ old, moment.state.contexts[id]? = some old ∧
      old.Lasts state.templates context

/-- At every moment of a journal, what had been published before was still there. -/
def StableAll : List (Moment σ) → Prop
  | [] => True
  | moment :: earlier => Stable (moment :: earlier) moment.state ∧ StableAll earlier

namespace Memoization

section Contexts

variable {templates templates' : Dictionary Graph} {old new : Context}

/-- A key stays contested while templates and marks only come to be more. -/
theorem contested_mono {key : String} (contested : old.Contested templates key)
    (defined : (Dictionary.find? templates key).isSome = true →
      (Dictionary.find? templates' key).isSome = true)
    (graph : new.graph = old.graph)
    (marks : ∀ name, old.hasExecuted name = true → new.hasExecuted name = true) :
    new.Contested templates' key := by
  obtain ⟨template, called, step, member, publishes, same, run⟩ := contested
  exact ⟨defined template, marks _ called, step, graph ▸ member, publishes, same, marks _ run⟩

/-- A defined template stays defined. -/
theorem isSome_find?_insert {key name : String} {graph : Graph}
    (defined : (Dictionary.find? templates key).isSome = true) :
    (Dictionary.find? (Dictionary.insert templates name graph) key).isSome = true := by
  by_cases same : key = name
  · rw [same, Dictionary.find?_insert_self]
    rfl
  · rwa [Dictionary.find?_insert_of_ne _ _ same]

/-- What is published under a key that was free, or becomes contested, replaces nothing else. -/
theorem lasts_publish {context : Context} {key : String} {value : Value} {hidden : Bool}
    (taken : (Dictionary.find? context.values key).isSome = true →
      context.Contested templates key) :
    context.Lasts templates (context.publish key value hidden) := by
  intro other held stored
  by_cases same : other = key
  · subst same
    exact .inr (taken (by rw [stored]; rfl))
  · rw [Context.publish_values, Dictionary.find?_insert_of_ne _ _ same]
    exact .inl stored

/-- Publishing under a key that was free, or becomes contested, shows the caller what paths see. -/
theorem shows_publish {context : Context} {key : String} {value : Value} {hidden : Bool}
    (visible : context.Shows templates)
    (taken : (Dictionary.find? context.values key).isSome = true →
      context.Contested templates key) :
    (context.publish key value hidden).Shows templates := by
  intro other held stored
  by_cases same : other = key
  · subst same
    rw [Context.publish_values, Dictionary.find?_insert_self]
    simp only [Context.publish] at stored
    split at stored
    · rcases visible _ _ stored with seen | contested
      · exact .inr (taken (by rw [seen]; rfl))
      · exact .inr contested
    · rw [Dictionary.find?_insert_self] at stored
      exact .inl stored
  · rw [context.find?_publish_output_of_ne _ _ same] at stored
    rw [Context.publish_values, Dictionary.find?_insert_of_ne _ _ same]
    exact visible _ _ stored

end Contexts

section States

variable {notes : List (Moment σ)} {state state' : State σ}

/-- Stability goes on through a change that keeps what each context has published. -/
theorem stable_advance (stable : Stable notes state)
    (changed : ∀ {id : ContextId} {new}, state'.contexts[id]? = some new → ∃ old,
      state.contexts[id]? = some old ∧ old.Lasts state'.templates new ∧
      (∀ key, old.Contested state.templates key → new.Contested state'.templates key) ∧
      new.Shows state'.templates) : Stable notes state' := by
  intro id new alive
  obtain ⟨old, there, lasts, contested, visible⟩ := changed alive
  refine ⟨visible, fun moment member => ?_⟩
  obtain ⟨first, first_alive, kept⟩ := (stable id old there).2 moment member
  refine ⟨first, first_alive, fun key value stored => ?_⟩
  rcases kept key value stored with same | clash
  · exact lasts key value same
  · exact .inr (contested key clash)

/-- A moment may be noted at any time. -/
theorem stable_note (stable : Stable notes state) (call : Call) (ended : Bool) :
    Stable (⟨call, ended, state⟩ :: notes) state := by
  intro id context alive
  refine ⟨(stable id context alive).1, fun moment member => ?_⟩
  have inside : decide (id < state.contexts.length) = true :=
    decide_eq_true (List.getElem?_eq_some_iff.mp alive).choose
  rw [lifetime, List.takeWhile_cons, if_pos inside] at member
  rcases List.mem_cons.mp member with rfl | earlier
  · exact ⟨context, alive, fun _ _ => .inl⟩
  · exact (stable id context alive).2 moment earlier

end States

/-- Why something is stored under a key: it is the inputs, or a step or the call of a template that
has ended has published it. -/
def Written (frame : Frame) (templates : Dictionary Graph) (id : ContextId) (context : Context)
    (key : String) : Prop :=
  key = inputsKey ∨
    (∃ step ∈ context.graph, step.publishes = true ∧ step.publishKey = key ∧
      context.hasExecuted step.name = true ∧ (id, Task.step step) ∉ frame.pending) ∨
    ((Dictionary.find? templates key).isSome = true ∧
      context.hasExecuted (implicitCallMark ++ key) = true ∧ (id, Task.call key) ∉ frame.pending)

/-- A value that has been written stays so when a task ends. -/
theorem Written.finish {frame : Frame} {templates : Dictionary Graph} {id other : ContextId}
    {task : Task} {context : Context} {key : String}
    (written : Written (frame.begin other task) templates id context key) :
    Written frame templates id context key := by
  rcases written with inputs | ⟨step, member, publishes, same, run, ended⟩ |
    ⟨template, called, ended⟩
  · exact .inl inputs
  · exact .inr (.inl ⟨step, member, publishes, same, run,
      fun pending => ended (List.mem_cons_of_mem _ pending)⟩)
  · exact .inr (.inr ⟨template, called, fun pending => ended (List.mem_cons_of_mem _ pending)⟩)

/-- What is known all along a run: why each value is stored, and that values last. -/
structure Memoized (frame : Frame) (notes : List (Moment σ)) (state : State σ) : Prop where
  /-- Templates that are being called are defined. -/
  callable : ∀ {id name}, (id, Task.call name) ∈ frame.pending →
    (Dictionary.find? state.templates name).isSome = true
  /-- Everything stored has been written. -/
  written : ∀ {id : ContextId} {context key}, state.contexts[id]? = some context →
    (Dictionary.find? context.values key).isSome = true →
    Written frame state.templates id context key
  /-- What has been published is still there. -/
  now : Stable notes state
  /-- What had been published was still there at every moment. -/
  past : StableAll notes

namespace Memoized

variable {root : Graph} {frame frame' : Frame} {notes : List (Moment σ)} {state state' : State σ}

/-- A moment may be noted at any time. -/
theorem note (memoized : Memoized frame notes state) (call : Call) (ended : Bool) :
    Memoized frame (⟨call, ended, state⟩ :: notes) state :=
  have stable := stable_note memoized.now call ended
  ⟨memoized.callable, memoized.written, stable, stable, memoized.past⟩

/-- A change that publishes nothing and unmarks nothing leaves what is known as it is. -/
theorem quiet (memoized : Memoized frame notes state)
    (changed : ∀ {id : ContextId} {new}, state'.contexts[id]? = some new → ∃ old,
      state.contexts[id]? = some old ∧ new.graph = old.graph ∧ new.values = old.values ∧
      new.output = old.output ∧
      (∀ name, old.hasExecuted name = true → new.hasExecuted name = true) ∧
      ∀ task, old.hasExecuted task.mark = true → (id, task) ∉ frame.pending →
        (id, task) ∉ frame'.pending)
    (defined : ∀ key, (Dictionary.find? state.templates key).isSome = true →
      (Dictionary.find? state'.templates key).isSome = true)
    (callable : ∀ {id name}, (id, Task.call name) ∈ frame'.pending →
      (Dictionary.find? state'.templates name).isSome = true) :
    Memoized frame' notes state' where
  callable := callable
  written := by
    intro id new key alive stored
    obtain ⟨old, there, graph, values, -, marks, tasks⟩ := changed alive
    rw [values] at stored
    rcases memoized.written there stored with inputs | ⟨step, member, publishes, same, run, ended⟩ |
      ⟨template, called, ended⟩
    · exact .inl inputs
    · exact .inr (.inl ⟨step, graph ▸ member, publishes, same, marks _ run,
        tasks (.step step) run ended⟩)
    · exact .inr (.inr ⟨defined _ template, marks _ called, tasks (.call key) called ended⟩)
  now := by
    refine stable_advance memoized.now fun {id new} alive => ?_
    obtain ⟨old, there, graph, values, output, marks, -⟩ := changed alive
    have contested (key : String) (clash : old.Contested state.templates key) :
        new.Contested state'.templates key := contested_mono clash (defined key) graph marks
    refine ⟨old, there, fun key value stored => .inl (values ▸ stored), contested, ?_⟩
    intro key value stored
    rw [output] at stored
    rw [values]
    exact ((memoized.now id old there).1 key value stored).imp_right (contested key)
  past := memoized.past

/-- Marking a name and beginning the task that it marks leaves what is known as it is. -/
theorem begin (memoized : Memoized frame notes state) {id : ContextId} {context : Context}
    (alive : state.contexts[id]? = some context) {task : Task}
    (fresh : context.hasExecuted task.mark = false)
    (callable : ∀ name, task = .call name →
      (Dictionary.find? state.templates name).isSome = true) :
    Memoized (frame.begin id task) notes (state.setContext id (context.mark task.mark)) := by
  refine memoized.quiet (fun {other new} there => ?_) (fun _ same => same)
    fun {other name} pending => ?_
  · rcases State.eq_or_of_getElem?_setContext there with ⟨rfl, rfl⟩ | ⟨different, before⟩
    · refine ⟨context, alive, context.mark_graph _, context.mark_values _, context.mark_output _,
        fun name run => Context.hasExecuted_mark_of_executed _ run, fun work run ended begun => ?_⟩
      rcases List.mem_cons.mp begun with same | earlier
      · rw [(Prod.mk.inj same).2, fresh] at run
        cases run
      · exact ended earlier
    · refine ⟨new, before, rfl, rfl, rfl, fun _ run => run, fun work _ ended begun => ?_⟩
      rcases List.mem_cons.mp begun with same | earlier
      · exact different (Prod.mk.inj same).1
      · exact ended earlier
  · rcases List.mem_cons.mp pending with same | earlier
    · exact callable name (Prod.mk.inj same).2.symm
    · exact memoized.callable earlier

/-- Ending a task by publishing under a key leaves what is known as it is, when the task now
accounts for the key and whatever was stored there before makes it contested. -/
theorem publish {id : ContextId} {task : Task}
    (memoized : Memoized (frame.begin id task) notes state) {context : Context}
    (alive : state.contexts[id]? = some context) {key : String} {value : Value} {hidden : Bool}
    (writes : Written frame state.templates id context key)
    (taken : (Dictionary.find? context.values key).isSome = true →
      context.Contested state.templates key) :
    Memoized frame notes (state.setContext id (context.publish key value hidden)) where
  callable := fun pending => memoized.callable (List.mem_cons_of_mem _ pending)
  written := by
    intro other new name there stored
    rcases State.eq_or_of_getElem?_setContext there with ⟨rfl, rfl⟩ | ⟨-, before⟩
    · by_cases same : name = key
      · exact same ▸ writes
      · rw [Context.publish_values, Dictionary.find?_insert_of_ne _ _ same] at stored
        exact (memoized.written alive stored).finish
    · exact (memoized.written before stored).finish
  now := by
    refine stable_advance memoized.now fun {other new} there => ?_
    rcases State.eq_or_of_getElem?_setContext there with ⟨rfl, rfl⟩ | ⟨-, before⟩
    · exact ⟨context, alive, lasts_publish taken, fun _ clash => clash,
        shows_publish (memoized.now other context alive).1 taken⟩
    · exact ⟨new, before, fun _ _ => .inl, fun _ clash => clash, (memoized.now other new before).1⟩
  past := memoized.past

/-- Defining a template and ending a step leaves what is known as it is. -/
theorem define {id : ContextId} {task : Task}
    (memoized : Memoized (frame.begin id task) notes state) (name : String) (graph : Graph) :
    Memoized frame notes (state.define name graph) := by
  refine memoized.quiet (fun {other new} there => ?_) (fun key => isSome_find?_insert)
    fun pending => isSome_find?_insert (memoized.callable (List.mem_cons_of_mem _ pending))
  exact ⟨new, there, rfl, rfl, rfl, fun _ run => run,
    fun work _ ended pending => ended (List.mem_cons_of_mem _ pending)⟩

/-- Entering an activation, which has nothing but its inputs, leaves what is known as it is. -/
theorem enter (memoized : Memoized frame notes state) (call : Call) (graph : Graph)
    (inputs : Option Value) (caller : Option ContextId) :
    Memoized (frame.deeper graph) (⟨call, false, state⟩ :: notes)
      (state.enter (Context.start graph inputs caller)) where
  callable := memoized.callable
  written := by
    intro id context key there stored
    rcases State.eq_or_of_getElem?_enter there with ⟨-, before⟩ | ⟨-, rfl⟩
    · exact memoized.written before stored
    · cases inputs with
      | none => cases stored
      | some value =>
        by_cases same : inputsKey = key
        · exact .inl same.symm
        · simp [Context.start, Dictionary.find?, same] at stored
  now := by
    intro id context there
    rcases State.eq_or_of_getElem?_enter there with ⟨-, before⟩ | ⟨rfl, rfl⟩
    · exact stable_note memoized.now call false id context before
    · have begins : ¬(decide (state.contexts.length < state.contexts.length) = true) := by simp
      refine ⟨fun key value stored => ?_, fun moment member => ?_⟩
      · cases stored
      · rw [lifetime, List.takeWhile_cons, if_neg begins] at member
        cases member
  past := ⟨stable_note memoized.now call false, memoized.past⟩

/-- Leaving an activation leaves what is known of the other contexts as it is. -/
theorem leave {graph : Graph} (memoized : Memoized (frame.deeper graph) notes state) :
    Memoized frame notes state.leave := by
  refine memoized.quiet (fun {id new} there => ?_) (fun _ same => same) memoized.callable
  exact ⟨new, (State.of_getElem?_leave there).2, rfl, rfl, rfl, fun _ run => run,
    fun _ _ ended => ended⟩

end Memoized

/-- In a valid graph in which no step answers to the inputs, all that is known of published values
is invariant. -/
theorem invariant {root : Graph} {maxDepth : Nat} (valid : root.IsValid)
    (clear : root.Everywhere fun step => inputsKey ∉ step.keys) :
    Invariant root maxDepth (Memoized : Frame → List (Moment σ) → State σ → Prop) StableAll where
  aborts := fun memoized => memoized.past
  fields := by
    intro frame notes state state' memoized contexts templates _
    refine memoized.quiet (fun {id new} there => ?_) (fun _ same => templates ▸ same)
      fun pending => templates ▸ memoized.callable pending
    exact ⟨new, contexts ▸ there, rfl, rfl, rfl, fun _ run => run, fun _ _ ended => ended⟩
  searches := fun _ memoized _ => memoized.note _ _
  stepBegins := by
    intro frame notes state id context step _ memoized alive _ _ fresh
    have unmarked : context.hasExecuted (Task.step step).mark = false := fresh
    exact (memoized.begin alive unmarked nofun).note _ _
  stepPublishes := by
    intro frame notes state id context step value orderly memoized alive publishes
    obtain ⟨run, member, acts⟩ := orderly.belongs alive
    have inside := orderly.within.graphs alive
    have ended : (id, Task.step step) ∉ frame.pending := (List.nodup_cons.mp orderly.once).1
    refine (memoized.publish alive (.inr (.inl ⟨step, member, publishes, rfl, run, ended⟩))
      fun stored => ?_).note _ _
    rcases memoized.written alive stored with inputs | ⟨other, other_mem, other_publishes, same, -,
      done⟩ | ⟨template, called, -⟩
    · exact absurd (inputs ▸ step.publishKey_mem_keys) (clear _ inside _ member)
    · by_cases different : other = step
      · subst different
        exact absurd List.mem_cons_self done
      · exact absurd same ((valid.of_includes inside).publishKey_ne member acts other_mem
          (Step.acts_of_publishes other_publishes) different)
    · exact ⟨template, called, step, member, publishes, rfl, run⟩
  stepDefines := fun _ memoized _ _ => (memoized.define _ _).note _ _
  callBegins := by
    intro frame notes state id context name graph _ memoized alive defined fresh
    have unmarked : context.hasExecuted (Task.call name).mark = false := fresh
    refine memoized.begin alive unmarked fun other same => ?_
    cases same
    rw [defined]
    rfl
  callPublishes := by
    intro frame notes state id context name value orderly memoized alive
    obtain ⟨run, defines⟩ := orderly.belongs alive
    have template := memoized.callable List.mem_cons_self
    have ended : (id, Task.call name) ∉ frame.pending := (List.nodup_cons.mp orderly.once).1
    refine memoized.publish alive (.inr (.inr ⟨template, run, ended⟩)) fun stored => ?_
    rcases memoized.written alive stored with inputs | ⟨step, member, publishes, same, done, -⟩ |
      ⟨-, -, done⟩
    · obtain ⟨graph, step, inside, member, -, same⟩ := defines
      exact absurd (inputs ▸ same ▸ step.name_mem_keys) (clear graph inside step member)
    · exact ⟨template, run, step, member, publishes, same, done⟩
    · exact absurd List.mem_cons_self done
  activates := fun _ memoized _ _ => memoized.note _ _
  enters := fun _ memoized _ _ _ => memoized.enter _ _ _ _
  leaves := fun _ _ _ _ memoized => memoized.leave.note _ _

/-- A journal is stable from any moment of it back. -/
theorem stableAll_of_append {later earlier : List (Moment σ)}
    (stable : StableAll (later ++ earlier)) : StableAll earlier := by
  induction later with
  | nil => exact stable
  | cons moment later ih => exact ih stable.2

/-- At each moment of a stable history, what had been published before was still there. -/
theorem stable_of_history {history : List (Moment σ)} (stable : StableAll history.reverse)
    {position : Nat} {moment : Moment σ} (there : history[position]? = some moment) :
    Stable (history.take (position + 1)).reverse moment.state := by
  have parts : history.reverse =
      (history.drop (position + 1)).reverse ++ (history.take (position + 1)).reverse := by
    rw [← List.reverse_append, List.take_append_drop]
  rw [parts] at stable
  have ends := stableAll_of_append stable
  rw [reverse_take_of_getElem? there] at ends ⊢
  exact ends.1

/-- A moment from which on a context has been alive lies in its lifetime. -/
theorem mem_lifetime {history : List (Moment σ)} {first last : Nat} {id : ContextId}
    {moment : Moment σ} (there : history[first]? = some moment) (order : first ≤ last)
    (alive : ∀ moment ∈ (history.take (last + 1)).drop first,
      id < moment.state.contexts.length) :
    moment ∈ lifetime id (history.take (last + 1)).reverse := by
  have parts : (history.take (last + 1)).reverse =
      ((history.take (last + 1)).drop first).reverse ++
        ((history.take (last + 1)).take first).reverse := by
    rw [← List.reverse_append, List.take_append_drop]
  rw [lifetime, parts, List.takeWhile_append_of_pos]
  · refine List.mem_append_left _ (List.mem_reverse.mpr (List.mem_of_getElem? (i := 0) ?_))
    rw [List.getElem?_drop, List.getElem?_take_of_lt (by omega), Nat.add_zero]
    exact there
  · intro other member
    exact decide_eq_true (alive other (List.mem_reverse.mp member))

/-- While a context lives, what it has published under a key that is not contested is never
replaced: from one moment of a run to any later one at which the context is still alive, the value
under the key stays, every path that starts from the key resolves as before, and the caller gets
the value that paths see. -/
theorem published_values_last (settings : Settings σ) {root : Graph} (valid : root.IsValid)
    (clear : root.Everywhere fun step => inputsKey ∉ step.keys) (inputs : Value) (state : State σ)
    {id : ContextId} {first last : Nat} {earlier later : Moment σ}
    (earlier_there : (Run.history settings root inputs state)[first]? = some earlier)
    (later_there : (Run.history settings root inputs state)[last]? = some later)
    (order : first ≤ last)
    (alive : ∀ moment ∈ ((Run.history settings root inputs state).take (last + 1)).drop first,
      id < moment.state.contexts.length) :
    ∃ old new, earlier.state.contexts[id]? = some old ∧ later.state.contexts[id]? = some new ∧
      ∀ key, ¬new.Contested later.state.templates key →
        (∀ value, Dictionary.find? old.values key = some value →
          Dictionary.find? new.values key = some value) ∧
        (∀ path value, Path.head path = key → Path.resolve old.values path = .ok (some value) →
          Path.resolve new.values path = .ok (some value)) ∧
        ∀ value, Dictionary.find? new.output key = some value →
          Dictionary.find? new.values key = some value := by
  have starts : Memoized ⟨[], []⟩ [] state.reset :=
    ⟨nofun, (fun there => nomatch there), (fun _ _ there => nomatch there), trivial⟩
  have stable := stable_of_history
    ((invariant valid clear).history inputs state starts) later_there
  have inside : id < later.state.contexts.length := by
    refine alive later (List.mem_of_getElem? (i := last - first) ?_)
    rw [List.getElem?_drop, List.getElem?_take_of_lt (by omega), Nat.add_sub_cancel' order]
    exact later_there
  have there : later.state.contexts[id]? = some later.state.contexts[id] :=
    List.getElem?_eq_getElem inside
  obtain ⟨visible, lasts⟩ := stable id _ there
  obtain ⟨old, old_there, kept⟩ := lasts earlier (mem_lifetime earlier_there order alive)
  refine ⟨old, _, old_there, there, fun key free => ⟨?_, ?_, ?_⟩⟩
  · exact fun value stored => (kept key value stored).resolve_right free
  · rintro path value rfl resolved
    obtain ⟨stored, found⟩ := Path.exists_of_resolve_eq_some resolved
    have same := (kept _ stored found).resolve_right free
    rw [← resolved]
    exact Path.resolve_congr (same.trans found.symm)
  · exact fun value stored => (visible key value stored).resolve_right free

/-- A graph with a step and, in a graph inside it, a template of one name. A path into the result
of the step that leads nowhere calls the template. -/
def contestedGraph : Graph :=
  [.graph ⟨"sub", false, none⟩ { inputs := some (.object []) } (.inline
    [.graph ⟨"k", false, none⟩ {} (.inline
      [.action ⟨"b", false, none⟩ (.static (.number (.integer 2)))])]),
   .action ⟨"k", false, none⟩ (.static (.object [("a", .number (.integer 1))])),
   .action ⟨"x", false, none⟩ (.alias "k.foo"),
   .action ⟨"y", false, none⟩ (.alias "k")]

/-- A run of that graph without registered functions. -/
def contestedRun : List (Moment Unit) :=
  Run.history ⟨Registry.empty, {}⟩ contestedGraph (.object []) (State.start ())

/-- What is stored under a key in a context at a moment. -/
def storedAt (history : List (Moment σ)) (position : Nat) (id : ContextId) (key : String) :
    Option Value := do
  let moment ← history[position]?
  let context ← moment.state.contexts[id]?
  Dictionary.find? context.values key

/-- Under a contested key a published value is replaced while its context lives: the result of the
step gives way to the output of the template. -/
theorem contested_value_replaced :
    contestedGraph.IsValid ∧ contestedGraph.Everywhere (fun step => inputsKey ∉ step.keys) ∧
      (∀ moment ∈ (contestedRun.take 21).drop 8, 0 < moment.state.contexts.length) ∧
      storedAt contestedRun 8 0 "k" = some (.object [("a", .number (.integer 1))]) ∧
      storedAt contestedRun 20 0 "k" = some (.object [("b", .number (.integer 2))]) := by
  decide +kernel

/-- The results of the other steps of that graph last. -/
theorem uncontested_values_last :
    ∃ old new,
      (contestedRun.get ⟨8, by decide +kernel⟩).state.contexts[0]? = some old ∧
      (contestedRun.get ⟨20, by decide +kernel⟩).state.contexts[0]? = some new ∧
      ∀ key, ¬new.Contested (contestedRun.get ⟨20, by decide +kernel⟩).state.templates key →
        (∀ value, Dictionary.find? old.values key = some value →
          Dictionary.find? new.values key = some value) ∧
        (∀ path value, Path.head path = key → Path.resolve old.values path = .ok (some value) →
          Path.resolve new.values path = .ok (some value)) ∧
        ∀ value, Dictionary.find? new.output key = some value →
          Dictionary.find? new.values key = some value :=
  published_values_last ⟨Registry.empty, {}⟩ (by decide +kernel) (by decide +kernel) (.object [])
    (State.start ()) (List.getElem?_eq_getElem _) (List.getElem?_eq_getElem _) (by decide)
    (by decide +kernel)

end Memoization

end StepGraph
