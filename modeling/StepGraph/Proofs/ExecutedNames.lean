import StepGraph.Proofs.Memoization
import StepGraph.Proofs.Output

/-!
# The names that have been run

A context keeps one list of names for two purposes: it tells which steps have been run, and which
calls of templates have been made for paths. The name of a call is that of the template behind a
mark, and a step may bear the same name. Such a step counts as run once the call is made, although
it never begins. A name of any other step that stands in the list says what it is there to say: the
step has begun, and only once.
-/
namespace StepGraph

variable {σ : Type}

/-- A step bears the name under which the call of a defined template is listed. -/
def Step.NamesCall (step : Step) (templates : Dictionary Graph) : Prop :=
  ∃ template, step.name = implicitCallMark ++ template ∧
    (Dictionary.find? templates template).isSome = true

/-- How often a step has begun to be run in a context since the context was entered. -/
def timesBegun (id : ContextId) (step : Step) (notes : List (Moment σ)) : Nat :=
  (lifetime id notes).countP (Moment.begins id step)

namespace ExecutedNames

/-- What the list of a context tells of a step that does something: the step has begun once, or
never if it is not listed, or it is listed for the call of a template and has not begun. -/
structure Tells (templates : Dictionary Graph) (id : ContextId) (notes : List (Moment σ))
    (context : Context) (step : Step) : Prop where
  /-- A step that is not listed has not begun. -/
  unlisted : context.hasExecuted step.name = false → timesBegun id step notes = 0
  /-- A step that is listed has begun once, or it bears the name of a call. -/
  listed : context.hasExecuted step.name = true →
    timesBegun id step notes = 1 ∨ timesBegun id step notes = 0 ∧ step.NamesCall templates

/-- The lists of all contexts that are alive tell the truth of the steps of their graphs. -/
def Truthful (notes : List (Moment σ)) (state : State σ) : Prop :=
  ∀ (id : ContextId) context, state.contexts[id]? = some context →
    ∀ step ∈ context.graph, step.isComment = false → Tells state.templates id notes context step

/-- In a context that is alive, a moment adds to the count of a step that begins there. -/
theorem timesBegun_cons (moment : Moment σ) {id : ContextId}
    (alive : id < moment.state.contexts.length) (step : Step) (notes : List (Moment σ)) :
    timesBegun id step (moment :: notes) =
      timesBegun id step notes + if moment.begins id step then 1 else 0 := by
  rw [timesBegun, lifetime, List.takeWhile_cons_of_pos (by simpa using alive), List.countP_cons]
  rfl

/-- In a context that is not alive, nothing is counted. -/
theorem timesBegun_eq_zero {id : ContextId} {moment : Moment σ}
    (gone : moment.state.contexts.length ≤ id) (step : Step) (notes : List (Moment σ)) :
    timesBegun id step (moment :: notes) = 0 := by
  rw [timesBegun, lifetime, List.takeWhile_cons_of_neg (by simpa using gone)]
  rfl

namespace Tells

variable {templates templates' : Dictionary Graph} {id : ContextId}
  {notes notes' : List (Moment σ)} {context context' : Context} {step : Step}

/-- What is told of a step depends on whether it is listed, on how often it has begun, and on the
templates, which only come to be more. -/
theorem of_same (tells : Tells templates id notes context step)
    (marks : context'.hasExecuted step.name = context.hasExecuted step.name)
    (times : timesBegun id step notes' = timesBegun id step notes)
    (defined : ∀ name, (Dictionary.find? templates name).isSome = true →
      (Dictionary.find? templates' name).isSome = true) :
    Tells templates' id notes' context' step where
  unlisted := fun fresh => times ▸ tells.unlisted (marks ▸ fresh)
  listed := by
    intro run
    rw [times]
    rcases tells.listed (marks ▸ run) with once | ⟨never, template, same, held⟩
    · exact .inl once
    · exact .inr ⟨never, template, same, defined template held⟩

end Tells

namespace Truthful

variable {notes : List (Moment σ)} {state state' : State σ}

/-- A change that leaves the graphs and the lists of the contexts as they are does not matter. -/
theorem quiet (truthful : Truthful notes state)
    (changed : ∀ {id : ContextId} {new}, state'.contexts[id]? = some new → ∃ old,
      state.contexts[id]? = some old ∧ new.graph = old.graph ∧ new.executed = old.executed)
    (defined : ∀ name, (Dictionary.find? state.templates name).isSome = true →
      (Dictionary.find? state'.templates name).isSome = true) : Truthful notes state' := by
  intro id new there step member acts
  obtain ⟨old, alive, graph, executed⟩ := changed there
  have marks : new.hasExecuted step.name = old.hasExecuted step.name := by
    rw [Context.hasExecuted, executed, Context.hasExecuted]
  exact (truthful id old alive step (graph ▸ member) acts).of_same marks rfl defined

/-- Publishing does not matter. -/
theorem publish (truthful : Truthful notes state) {id : ContextId} {context : Context}
    (alive : state.contexts[id]? = some context) (key : String) (value : Value) (hidden : Bool) :
    Truthful notes (state.setContext id (context.publish key value hidden)) := by
  refine truthful.quiet (fun {other new} there => ?_) fun _ held => held
  rcases State.eq_or_of_getElem?_setContext there with ⟨rfl, rfl⟩ | ⟨-, before⟩
  · exact ⟨context, alive, rfl, rfl⟩
  · exact ⟨new, before, rfl, rfl⟩

/-- A moment at which no step begins may be noted. -/
theorem note (truthful : Truthful notes state) {moment : Moment σ}
    (at_moment : moment.state = state) (silent : ∀ id step, moment.begins id step = false) :
    Truthful (moment :: notes) state := by
  intro id context alive step member acts
  have inside : id < moment.state.contexts.length := at_moment ▸ Orderly.lt_length alive
  have times : timesBegun id step (moment :: notes) = timesBegun id step notes := by
    rw [timesBegun_cons moment inside, silent, if_neg Bool.false_ne_true, Nat.add_zero]
  exact (truthful id context alive step member acts).of_same rfl times fun _ held => held

/-- A step that is not listed is listed and begins. The other steps of a valid graph have other
names. -/
theorem begin (truthful : Truthful notes state) {id : ContextId} {context : Context} {step : Step}
    (alive : state.contexts[id]? = some context) (valid : context.graph.IsValid)
    (member : step ∈ context.graph) (acts : step.isComment = false)
    (fresh : context.hasExecuted step.name = false) :
    let marked := state.setContext id (context.mark step.name)
    Truthful (⟨.perform id step, false, marked⟩ :: notes) marked := by
  intro marked other new there work work_mem work_acts
  have inside := Orderly.lt_length there
  rcases State.eq_or_of_getElem?_setContext there with ⟨rfl, rfl⟩ | ⟨different, before⟩
  -- In the context itself only the count of the step that begins is raised.
  · rw [context.mark_graph] at work_mem
    have told := truthful _ context alive work work_mem work_acts
    have times := timesBegun_cons ⟨.perform other step, false, marked⟩ inside work notes
    by_cases same : work = step
    · subst same
      rw [told.unlisted fresh, if_pos (by simp [Moment.begins])] at times
      refine ⟨fun unlisted => ?_, fun _ => .inl times⟩
      rw [context.hasExecuted_mark_self] at unlisted
      cases unlisted
    · rw [if_neg (by simp [Moment.begins, Ne.symm same])] at times
      exact told.of_same (context.hasExecuted_mark_of_ne
        (valid.name_ne member acts work_mem work_acts same)) times fun _ held => held
  · have times := timesBegun_cons ⟨.perform id step, false, marked⟩ inside work notes
    rw [if_neg (by simp [Moment.begins, Ne.symm different])] at times
    exact (truthful other new before work work_mem work_acts).of_same rfl times fun _ held => held

/-- A call of a defined template is listed. A step of its name that has not begun bears the name of
a call from now on. -/
theorem call (truthful : Truthful notes state) {id : ContextId} {context : Context}
    (alive : state.contexts[id]? = some context) {name : String}
    (defined : (Dictionary.find? state.templates name).isSome = true)
    (fresh : context.hasExecuted (implicitCallMark ++ name) = false) :
    Truthful notes (state.setContext id (context.mark (implicitCallMark ++ name))) := by
  intro other new there work work_mem work_acts
  rcases State.eq_or_of_getElem?_setContext there with ⟨rfl, rfl⟩ | ⟨-, before⟩
  · rw [context.mark_graph] at work_mem
    have told := truthful _ context alive work work_mem work_acts
    -- The call was not listed before, so that a step of its name had not begun either.
    by_cases same : work.name = implicitCallMark ++ name
    · have never := told.unlisted (same ▸ fresh)
      exact ⟨fun _ => never, fun _ => .inr ⟨never, name, same, defined⟩⟩
    · exact told.of_same (context.hasExecuted_mark_of_ne same) rfl fun _ held => held
  · exact truthful other new before work work_mem work_acts

/-- In a context that is just entered nothing is listed and nothing has begun. -/
theorem enter {moment : Moment σ} (truthful : Truthful (moment :: notes) state)
    (at_moment : moment.state = state) (graph : Graph) (inputs : Option Value)
    (caller : Option ContextId) :
    Truthful (moment :: notes) (state.enter (Context.start graph inputs caller)) := by
  intro id context there step member acts
  rcases State.eq_or_of_getElem?_enter there with ⟨-, before⟩ | ⟨rfl, rfl⟩
  · exact truthful id context before step member acts
  · have never : timesBegun state.contexts.length step (moment :: notes) = 0 :=
      timesBegun_eq_zero (at_moment ▸ Nat.le_refl _) step notes
    exact ⟨fun _ => never, nofun⟩

end Truthful

/-- What is known all along a run: the lists tell the truth now, and they did at every moment. -/
structure Known (notes : List (Moment σ)) (state : State σ) : Prop where
  /-- The lists tell the truth now. -/
  now : Truthful notes state
  /-- They did so at each moment, of what had come before it. -/
  past : ∀ moment earlier, (moment :: earlier) <:+ notes → Truthful (moment :: earlier) moment.state

/-- A moment may be noted at which the lists tell the truth. -/
theorem Known.note {notes : List (Moment σ)} {state : State σ} (known : Known notes state)
    {moment : Moment σ} (truthful : Truthful (moment :: notes) moment.state) :
    Known (moment :: notes) moment.state where
  now := truthful
  past := by
    intro other earlier within
    rcases List.suffix_cons_iff.mp within with whole | before
    · obtain ⟨rfl, rfl⟩ := List.cons.inj whole
      exact truthful
    · exact known.past other earlier before

/-- In a valid graph, that the lists of names tell the truth is invariant. -/
theorem invariant {root : Graph} {maxDepth : Nat} (valid : root.IsValid) :
    Invariant root maxDepth (fun _ (notes : List (Moment σ)) state => Known notes state)
      fun notes => ∀ moment earlier, (moment :: earlier) <:+ notes →
        Truthful (moment :: earlier) moment.state where
  aborts := fun known => known.past
  fields := by
    intro frame notes state state' known contexts templates _
    refine ⟨known.now.quiet (fun {id new} there => ?_) fun name => ?_, known.past⟩
    · exact ⟨new, contexts ▸ there, rfl, rfl⟩
    · rw [templates]
      exact fun held => held
  searches := fun _ known _ => known.note (known.now.note rfl fun _ _ => by simp [Moment.begins])
  stepBegins := by
    intro frame notes state id context step orderly known alive member acts fresh
    have inside := orderly.within.graphs alive
    exact known.note (known.now.begin alive (valid.of_includes inside) member acts fresh)
  stepPublishes := fun _ known alive _ =>
    known.note ((known.now.publish alive _ _ _).note rfl fun _ _ => by simp [Moment.begins])
  stepDefines := by
    intro frame notes state id step graph _ known _ _
    have defined : Truthful notes (state.define step.name graph) :=
      known.now.quiet (fun {_ new} there => ⟨new, there, rfl, rfl⟩)
        fun _ => Memoization.isSome_find?_insert
    exact known.note (defined.note rfl fun _ _ => by simp [Moment.begins])
  callBegins := by
    intro frame notes state id context name graph _ known alive defined fresh
    exact ⟨known.now.call alive (by rw [defined]; rfl) fresh, known.past⟩
  callPublishes := fun _ known alive => ⟨known.now.publish alive _ _ _, known.past⟩
  activates := fun _ known _ _ => known.note (known.now.note rfl fun _ _ => by simp [Moment.begins])
  enters := by
    intro frame notes state name graph inputs caller _ known _ _ _
    have noted : Known (⟨.activate name graph inputs caller, false, state⟩ :: notes) state :=
      known.note (known.now.note rfl fun _ _ => by simp [Moment.begins])
    exact ⟨noted.now.enter rfl graph inputs caller, noted.past⟩
  leaves := by
    intro frame earlier before notes state name graph inputs caller _ _ _ _ known
    have left : Truthful notes state.leave :=
      known.now.quiet (fun {_ new} there => ⟨new, (State.of_getElem?_leave there).2, rfl, rfl⟩)
        fun _ held => held
    exact known.note (left.note rfl fun _ _ => by simp [Moment.begins])

/-- At each moment of a run of a valid graph, and for every step of the graph of a context that is
alive, the list of the context is right about the step unless the step bears the name of a call: the
step is listed exactly when it has begun in the context, and then it has begun once. If its name is
that of the call of a template defined by then, it may be listed without having begun; a step that
is not listed has not begun in any case. -/
theorem listed_steps_have_begun (settings : Settings σ) {root : Graph} (valid : root.IsValid)
    (inputs : Value) (state : State σ) {position : Nat} {moment : Moment σ}
    (there : (Run.history settings root inputs state)[position]? = some moment) {id : ContextId}
    {context : Context} (alive : moment.state.contexts[id]? = some context) {step : Step}
    (member : step ∈ context.graph) (acts : step.isComment = false) :
    let times := timesBegun id step
      ((Run.history settings root inputs state).take (position + 1)).reverse
    (context.hasExecuted step.name = false → times = 0) ∧
      (context.hasExecuted step.name = true →
        times = 1 ∨ times = 0 ∧ step.NamesCall moment.state.templates) := by
  have starts : Known ([] : List (Moment σ)) state.reset := by
    refine ⟨nofun, fun moment earlier within => ?_⟩
    cases List.suffix_nil.mp within
  have truthful : ∀ moment earlier,
      (moment :: earlier) <:+ (Run.history settings root inputs state).reverse →
        Truthful (moment :: earlier) moment.state :=
    (invariant valid).history inputs state starts
  intro times
  have upto : ((Run.history settings root inputs state).take (position + 1)).reverse =
      moment :: ((Run.history settings root inputs state).take position).reverse :=
    reverse_take_of_getElem? there
  have within : moment :: ((Run.history settings root inputs state).take position).reverse <:+
      (Run.history settings root inputs state).reverse := by
    rw [← upto]
    exact List.reverse_suffix.mpr (List.take_prefix _ _)
  have told := truthful moment _ within id context alive step member acts
  rw [← upto] at told
  exact ⟨told.unlisted, told.listed⟩

/-- A graph in which a path calls a template, with a step of the name that the call is listed
under. -/
def callNamedGraph : Graph :=
  [.graph ⟨"t", false, none⟩ {} (.inline []),
   .action ⟨"a", false, none⟩ (.alias "t"),
   .action ⟨"__implicit__t", false, none⟩ (.static (.number (.integer 1)))]

/-- A run of that graph without registered functions. -/
def callNamedRun : List (Moment Unit) :=
  Run.history ⟨Registry.empty, {}⟩ callNamedGraph (.object []) (State.start ())

/-- The moment of that run at which the path has been followed. -/
def pathFollowed : Moment Unit := callNamedRun.get ⟨8, by decide +kernel⟩

/-- The context of that run at that moment. -/
def followingContext : Context := pathFollowed.state.contexts.get ⟨0, by decide +kernel⟩

/-- The step that follows the path is listed and has begun once. -/
theorem path_step_has_begun :
    callNamedGraph.IsValid ∧ callNamedRun[8]? = some pathFollowed ∧
      pathFollowed.state.contexts[0]? = some followingContext ∧
      followingContext.hasExecuted "a" = true ∧
      timesBegun 0 (.action ⟨"a", false, none⟩ (.alias "t")) (callNamedRun.take 9).reverse = 1 := by
  have valid : callNamedGraph.IsValid := by decide +kernel
  have there : callNamedRun[8]? = some pathFollowed := List.getElem?_eq_getElem _
  have alive : pathFollowed.state.contexts[0]? = some followingContext :=
    List.getElem?_eq_getElem _
  have run : followingContext.hasExecuted "a" = true := by decide +kernel
  have member : Step.action ⟨"a", false, none⟩ (.alias "t") ∈ followingContext.graph := by
    decide +kernel
  have told := listed_steps_have_begun ⟨Registry.empty, {}⟩ valid (.object []) (State.start ())
    there alive member rfl
  refine ⟨valid, there, alive, run, ?_⟩
  rcases told.2 run with once | ⟨-, template, same, -⟩
  · exact once
  · have spelled := congrArg String.toList same
    rw [String.toList_append] at spelled
    simp [Step.name, Step.header, implicitCallMark] at spelled

/-- The step with the name of the call is listed as well, and it never begins. -/
theorem call_named_step_never_begins :
    ¬∀ (root : Graph), root.IsValid → ∀ (position : Nat) (moment : Moment Unit),
      (Run.history ⟨Registry.empty, {}⟩ root (.object []) (State.start ()))[position]? =
          some moment →
        ∀ (id : ContextId) context, moment.state.contexts[id]? = some context →
          ∀ step ∈ context.graph, step.isComment = false →
            context.hasExecuted step.name = true →
              ∃ earlier ∈ Run.history ⟨Registry.empty, {}⟩ root (.object []) (State.start ()),
                earlier.begins id step = true := by
  intro sound
  have begins := sound callNamedGraph (by decide +kernel) 8 pathFollowed
    (List.getElem?_eq_getElem _) 0 followingContext (List.getElem?_eq_getElem _)
    (.action ⟨"__implicit__t", false, none⟩ (.static (.number (.integer 1)))) (by decide +kernel)
    rfl (by decide +kernel)
  revert begins
  decide +kernel

end ExecutedNames

end StepGraph
