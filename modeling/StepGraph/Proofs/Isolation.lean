import StepGraph.Proofs.Discipline

/-!
# Isolation of activations

An activation without a caller to read from, of a body that is run in a context of its own once or
for each element of a collection, is isolated from the run that it is part of. Whether it has an
output or fails, all contexts that were alive before it are afterwards what they were; and what it
comes to, as well as the templates that it leaves, is the same in any two runs in which it begins
equally deep with the same templates, whatever graphs these runs are of and whatever has been
published and run in them so far.

The name of an activation is no exception: it matters only where activations are nested as deeply
as allowed, where it is the name that the failure bears.
-/
namespace StepGraph

variable {σ : Type}

/-- A moment of a run of a graph at which an activation without a caller begins. -/
structure Moment.Enters (settings : Settings σ) (root : Graph) (name : String) (graph : Graph)
    (given : Option Value) (moment : Moment σ) : Prop where
  /-- A run comes to it. -/
  reached : ∃ inputs state, moment ∈ Run.history settings root inputs state
  /-- The call is an activation without a caller. -/
  called : moment.call = .activate name graph given none
  /-- It begins. -/
  begins : moment.ended = false

namespace Isolation

open Interpreter

variable {settings left right : Settings σ} {graph : Graph} {given : Option Value}
  {caller : Option ContextId} {state : State σ}

/-- Activations are nested as deeply as allowed: another one fails, and nothing changes. -/
theorem activate_of_deep (deep : settings.config.maxDepth ≤ state.depth) {n : Nat} {name : String}
    (ends : ((level settings n).activate name graph given caller state).HasEnd) :
    (level settings n).activate name graph given caller state =
      .failed (.cyclicReference name settings.config.maxDepth) state := by
  cases n with
  | zero => exact ends.elim
  | succ below =>
    show nested settings (level settings below) name graph given caller state = _
    rw [nested_apply, if_pos deep]

/-- Where another activation may be nested, its name does not matter. -/
theorem activate_name_eq (shallow : state.depth < settings.config.maxDepth) (n : Nat)
    (name other : String) :
    (level settings n).activate name graph given caller state =
      (level settings n).activate other graph given caller state := by
  cases n with
  | zero => rfl
  | succ below =>
    show nested settings (level settings below) name graph given caller state =
      nested settings (level settings below) other graph given caller state
    rw [nested_apply, nested_apply, if_neg (Nat.not_le_of_lt shallow),
      if_neg (Nat.not_le_of_lt shallow)]

/-- An activation without a caller comes to the same at any two levels at which it ends, in states
that are alike but for the contexts, and leaves the contexts as they are. -/
theorem agrees_activate_of_hasEnd (same : left.Alike right) {first second : State σ}
    (depths : first.depth = second.depth) (templates : first.templates = second.templates)
    (sizes : first.contexts.length = second.contexts.length)
    (hosts : left.registry.AnswersAlike first.host second.host) {name : String} {n m : Nat}
    (ends : ((level left n).activate name graph given none first).HasEnd)
    (ends' : ((level right m).activate name graph given none second).HasEnd) :
    Outcome.Agrees False (Restored first second) (fun _ => Restored first second)
      ((level left n).activate name graph given none first)
      ((level right m).activate name graph given none second) := by
  -- Both are compared with the same activation at a level that is not below theirs.
  have one := agrees_activate_apart same depths templates sizes hosts (Nat.le_max_left n m) name
    graph given
  have two := agrees_activate_apart (.refl right) (rfl : second.depth = second.depth) rfl rfl
    (.inl rfl) (Nat.le_max_right n m) name graph given
  generalize (level left n).activate name graph given none first = outcome at one ends ⊢
  generalize (level right m).activate name graph given none second = outcome' at two ends' ⊢
  generalize (level right (max n m)).activate name graph given none second = common at one two
  have joined {last last' middle : State σ} (this : Restored first second last middle)
      (that : Restored second second last' middle) : Restored first second last last' :=
    ⟨this.contexts, that.contexts, this.depth, that.depth,
      this.templates.trans that.templates.symm⟩
  cases one with
  | stuck => exact ends.elim
  | done value this =>
    cases two with
    | stuck => exact ends'.elim
    | done _ that => exact .done value (joined this that)
  | failed failure this =>
    cases two with
    | stuck => exact ends'.elim
    | failed _ that => exact .failed failure (joined this that)

/-- An activation that a run begins ends at every level that is enough for the run. -/
theorem hasEnd_of_enters {root : Graph} {name : String} {moment : Moment σ}
    (enters : moment.Enters settings root name graph given) (more : Nat) :
    ((level settings (sufficientLevel root settings.config.maxDepth + more)).activate name graph
      given none moment.state).HasEnd := by
  obtain ⟨_, _, reached⟩ := enters.reached
  obtain ⟨inside, below⟩ :=
    (Run.reached_of_mem_history reached).activates enters.called enters.begins
  exact (Outcome.eq_of_agrees_steady ((Run.sound_of_mem_history reached).agrees_activate
    (Nat.le_add_right _ more) (Nat.le_refl _) inside below name given)).2

/-- Activations without a caller are isolated. Two of the same graph on the same inputs, in whatever
runs they begin, end at sufficient levels; and at any two levels at which they end, they have the
same result, leave the same templates, and leave the contexts before them and the depth as they
were, as long as they begin equally deep with the same templates and functions. Where that is as
deep as allowed, both fail at once, each under its own name. -/
theorem activate_isolated (same : left.Alike right) {root root' : Graph} {name name' : String}
    {moment moment' : Moment σ} (enters : moment.Enters left root name graph given)
    (enters' : moment'.Enters right root' name' graph given)
    (depths : moment.state.depth = moment'.state.depth)
    (templates : moment.state.templates = moment'.state.templates)
    (hosts : left.registry.AnswersAlike moment.state.host moment'.state.host) :
    (∀ more, ((level left (sufficientLevel root left.config.maxDepth + more)).activate name graph
        given none moment.state).HasEnd) ∧
      (∀ more, ((level right (sufficientLevel root' right.config.maxDepth + more)).activate name'
        graph given none moment'.state).HasEnd) ∧
      ∀ n m, ((level left n).activate name graph given none moment.state).HasEnd →
        ((level right m).activate name' graph given none moment'.state).HasEnd →
        (name = name' ∨ moment.state.depth < left.config.maxDepth →
          Outcome.Agrees False (Restored moment.state moment'.state)
            (fun _ => Restored moment.state moment'.state)
            ((level left n).activate name graph given none moment.state)
            ((level right m).activate name' graph given none moment'.state)) ∧
        (left.config.maxDepth ≤ moment.state.depth →
          (level left n).activate name graph given none moment.state =
              .failed (.cyclicReference name left.config.maxDepth) moment.state ∧
            (level right m).activate name' graph given none moment'.state =
              .failed (.cyclicReference name' left.config.maxDepth) moment'.state) := by
  obtain ⟨_, _, reached⟩ := enters.reached
  obtain ⟨_, _, reached'⟩ := enters'.reached
  have sizes : moment.state.contexts.length = moment'.state.contexts.length := by
    rw [← (Run.stacked_of_mem_history reached).depth,
      ← (Run.stacked_of_mem_history reached').depth, depths]
  refine ⟨hasEnd_of_enters enters, hasEnd_of_enters enters', fun n m ends ends' =>
    ⟨fun names => ?_, fun deep => ?_⟩⟩
  · have renamed : (level right m).activate name' graph given none moment'.state =
        (level right m).activate name graph given none moment'.state := by
      rcases names with rfl | shallow
      · rfl
      · exact activate_name_eq (by rw [← depths, ← same.maxDepth]; exact shallow) m name' name
    rw [renamed] at ends' ⊢
    exact agrees_activate_of_hasEnd same depths templates sizes hosts ends ends'
  · refine ⟨activate_of_deep deep ends, ?_⟩
    rw [depths, same.maxDepth] at deep
    rw [same.maxDepth]
    exact activate_of_deep deep ends'

/-- A body that looks for an input, and for a step that only its caller has. -/
def outwardBody : Graph :=
  [.action ⟨"y", false, none⟩ (.alias "inputs.x"), .action ⟨"z", false, none⟩ (.alias "a")]

/-- Steps, and a last one that runs that body. -/
def outwardGraph (others : List Step) (name : String) : Graph :=
  others ++ [.graph ⟨name, false, none⟩ { inputs := some (.object [("x", .bool true)]) }
    (.inline outwardBody)]

/-- The step that the body looks for stands in front of it. -/
def outwardRoot : Graph := outwardGraph [.action ⟨"a", false, none⟩ (.static .null)] "m"

/-- Other steps stand in front of it, and the last step has another name. -/
def outwardRoot' : Graph :=
  outwardGraph [.action ⟨"q", false, none⟩ (.static (.bool true)),
    .action ⟨"r", true, none⟩ (.static (.bool false))] "n"

/-- The moments of a run with little depth and no registered functions. -/
def outwardMoments (root : Graph) : List (Moment Unit) :=
  Run.history ⟨Registry.empty, { maxDepth := 3 }⟩ root (.object []) (State.start ())

/-- The body has the same output in both runs, and leaves the contexts of both. -/
theorem outward_isolated :
    let settings : Settings Unit := ⟨Registry.empty, { maxDepth := 3 }⟩
    let given := some (Value.object [("x", .bool true)])
    ∃ moment moment' : Moment Unit, moment.Enters settings outwardRoot "m" outwardBody given ∧
      moment'.Enters settings outwardRoot' "n" outwardBody given ∧
      moment.state.contexts ≠ moment'.state.contexts ∧
      Outcome.Agrees False (Restored moment.state moment'.state)
        (fun _ => Restored moment.state moment'.state)
        ((level settings (sufficientLevel outwardRoot 3)).activate "m" outwardBody given none
          moment.state)
        ((level settings (sufficientLevel outwardRoot' 3)).activate "n" outwardBody given none
          moment'.state) := by
  intro settings given
  have enters : ((outwardMoments outwardRoot).get ⟨4, by decide +kernel⟩).Enters settings
      outwardRoot "m" outwardBody given :=
    ⟨⟨_, _, List.get_mem _ _⟩, by decide +kernel, by decide +kernel⟩
  have enters' : ((outwardMoments outwardRoot').get ⟨6, by decide +kernel⟩).Enters settings
      outwardRoot' "n" outwardBody given :=
    ⟨⟨_, _, List.get_mem _ _⟩, by decide +kernel, by decide +kernel⟩
  obtain ⟨ends, ends', same⟩ := activate_isolated (.refl settings) enters enters'
    (by decide +kernel) (by decide +kernel) (.inl rfl)
  exact ⟨_, _, enters, enters', by decide +kernel,
    (same _ _ (ends 0) (ends' 0)).1 (.inr (by decide +kernel))⟩

end Isolation

end StepGraph
