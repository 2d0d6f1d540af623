import Mathlib.Data.List.Forall2
import StepGraph.Evaluation.Activation

/-!
# Agreement of runs

Two runs agree when, started in related states, they come to the same value or to the same
failure and leave related states again. A run that is stuck agrees with anything where stuck runs
are let pass, and with nothing otherwise, so that agreement of a run with itself also says that it
ends. Statements about two runs of the interpreter and invariants of one run are both agreements;
the rules here follow the ways in which runs are put together.
-/
namespace StepGraph

variable {σ τ α β γ : Type}

/-- Agreement of two outcomes. -/
inductive Outcome.Agrees (lenient : Prop) (fail : State σ → State τ → Prop)
    (post : α → State σ → State τ → Prop) : Outcome σ α → Outcome τ α → Prop where
  /-- Both have the same value. -/
  | done {left : State σ} {right : State τ} (value : α) (related : post value left right) :
    Agrees lenient fail post (.done value left) (.done value right)
  /-- Both have the same failure. -/
  | failed {left : State σ} {right : State τ} (failure : Failure) (related : fail left right) :
    Agrees lenient fail post (.failed failure left) (.failed failure right)
  /-- The first has no end, and that is let pass. -/
  | stuck (reason : Stuck) (other : Outcome τ α) (passes : lenient) :
    Agrees lenient fail post (.stuck reason) other

/-- An outcome that is not stuck. -/
def Outcome.HasEnd : Outcome σ α → Prop
  | .stuck _ => False
  | _ => True

/-- An outcome that is not stuck is a value or a failure. -/
theorem Outcome.HasEnd.done_or_failed {outcome : Outcome σ α} (ends : outcome.HasEnd) :
    (∃ value last, outcome = .done value last) ∨
      ∃ failure last, outcome = .failed failure last := by
  cases outcome with
  | done value last => exact .inl ⟨value, last, rfl⟩
  | failed failure last => exact .inr ⟨failure, last, rfl⟩
  | stuck reason => exact ends.elim

/-- Outcomes that have the same value or the same failure, whatever states they leave. -/
abbrev Outcome.SameResult (left : Outcome σ α) (right : Outcome τ α) : Prop :=
  left.Agrees False (fun _ _ => True) (fun _ _ _ => True) right

namespace Outcome.Agrees

variable {lenient : Prop} {fail : State σ → State τ → Prop}
  {post : α → State σ → State τ → Prop} {left : Outcome σ α} {right : Outcome τ α}

/-- Agreement carries over to weaker relations. -/
theorem mono {fail' : State σ → State τ → Prop} {post' : α → State σ → State τ → Prop}
    (agree : Agrees lenient fail post left right)
    (posts : ∀ value left right, post value left right → post' value left right)
    (fails : ∀ left right, fail left right → fail' left right) :
    Agrees lenient fail' post' left right := by
  cases agree with
  | done value related => exact .done value (posts _ _ _ related)
  | failed failure related => exact .failed failure (fails _ _ related)
  | stuck reason _ passes => exact .stuck reason _ passes

/-- What agrees with a run that ends, were it stuck or not, agrees with it. -/
theorem strict (agree : Agrees lenient fail post left right) (ends : left.HasEnd) :
    Agrees False fail post left right := by
  cases agree with
  | done value related => exact .done value related
  | failed failure related => exact .failed failure related
  | stuck reason _ _ => exact ends.elim

/-- What agrees with a run that ends has the same result. -/
theorem sameResult (agree : Agrees lenient fail post left right) (ends : left.HasEnd) :
    left.SameResult right := by
  cases agree with
  | done value _ => exact .done value trivial
  | failed failure _ => exact .failed failure trivial
  | stuck reason _ _ => exact ends.elim

/-- What agrees with a value has that value. -/
theorem of_done {value : α} {state : State σ}
    (agree : Agrees lenient fail post (.done value state) right) :
    ∃ state', right = .done value state' ∧ post value state state' := by
  cases agree with
  | done _ related => exact ⟨_, rfl, related⟩

/-- What agrees with a failure has that failure. -/
theorem of_failed {failure : Failure} {state : State σ}
    (agree : Agrees lenient fail post (.failed failure state) right) :
    ∃ state', right = .failed failure state' ∧ fail state state' := by
  cases agree with
  | failed _ related => exact ⟨_, rfl, related⟩

end Outcome.Agrees

namespace Run

/-- Agreement of two runs that start in related states. -/
def Agrees (lenient : Prop) (fail pre : State σ → State τ → Prop)
    (post : α → State σ → State τ → Prop) (first : Run σ α) (second : Run τ α) : Prop :=
  ∀ left right, pre left right → (first left).Agrees lenient fail post (second right)

/-- Agreement of two runs that keep a relation of states. -/
abbrev Preserve (lenient : Prop) (fail keep : State σ → State τ → Prop) (first : Run σ α)
    (second : Run τ α) : Prop :=
  Agrees lenient fail keep (fun _ => keep) first second

/-- Going on with the value of a run as it is changes nothing. -/
theorem map_id_apply (run : Run σ α) : id <$> run = run := by
  funext state
  show (Run.andThen run fun value => Run.done (id value)) state = run state
  unfold Run.andThen
  cases run state <;> rfl

/-- Going on twice is going on with a run that goes on. -/
theorem andThen_assoc (run : Run σ α) (next : α → Run σ β) (last : β → Run σ γ) :
    run >>= next >>= last = run >>= fun value => next value >>= last := by
  funext state
  show Run.andThen (Run.andThen run next) last state =
    Run.andThen run (fun value => Run.andThen (next value) last) state
  unfold Run.andThen
  cases run state <;> rfl

instance : LawfulMonad (Run σ) :=
  LawfulMonad.mk' (Run σ) map_id_apply (fun _ _ => rfl) andThen_assoc

/-- A run goes on in the state that the value before it left. -/
theorem bind_apply_of_done {first : Run σ α} {next : α → Run σ β} {state middle : State σ}
    {value : α} (ended : first state = .done value middle) :
    (first >>= next) state = next value middle := by
  show Run.andThen first next state = _
  simp only [Run.andThen, ended]

/-- A run whose first part fails has failed. -/
theorem bind_apply_of_failed {first : Run σ α} {next : α → Run σ β} {state middle : State σ}
    {failure : Failure} (ended : first state = .failed failure middle) :
    (first >>= next) state = .failed failure middle := by
  show Run.andThen first next state = _
  simp only [Run.andThen, ended]

/-- A run whose first part is stuck is stuck. -/
theorem bind_apply_of_stuck {first : Run σ α} {next : α → Run σ β} {state : State σ}
    {reason : Stuck} (ended : first state = .stuck reason) :
    (first >>= next) state = .stuck reason := by
  show Run.andThen first next state = _
  simp only [Run.andThen, ended]

/-- A run with a value went through a value of its first part. -/
theorem exists_of_bind_eq_done {first : Run σ α} {next : α → Run σ β} {state final : State σ}
    {value : β} (ended : (first >>= next) state = .done value final) :
    ∃ result middle, first state = .done result middle ∧
      next result middle = .done value final := by
  have unfolded : Run.andThen first next state = .done value final := ended
  unfold Run.andThen at unfolded
  cases outcome : first state with
  | done result middle => exact ⟨result, middle, rfl, by simpa only [outcome] using unfolded⟩
  | failed failure middle => simp only [outcome, reduceCtorEq] at unfolded
  | stuck reason => simp only [outcome, reduceCtorEq] at unfolded

/-- The results of a list are that of its first item and then those of the others. -/
theorem exists_of_collect_cons_eq_done {action : α → Run σ β} {item : α}
    {rest : List α} {state final : State σ} {results : List β}
    (ends : collect action (item :: rest) state = .done results final) :
    ∃ result middle others, action item state = .done result middle ∧
      collect action rest middle = .done others final ∧ results = result :: others := by
  obtain ⟨result, middle, acted, later⟩ := exists_of_bind_eq_done ends
  obtain ⟨others, last, collected, same⟩ := exists_of_bind_eq_done later
  cases same
  exact ⟨result, middle, others, acted, collected, rfl⟩

/-- The result of the first item comes before those of the others. -/
theorem collect_cons_apply {action : α → Run σ β} {item : α} {rest : List α}
    {state middle final : State σ} {result : β} {others : List β}
    (acted : action item state = .done result middle)
    (collected : collect action rest middle = .done others final) :
    collect action (item :: rest) state = .done (result :: others) final := by
  rw [collect, bind_apply_of_done acted, bind_apply_of_done collected]
  rfl

/-- Each result of a list comes from its item, once the results of the items before it have been
found. -/
theorem exists_of_collect_eq_done {action : α → Run σ β} {items : List α}
    {state final : State σ} {results : List β}
    (ends : collect action items state = .done results final) :
    results.length = items.length ∧
      ∀ position item, items[position]? = some item → ∃ before result after,
        collect action (items.take position) state = .done (results.take position) before ∧
          action item before = .done result after ∧ results[position]? = some result := by
  induction items generalizing state results with
  | nil =>
    cases ends
    exact ⟨rfl, nofun⟩
  | cons first rest ih =>
    obtain ⟨result, middle, others, acted, collected, rfl⟩ :=
      exists_of_collect_cons_eq_done ends
    obtain ⟨lengths, each⟩ := ih collected
    refine ⟨by rw [List.length_cons, List.length_cons, lengths], fun position item there => ?_⟩
    cases position with
    | zero =>
      obtain rfl := Option.some.inj there
      exact ⟨state, result, middle, rfl, acted, rfl⟩
    | succ position =>
      obtain ⟨before, found, after, earlier, acts, placed⟩ := each position item there
      refine ⟨before, found, after, ?_, acts, placed⟩
      rw [List.take_succ_cons, List.take_succ_cons]
      exact collect_cons_apply acted earlier

section Rules

variable {lenient : Prop} {fail pre keep : State σ → State τ → Prop}
  {post : α → State σ → State τ → Prop}

/-- The same value agrees with itself. -/
theorem agrees_pure (value : α) (keeps : ∀ left right, pre left right → post value left right) :
    Agrees lenient fail pre post (pure value : Run σ α) (pure value : Run τ α) :=
  fun left right related => .done value (keeps left right related)

/-- The same value agrees with itself and leaves the states alone. -/
theorem preserve_pure (value : α) :
    Preserve lenient fail keep (pure value : Run σ α) (pure value : Run τ α) :=
  agrees_pure value fun _ _ => id

/-- The same failure agrees with itself. -/
theorem agrees_fail (failure : Failure) (keeps : ∀ left right, pre left right → fail left right) :
    Agrees lenient fail pre post (Run.fail failure : Run σ α) (Run.fail failure : Run τ α) :=
  fun left right related => .failed failure (keeps left right related)

/-- Agreement goes through a sequence of two runs. -/
theorem agrees_bind {mid : α → State σ → State τ → Prop} {post : β → State σ → State τ → Prop}
    {first : Run σ α} {second : Run τ α} {next : α → Run σ β} {next' : α → Run τ β}
    (agree : Agrees lenient fail pre mid first second)
    (onward : ∀ value, Agrees lenient fail (mid value) post (next value) (next' value)) :
    Agrees lenient fail pre post (first >>= next) (second >>= next') := by
  intro left right related
  show (Run.andThen first next left).Agrees lenient fail post (Run.andThen second next' right)
  have start := agree left right related
  unfold Run.andThen
  generalize first left = outcome at start ⊢
  generalize second right = other at start ⊢
  cases start with
  | done value related => exact onward value _ _ related
  | failed failure related => exact .failed failure related
  | stuck reason _ passes => exact .stuck reason _ passes

/-- Agreement goes through a second look for what the first did not find. -/
theorem preserve_orElse {first second : Run σ (Option α)} {first' second' : Run τ (Option α)}
    (one : Preserve lenient fail keep first first')
    (two : Preserve lenient fail keep second second') :
    Preserve lenient fail keep (Run.orElse first second) (Run.orElse first' second') := by
  refine agrees_bind one fun found => ?_
  cases found with
  | some value => exact preserve_pure _
  | none => exact two

/-- Agreement goes through doing something for each item of two lists whose items are paired. -/
theorem preserve_forEach_paired {action : α → Run σ Unit} {action' : α → Run τ Unit}
    {items items' : List α}
    (pairs : List.Forall₂ (fun item item' => Preserve lenient fail keep (action item)
      (action' item')) items items') :
    Preserve lenient fail keep (Run.forEach action items) (Run.forEach action' items') := by
  induction pairs with
  | nil => exact preserve_pure _
  | cons first rest ih => exact agrees_bind first fun _ => ih

/-- Agreement goes through doing something for each item of a list. -/
theorem preserve_forEach {action : α → Run σ Unit} {action' : α → Run τ Unit} {items : List α}
    (each : ∀ item ∈ items, Preserve lenient fail keep (action item) (action' item)) :
    Preserve lenient fail keep (Run.forEach action items) (Run.forEach action' items) :=
  preserve_forEach_paired (List.forall₂_same.mpr each)

end Rules

end Run

end StepGraph
