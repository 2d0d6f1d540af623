import StepGraph.Transform.Standard

/-!
# Pure registries

A registry is pure when its functions answer without regard to the host state. It is enough that
its plain functions do, since a composite answers with what it calls, and the standard functions
are pure. Any registry answers alike in one and the same host state.
-/
namespace StepGraph

variable {σ α β : Type}

/-- An entry that answers without regard to the host state, if it answers by itself. -/
def Entry.IsPure : Entry σ → Prop
  | .plain run => ∀ params host host', (run params host).result = (run params host').result
  | .composite _ => True

/-- A registry whose functions answer without regard to their host state. -/
def Registry.IsPure (registry : Registry σ) : Prop :=
  ∀ name params host host',
    (registry.call name params host).result = (registry.call name params host').result

/-- Host states in which a registry answers alike, now and later: the same one, or any two where it
is pure. -/
def Registry.AnswersAlike (registry : Registry σ) (host host' : σ) : Prop :=
  host = host' ∨ registry.IsPure

/-- Where a registry answers alike, it gives the same answer and goes on to answer alike. -/
theorem Registry.AnswersAlike.call {registry : Registry σ} {host host' : σ}
    (alike : registry.AnswersAlike host host') (name : String) (params : Value) :
    (registry.call name params host).result = (registry.call name params host').result ∧
      registry.AnswersAlike (registry.call name params host).host
        (registry.call name params host').host := by
  rcases alike with rfl | pure
  · exact ⟨rfl, .inl rfl⟩
  · exact ⟨pure name params host host', .inr pure⟩

/-- Calls that answer without regard to the host state do so together. -/
theorem Reply.gather_result {run : α → σ → Reply σ β}
    (pure : ∀ call host host', (run call host).result = (run call host').result) (calls : List α)
    (host host' : σ) : (gather run calls host).result = (gather run calls host').result := by
  induction calls generalizing host host' with
  | nil => rfl
  | cons call rest ih =>
    simp only [gather]
    rw [pure call host host']
    cases (run call host').result with
    | error failure => rfl
    | ok value =>
      dsimp only
      rw [ih (run call host).host (run call host').host]

namespace Registry

/-- A registry is pure when its entries are. -/
theorem isPure_of_entries {registry : Registry σ}
    (entries : ∀ entry ∈ registry.entries, entry.2.IsPure) : registry.IsPure := by
  intro name params
  induction rank : Composite.rank params using Nat.strongRecOn generalizing name params with
  | ind bound ih =>
    subst rank
    intro host host'
    rw [call, call]
    cases found : Dictionary.find? registry.entries name with
    | none => rfl
    | some entry =>
      cases entry with
      | plain run => exact entries _ (Dictionary.mem_of_find?_eq_some found) params host host'
      | composite composite =>
        dsimp only
        split
        · rfl
        · rename_i function calls planned
          dsimp only
          rw [Reply.gather_result (fun call host host' =>
            ih _ (Composite.plan_rank planned call.val call.property) function call.val rfl
              host host') calls.attach host host']

/-- The standard entries are a function of their parameters alone, or one of three others. -/
theorem mem_standard {entry : String × Entry σ}
    (member : entry ∈ (standard : Registry σ).entries) :
    entry ∈ pureFunctions.map (fun named => (named.1, Entry.plain (pureFunction named.2))) ++
      [("roundCurrency", Entry.plain roundCurrency), ("map", .composite .map),
        ("vectorOp", .composite .vectorOp)] := by
  unfold standard at member
  generalize pureFunctions.map _ ++ _ = pairs at member ⊢
  exact Dictionary.mem_of_mem_ofList member

/-- The standard functions are pure. -/
theorem standard_isPure : (standard : Registry σ).IsPure := by
  refine isPure_of_entries fun entry member => ?_
  rcases List.mem_append.mp (mem_standard member) with plain | other
  · obtain ⟨named, -, rfl⟩ := List.mem_map.mp plain
    exact fun _ _ _ => rfl
  · simp only [List.mem_cons, List.not_mem_nil, or_false] at other
    rcases other with rfl | rfl | rfl
    · intro params host host'
      simp only [roundCurrency]
      split <;> rfl
    · trivial
    · trivial

end Registry

end StepGraph
