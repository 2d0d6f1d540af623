import StepGraph.Text.Quoted
import StepGraph.Transform.Composite
import StepGraph.Warning

/-!
# Registries of functions

A registry holds functions by name. A plain function answers parameters and may change a host
state, which belongs to whoever registered it; a composite calls other functions of the
registry, one planned call after the other up to the first failure. The ranks of planned
parameters fall, so a call ends whatever functions call each other.
-/
namespace StepGraph

/-- What a call comes to. -/
structure Reply (σ α : Type) where
  /-- The answer or the failure. -/
  result : Except TransformError α
  /-- What was reported on the way. -/
  warnings : List Warning
  /-- The host state afterwards. -/
  host : σ

/-- A registered function. -/
inductive Entry (σ : Type) where
  /-- A function on its own. -/
  | plain (run : Value → σ → Reply σ Value)
  /-- A function that calls others. -/
  | composite (composite : Composite)

/-- Functions by name. -/
structure Registry (σ : Type) where
  /-- The entries. -/
  entries : Dictionary (Entry σ)

namespace Reply

variable {σ α β : Type}

/-- Answer each call in turn, up to the first failure. -/
def gather (run : α → σ → Reply σ β) : List α → σ → Reply σ (List β)
  | [], host => ⟨.ok [], [], host⟩
  | call :: rest, host =>
    let first := run call host
    match first.result with
    | .error failure => ⟨.error failure, first.warnings, first.host⟩
    | .ok value =>
      let others := gather run rest first.host
      ⟨others.result.map (value :: ·), first.warnings ++ others.warnings, others.host⟩

end Reply

namespace Registry

variable {σ : Type}

/-- The registry without functions. -/
def empty : Registry σ := ⟨[]⟩

/-- Register a function, in place of any function of that name. -/
def register (registry : Registry σ) (name : String) (run : Value → σ → Reply σ Value) :
    Registry σ :=
  ⟨Dictionary.insert registry.entries name (.plain run)⟩

/-- Whether a name is registered. -/
def contains (registry : Registry σ) (name : String) : Bool :=
  Dictionary.contains registry.entries name

/-- The registered names in order. -/
def names (registry : Registry σ) : List String := Dictionary.keys registry.entries

/-- A summary for reading: the registered names. -/
def summary (registry : Registry σ) : String :=
  "TransformRegistry \x7b functions: " ++ Text.quotedList registry.names ++ " \x7d"

/-- Call a function by name. -/
def call (registry : Registry σ) (name : String) (params : Value) (host : σ) : Reply σ Value :=
  match Dictionary.find? registry.entries name with
  | none => ⟨.error (.notFound name), [], host⟩
  | some (.plain run) => run params host
  | some (.composite composite) =>
    match planned : composite.plan registry.contains params with
    | .error failure => ⟨.error failure, [], host⟩
    | .ok (function, calls) =>
      let answered := Reply.gather
        (fun (item : { call // call ∈ calls }) (host : σ) =>
          have : Composite.rank item.val < Composite.rank params :=
            Composite.plan_rank planned item.val item.property
          registry.call function item.val host)
        calls.attach host
      ⟨answered.result.map .array, answered.warnings, answered.host⟩
termination_by Composite.rank params

end Registry

end StepGraph
