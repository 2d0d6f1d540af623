import StepGraph.Proofs.Running.Journal
import StepGraph.Proofs.Running.Mirror

/-!
# Calls of functions

The functions that a run calls are listed by a registry that keeps the list beside the host state:
each of its functions answers as the one of the same name in the registry that it was made from, and
adds the call to the list. A run with such a registry mirrors the run without the list, so that the
list says what the run itself calls. A composite is listed once: what it calls in turn is up to its
parameters and to the host state.
-/
namespace StepGraph

variable {σ α : Type}

/-- A call of a registered function. -/
structure FunctionCall where
  /-- The name of the function. -/
  function : String
  /-- What it is given. -/
  params : Value
deriving DecidableEq

/-- A function that answers as the one of this name in a registry, and lists the call. -/
def Registry.listing (registry : Registry σ) (name : String) : Entry (σ × List FunctionCall) :=
  .plain fun params host =>
    let reply := registry.call name params host.1
    ⟨reply.result, reply.warnings, (reply.host, host.2 ++ [⟨name, params⟩])⟩

/-- The functions of a registry, each listing its calls. -/
def Registry.recording (registry : Registry σ) : Registry (σ × List FunctionCall) :=
  ⟨registry.entries.map fun entry => (entry.1, registry.listing entry.1)⟩

/-- Settings whose functions list their calls. -/
def Settings.recording (settings : Settings σ) : Settings (σ × List FunctionCall) :=
  ⟨settings.registry.recording, settings.config⟩

/-- The calls of functions that an outcome comes with. -/
def Outcome.calls : Outcome (σ × List FunctionCall) α → List FunctionCall
  | .done _ state => state.host.2
  | .failed _ state => state.host.2
  | .stuck _ => []

namespace Run

/-- The calls of functions in a run of a graph, in order. -/
def graphCalls (settings : Settings σ) (graph : Graph) (inputs : Value) (state : State σ) :
    List FunctionCall :=
  (Run.graph settings.recording graph inputs (state.carrying [])).calls

/-- The calls of functions in a run of a document, in order. -/
def documentCalls (settings : Settings σ) (stored inputs : Value) (state : State σ) :
    List FunctionCall :=
  (Run.document settings.recording stored inputs (state.carrying [])).calls

end Run

namespace Registry

variable (registry : Registry σ)

/-- What is registered under a name lists the calls of it. -/
theorem find?_recording (name : String) :
    Dictionary.find? registry.recording.entries name =
      (Dictionary.find? registry.entries name).map fun _ => registry.listing name :=
  Dictionary.find?_map_entries (fun name _ => registry.listing name) registry.entries name

/-- The same functions are registered. -/
theorem recording_contains (name : String) :
    registry.recording.contains name = registry.contains name := by
  rw [contains, Dictionary.contains, find?_recording, Option.isSome_map]
  rfl

/-- A function that is registered answers as before and lists the call. -/
theorem call_recording {name : String} (registered : registry.contains name = true)
    (params : Value) (host : σ × List FunctionCall) :
    registry.recording.call name params host =
      ⟨(registry.call name params host.1).result, (registry.call name params host.1).warnings,
        ((registry.call name params host.1).host, host.2 ++ [⟨name, params⟩])⟩ := by
  obtain ⟨entry, found⟩ := Option.isSome_iff_exists.mp registered
  have there := registry.find?_recording name
  rw [found, Option.map_some] at there
  rw [call, there]
  rfl

/-- Without a function there is nothing to list. -/
theorem call_of_missing {name : String} (missing : registry.contains name = false)
    (params : Value) (host : σ) :
    registry.call name params host = ⟨.error (.notFound name), [], host⟩ := by
  have nothing : Dictionary.find? registry.entries name = none := by
    simpa [contains, Dictionary.contains] using missing
  rw [call, nothing]

/-- Listing its calls changes no answer of a function. -/
theorem call_recording_fst (name : String) (params : Value) (host : σ × List FunctionCall) :
    (registry.recording.call name params host).result =
        (registry.call name params host.1).result ∧
      (registry.recording.call name params host).warnings =
        (registry.call name params host.1).warnings ∧
      (registry.recording.call name params host).host.1 =
        (registry.call name params host.1).host := by
  cases registered : registry.contains name with
  | true =>
    rw [registry.call_recording registered]
    exact ⟨rfl, rfl, rfl⟩
  | false =>
    rw [registry.call_of_missing registered,
      call_of_missing _ ((registry.recording_contains name).trans registered)]
    exact ⟨rfl, rfl, rfl⟩

end Registry

/-- A run that lists its calls mirrors the run without the list. -/
def Mirror.recording (settings : Settings σ) : Mirror settings.recording settings (.same .whole) :=
  .same (fun host host' => host.1 = host') (fun log log' => log' = log)
    { maxDepth := rfl
      contains := settings.registry.recording_contains
      calls := by
        rintro host _ function params rfl
        exact settings.registry.call_recording_fst function params host }
    (by
      rintro log _ warning rfl
      rfl)
    (by
      rintro log _ event - rfl
      rfl)

/-- Outcomes that agree and leave the same list have the same calls. -/
theorem Outcome.Agrees.calls_eq
    {fail : State (σ × List FunctionCall) → State (σ × List FunctionCall) → Prop}
    {first second : Outcome (σ × List FunctionCall) α}
    (agree : first.Agrees False fail (fun _ => fail) second)
    (lists : ∀ state state', fail state state' → state.host.2 = state'.host.2) :
    first.calls = second.calls := by
  cases agree with
  | done value related => exact lists _ _ related
  | failed failure related => exact lists _ _ related
  | stuck reason _ passes => exact passes.elim

/-- A run of a graph that lists its calls ends as the run without the list does. -/
theorem Run.graph_recording (settings : Settings σ) (graph : Graph) (inputs : Value)
    (state : State σ) :
    Outcome.Agrees False (fun first second => first.host.1 = second.host ∧ first.log = second.log)
      (fun _ first second => first.host.1 = second.host ∧ first.log = second.log)
      (Run.graph settings.recording graph inputs (state.carrying []))
      (Run.graph settings graph inputs state) := by
  have begun : (Mirror.recording settings).Surroundings (state.carrying []) state := ⟨rfl, rfl⟩
  exact ((Mirror.recording settings).graph_agrees ⟨rfl, trivial⟩ inputs begun).mono
    (fun _ _ _ surroundings => ⟨surroundings.1, surroundings.2.symm⟩)
    fun _ _ surroundings => ⟨surroundings.1, surroundings.2.symm⟩

end StepGraph
