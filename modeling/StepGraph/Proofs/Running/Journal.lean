import StepGraph.Proofs.Running.Observation

/-!
# Journals

A journal lists the calls of a run as they begin and end, each with the state at that moment. It is
kept beside the state of the registered functions, which hand it on untouched, by an observer that
changes nothing else; `Run.history` is the journal of a whole run in order. Between two moments of
a journal at most one result is published, so that a journal misses no state that matters.
-/
namespace StepGraph

variable {σ μ : Type}

/-- A moment of a run. -/
structure Moment (σ : Type) where
  /-- The call that begins or ends. -/
  call : Call
  /-- Whether it ends. -/
  ended : Bool
  /-- The state, once a call has begun or ended. -/
  state : State σ

/-- A function that hands on what is kept beside its host state. -/
def Entry.carry : Entry σ → Entry (σ × μ)
  | .plain run => .plain fun params host =>
    let reply := run params host.1
    ⟨reply.result, reply.warnings, (reply.host, host.2)⟩
  | .composite chosen => .composite chosen

/-- The functions of a registry, handing on what is kept beside their host state. -/
def Registry.carry (registry : Registry σ) : Registry (σ × μ) :=
  ⟨registry.entries.map fun entry => (entry.1, entry.2.carry)⟩

/-- The settings whose functions hand on what is kept beside their host state. -/
def Settings.carry (settings : Settings σ) : Settings (σ × μ) :=
  ⟨settings.registry.carry, settings.config⟩

namespace State

/-- A state with something kept beside the state of the functions. -/
def carrying (state : State σ) (kept : μ) : State (σ × μ) :=
  ⟨state.contexts, state.templates, state.depth, (state.host, kept), state.log⟩

/-- A state without what is kept beside the state of the functions. -/
def forget (state : State (σ × μ)) : State σ :=
  ⟨state.contexts, state.templates, state.depth, state.host.1, state.log⟩

/-- Keep something else beside the state of the functions. -/
def keep (state : State (σ × μ)) (kept : μ) : State (σ × μ) :=
  { state with host := (state.host.1, kept) }

end State

/-- The observer that keeps a journal, the latest moment first. -/
def journal : Observer (σ × List (Moment σ)) where
  began := fun call state => state.keep (⟨call, false, state.forget⟩ :: state.host.2)
  ended := fun call state => state.keep (⟨call, true, state.forget⟩ :: state.host.2)

namespace Interpreter

/-- The operations at a level, keeping a journal. -/
def journaled (settings : Settings σ) (n : Nat) : Interpreter (σ × List (Moment σ)) :=
  observed settings.carry journal n

end Interpreter

/-- The journal that an outcome leaves, in order. -/
def Outcome.journal {α : Type} : Outcome (σ × List (Moment σ)) α → List (Moment σ)
  | .done _ state => state.host.2.reverse
  | .failed _ state => state.host.2.reverse
  | .stuck _ => []

/-- The moments of a run of a graph in order. -/
def Run.history (settings : Settings σ) (graph : Graph) (inputs : Value) (state : State σ) :
    List (Moment σ) :=
  ((Interpreter.journaled settings (sufficientLevel graph settings.config.maxDepth)).activate
    rootName graph (some inputs) none (state.reset.carrying [])).journal

/-- What a history has come to at a moment, the latest first, begins with that moment. -/
theorem reverse_take_of_getElem? {history : List (Moment σ)} {position : Nat} {moment : Moment σ}
    (there : history[position]? = some moment) :
    (history.take (position + 1)).reverse = moment :: (history.take position).reverse := by
  rw [List.take_add_one, there, Option.toList_some, List.reverse_append, List.reverse_singleton,
    List.singleton_append]

namespace Registry

/-- The same functions are registered. -/
theorem carry_contains (registry : Registry σ) :
    (registry.carry : Registry (σ × μ)).contains = registry.contains := by
  funext name
  simp only [contains, Dictionary.contains, carry, Dictionary.find?_map, Option.isSome_map]

/-- A reply, with what is kept beside the host state handed on. -/
def carryReply {α : Type} (reply : Reply σ α) (kept : μ) : Reply (σ × μ) α :=
  ⟨reply.result, reply.warnings, (reply.host, kept)⟩

/-- Answers to calls in turn are the same when each is. -/
theorem gather_carry {α β : Type} {run : α → σ → Reply σ β} {run' : α → σ × μ → Reply (σ × μ) β}
    {calls : List α} {kept : μ}
    (each : ∀ call ∈ calls, ∀ host, run' call (host, kept) = carryReply (run call host) kept)
    (host : σ) :
    Reply.gather run' calls (host, kept) = carryReply (Reply.gather run calls host) kept := by
  induction calls generalizing host with
  | nil => rfl
  | cons call rest ih =>
    have first := each call List.mem_cons_self host
    have others := ih fun other member => each other (List.mem_cons_of_mem _ member)
    simp only [Reply.gather, first, carryReply]
    cases (run call host).result with
    | error failure => rfl
    | ok value =>
      simp only [others, carryReply]

/-- Answers to the images of some calls are answers by way of the images. -/
theorem gather_map {α β γ : Type} (run : β → σ → Reply σ γ) (image : α → β) (calls : List α)
    (host : σ) :
    Reply.gather run (calls.map image) host =
      Reply.gather (fun call => run (image call)) calls host := by
  induction calls generalizing host with
  | nil => rfl
  | cons call rest ih => simp only [List.map_cons, Reply.gather, ih]

/-- A composite that refuses its parameters calls nothing. -/
theorem call_of_refused (registry : Registry σ) {name : String} {params : Value} {host : σ}
    {chosen : Composite} {failure : TransformError}
    (found : Dictionary.find? registry.entries name = some (.composite chosen))
    (refused : chosen.plan registry.contains params = .error failure) :
    registry.call name params host = ⟨.error failure, [], host⟩ := by
  rw [call, found]
  dsimp only
  split
  · rename_i other planned
    rw [refused] at planned
    cases planned
    rfl
  · rename_i planned
    rw [refused] at planned
    cases planned

/-- A composite calls what it planned in turn. -/
theorem call_of_planned (registry : Registry σ) {name function : String} {params : Value}
    {host : σ} {chosen : Composite} {calls : List Value}
    (found : Dictionary.find? registry.entries name = some (.composite chosen))
    (plans : chosen.plan registry.contains params = .ok (function, calls)) :
    registry.call name params host =
      let answered := Reply.gather (registry.call function) calls host
      ⟨answered.result.map .array, answered.warnings, answered.host⟩ := by
  rw [call, found]
  dsimp only
  split
  · rename_i planned
    rw [plans] at planned
    cases planned
  · rename_i function' calls' planned
    rw [plans] at planned
    cases planned
    have attached := gather_map (registry.call function)
      (fun item : { call // call ∈ calls } => item.val) calls.attach host
    rw [List.attach_map_subtype_val] at attached
    rw [← attached]

/-- A function answers the same whatever is kept beside its host state, and hands it on. -/
theorem call_carry (registry : Registry σ) (name : String) (params : Value) (host : σ)
    (kept : μ) :
    registry.carry.call name params (host, kept) =
      carryReply (registry.call name params host) kept := by
  induction deep : Composite.rank params using Nat.strongRecOn generalizing name params host with
  | ind rank ih =>
    have entry : Dictionary.find? registry.carry.entries name =
        (Dictionary.find? registry.entries name).map (Entry.carry : Entry σ → Entry (σ × μ)) :=
      Dictionary.find?_map _ _ _
    cases found : Dictionary.find? registry.entries name with
    | none =>
      rw [found] at entry
      rw [call, call, found, entry]
      rfl
    | some held =>
      cases held with
      | plain run =>
        rw [found] at entry
        rw [call, call, found, entry]
        rfl
      | composite chosen =>
        rw [found] at entry
        have known : (registry.carry : Registry (σ × μ)).contains = registry.contains :=
          carry_contains registry
        cases plans : chosen.plan registry.contains params with
        | error failure =>
          rw [call_of_refused _ entry (known ▸ plans), call_of_refused _ found plans]
          rfl
        | ok planned =>
          obtain ⟨function, calls⟩ := planned
          have smaller := Composite.plan_rank plans
          have each : ∀ call ∈ calls, ∀ host, registry.carry.call function call (host, kept) =
              carryReply (registry.call function call host) kept := fun call member host =>
            ih (Composite.rank call) (deep ▸ smaller call member) function call host rfl
          rw [call_of_planned _ entry (known ▸ plans), call_of_planned _ found plans,
            gather_carry each]
          rfl

end Registry

end StepGraph
