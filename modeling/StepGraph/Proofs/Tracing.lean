import StepGraph.Proofs.Running.Recording

/-!
# Tracing

Whether runs are traced decides what is logged, and nothing else. A traced run and the same run
without a trace mirror each other with logs of which one holds the warnings of the other: both log a
warning, and only the first logs any other event.
-/
namespace StepGraph

variable {σ : Type}

/-- What a run without a trace leaves where the traced run leaves a state: the functions in the same
state, and of the lines that are logged the warnings. -/
def State.Silences (traced silent : State σ) : Prop :=
  silent.host = traced.host ∧
    silent.events.map Event.line =
      (traced.events.map Event.line).filter fun line => line.level = .warn

/-- The lines at the level of warnings are the lines of the warnings. -/
theorem Event.map_line_filter (events : List Event) :
    (events.map Event.line).filter (fun line => line.level = .warn) =
      (events.filter Event.isWarning).map Event.line := by
  rw [List.filter_map]
  congr 1
  refine List.filter_congr fun event _ => ?_
  simp only [Function.comp_apply, Event.line_level_eq_warn, Bool.decide_eq_true]

namespace Tracing

/-- A traced run mirrors the run without a trace, whose log holds the warnings. -/
def mirror (registry : Registry σ) (maxDepth : Nat) :
    Mirror ⟨registry, ⟨true, maxDepth⟩⟩ ⟨registry, ⟨false, maxDepth⟩⟩ (.same .whole) :=
  .same Eq (fun log log' => log' = log.filter Event.isWarning)
    { maxDepth := rfl
      contains := fun _ => rfl
      calls := by
        rintro host _ function params rfl
        exact ⟨rfl, rfl, rfl⟩ }
    (by
      rintro log _ warning rfl
      rfl)
    (by
      rintro log _ event other rfl
      exact (List.filter_cons_of_neg (by simp [other])).symm)

/-- Where the logs hold the same warnings and functions are in the same state, the second state is
what a run without a trace leaves. -/
theorem silences_of_surroundings {registry : Registry σ} {maxDepth : Nat}
    {traced silent : State σ} (surroundings : (mirror registry maxDepth).Surroundings traced silent) :
    traced.Silences silent := by
  obtain ⟨hosts, logs⟩ := surroundings
  refine ⟨hosts.symm, ?_⟩
  have warnings : silent.log = traced.log.filter Event.isWarning := logs
  rw [Event.map_line_filter, State.events, State.events, warnings, List.filter_reverse]

/-- A traced run of a document and the run without a trace have the same output or the same failure,
and make the same calls of functions in the same order; the lines that are logged without a trace are
the warnings among those that are logged with it. -/
theorem document_untraced (registry : Registry σ) (maxDepth : Nat) (stored inputs : Value)
    (host : σ) :
    Outcome.Agrees False State.Silences (fun _ => State.Silences)
        (Run.document ⟨registry, ⟨true, maxDepth⟩⟩ stored inputs (State.start host))
        (Run.document ⟨registry, ⟨false, maxDepth⟩⟩ stored inputs (State.start host)) ∧
      Run.documentCalls ⟨registry, ⟨true, maxDepth⟩⟩ stored inputs (State.start host) =
        Run.documentCalls ⟨registry, ⟨false, maxDepth⟩⟩ stored inputs (State.start host) := by
  have begun : (mirror registry maxDepth).Surroundings (State.start host) (State.start host) :=
    ⟨rfl, rfl⟩
  have listed : (mirror registry.recording maxDepth).Surroundings
      ((State.start host).carrying []) ((State.start host).carrying []) := ⟨rfl, rfl⟩
  constructor
  · exact ((mirror registry maxDepth).document_agrees stored inputs begun).mono
      (fun _ _ _ => silences_of_surroundings) fun _ _ => silences_of_surroundings
  · exact ((mirror registry.recording maxDepth).document_agrees stored inputs listed).calls_eq
      fun _ _ surroundings => congrArg Prod.snd surroundings.1

end Tracing

end StepGraph
