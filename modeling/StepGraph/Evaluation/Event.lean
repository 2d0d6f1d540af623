import StepGraph.Graph.Step
import StepGraph.Json.Printer
import StepGraph.Text.Quoted
import StepGraph.Warning

/-!
# Events of a run

What a run logs: warnings always, everything else only when it is traced.
-/
namespace StepGraph

/-- How much an event matters. -/
inductive Level where
  /-- Something odd. -/
  | warn
  /-- The course of the run. -/
  | info
  /-- Details of the course. -/
  | debug
deriving DecidableEq, Repr

/-- The name of a level. -/
def Level.name : Level → String
  | .warn => "WARN"
  | .info => "INFO"
  | .debug => "DEBUG"

/-- The text of a mode. -/
def Mode.summary : Mode → String
  | .plain => "Plain"
  | .map => "Map"
  | .namespaced key => "Namespaced(" ++ Text.quoted key ++ ")"

/-- Something that happened. -/
inductive Event where
  /-- A document is about to be run. -/
  | executing (label : String) (steps : Nat)
  /-- A result is published. -/
  | executed (key : String) (hidden : Bool) (value : Value)
  /-- A function is about to be called. -/
  | calling (step function : String) (params : Value)
  /-- A template is defined. -/
  | templateDefined (template : String)
  /-- A body is about to be run. -/
  | subgraphStarted (step : String) (mode : Mode)
  /-- A body has been run. -/
  | subgraphEnded (step : String)
  /-- A template is about to be called because a path refers to it. -/
  | implicitCall (template : String)
  /-- Something odd was reported. -/
  | warning (warning : Warning)
deriving DecidableEq

/-- An event as it is logged. -/
structure LogLine where
  /-- How much it matters. -/
  level : Level
  /-- What happened. -/
  message : String
  /-- What it happened to. -/
  fields : List (String × Value)
deriving DecidableEq

/-- A warning as it is logged. -/
def Warning.line : Warning → LogLine
  | .unresolved path =>
    ⟨.warn, "could not resolve value, returning the path itself", [("path", .string path)]⟩
  | .unroundable found =>
    ⟨.warn, "unable to round non-numeric amount", [("found", .string (Json.compact found))]⟩

/-- An event as it is logged: values appear as their compact text. -/
def Event.line : Event → LogLine
  | .executing label steps =>
    ⟨.info, "executing graph", [("graph", .string label), ("steps", .ofInt steps)]⟩
  | .executed key hidden value =>
    ⟨.info, "step executed",
      [("step", .string key), ("hidden", .bool hidden), ("value", .string (Json.compact value))]⟩
  | .calling step function params =>
    ⟨.debug, "calling transform",
      [("step", .string step), ("function", .string function),
        ("params", .string (Json.compact params))]⟩
  | .templateDefined template => ⟨.info, "template defined", [("template", .string template)]⟩
  | .subgraphStarted step mode =>
    ⟨.info, "sub-graph start", [("step", .string step), ("mode", .string mode.summary)]⟩
  | .subgraphEnded step => ⟨.info, "sub-graph end", [("step", .string step)]⟩
  | .implicitCall template =>
    ⟨.info, "implicit template call", [("template", .string template)]⟩
  | .warning reported => reported.line

/-- Whether an event is a warning, which is logged also when runs are not traced. -/
def Event.isWarning : Event → Bool
  | .warning _ => true
  | _ => false

/-- Exactly the warnings are logged at the level of warnings. -/
theorem Event.line_level_eq_warn (event : Event) :
    event.line.level = .warn ↔ event.isWarning = true := by
  cases event with
  | warning reported => cases reported <;> simp [Event.line, Warning.line, Event.isWarning]
  | _ => simp [Event.line, Event.isWarning]

end StepGraph
