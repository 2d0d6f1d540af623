import StepGraph.Transform.Registry

/-!
# Settings of a run

What a run is given besides the graph and its inputs: the registered functions, whether every
step is logged, and how deeply activations of graphs may nest.
-/
namespace StepGraph

/-- The settings that are stored as data. -/
structure Config where
  /-- Whether steps and activations are logged. -/
  trace : Bool := false
  /-- How many activations may be inside each other. -/
  maxDepth : Nat := 128
deriving DecidableEq, Repr

namespace Config

/-- Settings from the two stored values, each of which may be absent but not null. -/
def ofValues? (trace maxDepth : Option Value) : Option Config := do
  let standard : Config := {}
  let trace ←
    match trace with
    | none => some standard.trace
    | some (.bool flag) => some flag
    | some _ => none
  let maxDepth ←
    match maxDepth with
    | none => some standard.maxDepth
    | some (.number stored) => stored.position?
    | some _ => none
  some { trace, maxDepth }

/-- The settings that a value stores: an object, or the two values as a list, which may break off
early. -/
def decode? : Value → Option Config
  | .object fields =>
    ofValues? (Dictionary.find? fields "trace") (Dictionary.find? fields "maxDepth")
  | .array [] => ofValues? none none
  | .array [trace] => ofValues? (some trace) none
  | .array [trace, maxDepth] => ofValues? (some trace) (some maxDepth)
  | _ => none

end Config

/-- All that a run is given besides the graph and its inputs. -/
structure Settings (σ : Type) where
  /-- The functions that steps may call. -/
  registry : Registry σ
  /-- The settings that are stored as data. -/
  config : Config := {}

end StepGraph
