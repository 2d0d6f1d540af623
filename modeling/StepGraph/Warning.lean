import StepGraph.Value.Basic

/-!
# Warnings

What is reported although the run goes on.
-/
namespace StepGraph

/-- A reported oddity. -/
inductive Warning where
  /-- Nothing answers to a path, and its own text stands in. -/
  | unresolved (path : String)
  /-- An amount to be rounded is no number, and is passed on as it is. -/
  | unroundable (found : Value)
deriving DecidableEq

end StepGraph
