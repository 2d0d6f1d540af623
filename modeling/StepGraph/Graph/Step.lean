import StepGraph.Value.Basic

/-!
# Steps and graphs

A graph is a list of named steps. A step either computes a value of its own, through its
action, or is about another graph: it defines a template, or it invokes a body, given inline or
by the name of a template. The declared order of the steps is only the order in which they are
tried; a step that another one refers to runs when it is referred to.
-/
namespace StepGraph

/-- What every step carries besides what it does. -/
structure Header where
  /-- The name that other steps refer to. -/
  name : String := ""
  /-- Whether the result is kept out of the output. -/
  isHidden : Bool := false
  /-- A remark without effect. -/
  comments : Option String := none
deriving DecidableEq, Repr

/-- A step that is not about another graph. -/
inductive Action where
  /-- A literal value. -/
  | static (value : Value)
  /-- The value at another path. -/
  | alias (mirror : String)
  /-- An entry of one value, selected by another value. -/
  | dereference (objectPath propNamePath : String)
  /-- One of the nodes, selected by the case that the tested value equals. -/
  | branch (test : String) (cases nodeNames : List Value)
  /-- The result of a registered function on resolved parameters. -/
  | transform (function : String) (params : Value)
  /-- Nothing. -/
  | comment
deriving DecidableEq

/-- How a body may be run over a collection. -/
inductive CollectionMode where
  /-- Once for each element. -/
  | map
deriving DecidableEq, Repr

/-- How a step treats its body. -/
structure Invocation where
  /-- Marked as the definition of a template. -/
  isTemplate : Bool := false
  /-- The inputs of the body, to be resolved in the context of the step. -/
  inputs : Option Value := none
  /-- Whether the body runs over a collection. -/
  collectionMode : Option CollectionMode := none
  /-- The key to publish under, when the body may read from the context of the step. -/
  namespaceKey : Option String := none
deriving DecidableEq

/-- The body of an invocation, for a type of steps. -/
inductive Body (σ : Type) where
  /-- Steps given in place. -/
  | inline (steps : List σ)
  /-- The body of a template. -/
  | template (name : String)

/-- Whether a body is given in place. -/
def Body.isInline {σ : Type} : Body σ → Bool
  | .inline _ => true
  | .template _ => false

/-- A step of a graph. -/
inductive Step where
  /-- A step with an action. -/
  | action (header : Header) (action : Action)
  /-- A step about another graph. -/
  | graph (header : Header) (invocation : Invocation) (body : Body Step)

/-- Steps in declared order. -/
abbrev Graph := List Step

/-- How an invoked body runs. -/
inductive Mode where
  /-- In a context of its own, fed by the inputs. -/
  | plain
  /-- In a context of its own for each element of the input collection. -/
  | map
  /-- In a context that falls back to the caller, published under the key. -/
  | namespaced (key : String)
deriving DecidableEq, Repr

namespace Invocation

/-- A body is a template when it is marked as one, or when it is inline and neither inputs nor a
namespace say how to run it. -/
def definesTemplate (invocation : Invocation) (body : Body Step) : Bool :=
  invocation.isTemplate ||
    (body.isInline && invocation.inputs.isNone && invocation.namespaceKey.isNone)

/-- How the body is run, unless it is a template. Running over a collection goes before a
namespace. -/
def mode? (invocation : Invocation) (body : Body Step) : Option Mode :=
  if invocation.definesTemplate body then none
  else
    match invocation.collectionMode, invocation.namespaceKey with
    | some .map, _ => some .map
    | none, some key => some (.namespaced key)
    | none, none => some .plain

end Invocation

namespace Step

mutual
/-- Whether two steps are the same. -/
def decEq : (left right : Step) → Decidable (left = right)
  | .action leftHeader left, .action rightHeader right =>
    decidable_of_iff (leftHeader = rightHeader ∧ left = right) (by simp)
  | .graph leftHeader leftCall (.inline left), .graph rightHeader rightCall (.inline right) =>
    have := decEqAll left right
    decidable_of_iff (leftHeader = rightHeader ∧ leftCall = rightCall ∧ left = right) (by simp)
  | .graph leftHeader leftCall (.template left),
    .graph rightHeader rightCall (.template right) =>
    decidable_of_iff (leftHeader = rightHeader ∧ leftCall = rightCall ∧ left = right) (by simp)
  | .graph _ _ (.inline _), .graph _ _ (.template _) => .isFalse nofun
  | .graph _ _ (.template _), .graph _ _ (.inline _) => .isFalse nofun
  | .action _ _, .graph _ _ _ => .isFalse nofun
  | .graph _ _ _, .action _ _ => .isFalse nofun

/-- Whether two lists hold the same steps. -/
def decEqAll : (left right : List Step) → Decidable (left = right)
  | [], [] => .isTrue rfl
  | [], _ :: _ => .isFalse nofun
  | _ :: _, [] => .isFalse nofun
  | left :: lefts, right :: rights =>
    have := decEq left right
    have := decEqAll lefts rights
    decidable_of_iff (left = right ∧ lefts = rights) (by simp)
end

instance : DecidableEq Step := decEq

/-- What the step carries besides what it does. -/
def header : Step → Header
  | .action header _ => header
  | .graph header _ _ => header

/-- The name of the step. -/
def name (step : Step) : String := step.header.name

/-- Whether the result is kept out of the output. -/
def isHidden (step : Step) : Bool := step.header.isHidden

/-- Whether the step does nothing. -/
def isComment : Step → Bool
  | .action _ .comment => true
  | _ => false

/-- Whether the step registers a template instead of running a body. -/
def definesTemplate : Step → Bool
  | .action _ _ => false
  | .graph _ invocation body => invocation.definesTemplate body

/-- How the step runs a body, if it does. -/
def mode? : Step → Option Mode
  | .action _ _ => none
  | .graph _ invocation body => invocation.mode? body

/-- The key that the result is published under: the namespace of a namespaced invocation, the
name otherwise. -/
def publishKey (step : Step) : String :=
  match step.mode? with
  | some (.namespaced key) => key
  | _ => step.name

/-- The texts that refer to the step. -/
def keys (step : Step) : List String := [step.name, step.publishKey]

/-- Whether a text refers to the step. -/
def answersTo (step : Step) (name : String) : Bool :=
  !step.isComment && (step.name == name || step.publishKey == name)

end Step

namespace Graph

/-- The first step that a text refers to. -/
def findStep? (graph : Graph) (name : String) : Option Step :=
  graph.find? fun step => step.answersTo name

/-- Items with those of a kind in front, each group in its order. -/
def hoistBy {α : Type} (goesFirst : α → Bool) (items : List α) : List α :=
  items.filter goesFirst ++ items.filter fun item => !goesFirst item

/-- The steps in the order in which they are tried: the definitions of templates, then the rest,
each in declared order. -/
def hoisted (graph : Graph) : List Step := hoistBy Step.definesTemplate graph

end Graph

end StepGraph
