import StepGraph.Proofs.Running.Recording

/-!
# Nested calls

A composite takes the name of the function that it calls, and what it passes on, from its
parameters. So nothing in its text keeps it from calling itself, or two composites from calling each
other. What a call does is told here without regard to whether it ends: `Answered` relates a call to
its tree, in which it stands together with the calls that were made for it, in order, each with its
own tree. A call that goes on forever has no tree.

Every call has one, and only one. It is low: what `map` passes on is nested less deeply than what it
was given, and what `vectorOp` passes on names neither a collection nor an operation, so that a
composite refuses it. The registry may hold any functions besides, and any in place of the standard
ones; they are taken to answer whatever they are given, and to make no calls of their own.
-/
namespace StepGraph

variable {σ : Type}

/-- A call with what it came to and the calls that were made for it, in order. -/
inductive CallTree (σ : Type) where
  /-- A call of a function. -/
  | node (function : String) (params : Value) (reply : Reply σ Value) (nested : List (CallTree σ))

namespace CallTree

/-- The function that was called. -/
def function : CallTree σ → String
  | .node function _ _ _ => function

/-- What it was given. -/
def params : CallTree σ → Value
  | .node _ params _ _ => params

/-- What it came to. -/
def reply : CallTree σ → Reply σ Value
  | .node _ _ reply _ => reply

/-- The calls that were made for it. -/
def nested : CallTree σ → List (CallTree σ)
  | .node _ _ _ nested => nested

mutual
/-- How many calls are open at once at the most. -/
def levels : CallTree σ → Nat
  | .node _ _ _ nested => levelsOfAll nested + 1

/-- How many calls are open at once at the most, among several calls made in turn. -/
def levelsOfAll : List (CallTree σ) → Nat
  | [] => 0
  | tree :: rest => max (levels tree) (levelsOfAll rest)
end

/-- The calls in a tree: the one it is about, and those in the trees of the calls made for it. -/
inductive Holds : CallTree σ → CallTree σ → Prop where
  /-- The call that the tree is about. -/
  | root (tree : CallTree σ) : Holds tree tree
  /-- A call in the tree of one that was made for it. -/
  | inside {tree child call : CallTree σ} (made : child ∈ tree.nested)
      (further : Holds child call) :
      Holds tree call

/-- Calls that are each open for a while at a bounded level. -/
theorem levelsOfAll_le {trees : List (CallTree σ)} {bound : Nat}
    (each : ∀ tree ∈ trees, tree.levels ≤ bound) : levelsOfAll trees ≤ bound := by
  induction trees with
  | nil => exact Nat.zero_le _
  | cons tree rest ih =>
    rw [levelsOfAll]
    have first := each tree List.mem_cons_self
    have others := ih fun other member => each other (List.mem_cons_of_mem _ member)
    omega

/-- A call that made none is open alone. -/
theorem levels_of_nested_eq_nil {tree : CallTree σ} (none_made : tree.nested = []) :
    tree.levels = 1 := by
  cases tree with
  | node function params reply nested =>
    obtain rfl : nested = [] := none_made
    rfl

/-- A call is open at one level more than the calls that it makes. -/
theorem levels_le {tree : CallTree σ} {bound : Nat}
    (each : ∀ child ∈ tree.nested, child.levels ≤ bound) : tree.levels ≤ bound + 1 := by
  cases tree with
  | node function params reply nested => exact Nat.succ_le_succ (levelsOfAll_le each)

end CallTree

mutual
/-- A call in a host state, with its tree. -/
inductive Answered (registry : Registry σ) : String → Value → σ → CallTree σ → Prop where
  /-- No function has the name. -/
  | unknown {function : String} {params : Value} {host : σ}
      (missing : Dictionary.find? registry.entries function = none) :
      Answered registry function params host
        (.node function params ⟨.error (.notFound function), [], host⟩ [])
  /-- A function on its own answers. -/
  | plain {function : String} {params : Value} {host : σ} {run : Value → σ → Reply σ Value}
      (found : Dictionary.find? registry.entries function = some (.plain run)) :
      Answered registry function params host (.node function params (run params host) [])
  /-- A composite refuses its parameters. -/
  | refused {function : String} {params : Value} {host : σ} {composite : Composite}
      {failure : TransformError}
      (found : Dictionary.find? registry.entries function = some (.composite composite))
      (refuses : composite.plan registry.contains params = .error failure) :
      Answered registry function params host (.node function params ⟨.error failure, [], host⟩ [])
  /-- A composite makes the calls that it plans. -/
  | carried {function : String} {params : Value} {host : σ} {composite : Composite}
      {callee : String} {calls : List Value} {trees : List (CallTree σ)}
      {answers : Reply σ (List Value)}
      (found : Dictionary.find? registry.entries function = some (.composite composite))
      (plans : composite.plan registry.contains params = .ok (callee, calls))
      (each : AnsweredEach registry callee calls host trees answers) :
      Answered registry function params host
        (.node function params ⟨answers.result.map .array, answers.warnings, answers.host⟩ trees)

/-- Calls of one function that are made in turn, up to the first failure, with their trees and what
they come to together. -/
inductive AnsweredEach (registry : Registry σ) :
    String → List Value → σ → List (CallTree σ) → Reply σ (List Value) → Prop where
  /-- There is nothing to call. -/
  | none (callee : String) (host : σ) :
      AnsweredEach registry callee [] host [] ⟨.ok [], [], host⟩
  /-- The first call fails, and no other is made. -/
  | stop {callee : String} {call : Value} {rest : List Value} {host : σ} {tree : CallTree σ}
      {failure : TransformError} (first : Answered registry callee call host tree)
      (failed : tree.reply.result = .error failure) :
      AnsweredEach registry callee (call :: rest) host [tree]
        ⟨.error failure, tree.reply.warnings, tree.reply.host⟩
  /-- The first call succeeds, and the others are made. -/
  | next {callee : String} {call : Value} {rest : List Value} {host : σ} {tree : CallTree σ}
      {value : Value} {trees : List (CallTree σ)} {others : Reply σ (List Value)}
      (first : Answered registry callee call host tree) (succeeded : tree.reply.result = .ok value)
      (further : AnsweredEach registry callee rest tree.reply.host trees others) :
      AnsweredEach registry callee (call :: rest) host (tree :: trees)
        ⟨others.result.map (value :: ·), tree.reply.warnings ++ others.warnings, others.host⟩
end

/-- How deep the calls of composites go that a call makes: those that `map` makes have shallower
parameters than its own, and those that `vectorOp` makes fail at once. -/
structure CallTree.Descends (registry : Registry σ) (tree : CallTree σ) : Prop where
  /-- Only a composite makes calls. -/
  made : tree.nested ≠ [] →
    ∃ composite, Dictionary.find? registry.entries tree.function = some (.composite composite)
  /-- The parameters get shallower. -/
  map : Dictionary.find? registry.entries tree.function = some (.composite .map) →
    ∀ child ∈ tree.nested, child.params.depth < tree.params.depth
  /-- Nothing further is called. -/
  vectorOp : Dictionary.find? registry.entries tree.function = some (.composite .vectorOp) →
    ∀ child ∈ tree.nested, ∀ composite,
      Dictionary.find? registry.entries child.function = some (.composite composite) →
        (∃ failure, child.reply.result = .error failure) ∧ child.nested = []

/-! ## Calls in turn -/

section Each

variable {registry : Registry σ} {callee : String} {calls : List Value} {host : σ}
  {trees : List (CallTree σ)} {answers : Reply σ (List Value)}

/-- Each call that was made is one of those that were to be made. -/
theorem AnsweredEach.exists_of_mem (each : AnsweredEach registry callee calls host trees answers)
    {tree : CallTree σ} (member : tree ∈ trees) :
    ∃ call ∈ calls, ∃ host, Answered registry callee call host tree := by
  induction calls generalizing host trees answers with
  | nil =>
    cases each with
    | none => cases member
  | cons call rest ih =>
    cases each with
    | stop first failed =>
      obtain rfl := List.mem_singleton.mp member
      exact ⟨call, List.mem_cons_self, host, first⟩
    | next first succeeded further =>
      rcases List.mem_cons.mp member with rfl | later
      · exact ⟨call, List.mem_cons_self, host, first⟩
      · obtain ⟨other, among, answered⟩ := ih further later
        exact ⟨other, List.mem_cons_of_mem _ among, answered⟩

/-- Calls with one tree each have the same trees and come to the same together. -/
theorem AnsweredEach.unique (each : AnsweredEach registry callee calls host trees answers)
    (only : ∀ call ∈ calls, ∀ host tree tree', Answered registry callee call host tree →
      Answered registry callee call host tree' → tree' = tree)
    {trees' : List (CallTree σ)} {answers' : Reply σ (List Value)}
    (again : AnsweredEach registry callee calls host trees' answers') :
    trees' = trees ∧ answers' = answers := by
  induction calls generalizing host trees answers trees' answers' with
  | nil =>
    cases each with
    | none =>
      cases again with
      | none => exact ⟨rfl, rfl⟩
  | cons call rest ih =>
    cases each with
    | stop first failed =>
      cases again with
      | stop first' failed' =>
        obtain rfl := only call List.mem_cons_self host _ _ first first'
        obtain rfl := Except.error.inj (failed'.symm.trans failed)
        exact ⟨rfl, rfl⟩
      | next first' succeeded' further' =>
        obtain rfl := only call List.mem_cons_self host _ _ first first'
        cases failed.symm.trans succeeded'
    | next first succeeded further =>
      cases again with
      | stop first' failed' =>
        obtain rfl := only call List.mem_cons_self host _ _ first first'
        cases failed'.symm.trans succeeded
      | next first' succeeded' further' =>
        obtain rfl := only call List.mem_cons_self host _ _ first first'
        obtain rfl := Except.ok.inj (succeeded'.symm.trans succeeded)
        obtain ⟨rfl, rfl⟩ :=
          ih further (fun other member => only other (List.mem_cons_of_mem _ member)) further'
        exact ⟨rfl, rfl⟩

/-- Calls that each have a tree can be made in turn, and come to what they are answered. -/
theorem exists_answeredEach
    (each : ∀ call ∈ calls, ∀ host, ∃ tree, Answered registry callee call host tree ∧
      tree.reply = registry.call callee call host) (host : σ) :
    ∃ trees, AnsweredEach registry callee calls host trees
      (Reply.gather (registry.call callee) calls host) := by
  induction calls generalizing host with
  | nil => exact ⟨[], .none callee host⟩
  | cons call rest ih =>
    obtain ⟨tree, first, came⟩ := each call List.mem_cons_self host
    cases result : tree.reply.result with
    | error failure =>
      refine ⟨[tree], ?_⟩
      simp only [Reply.gather, ← came, result]
      exact .stop first result
    | ok value =>
      obtain ⟨trees, further⟩ :=
        ih (fun other member => each other (List.mem_cons_of_mem _ member)) tree.reply.host
      refine ⟨tree :: trees, ?_⟩
      simp only [Reply.gather, ← came, result]
      exact .next first result further

end Each

/-! ## What composites pass on -/

namespace Composite

/-- What `vectorOp` passes on has no such parameter. -/
theorem value_pair (function : String) (left right : Value) {key : String}
    (first : key ≠ (operandNames function).1) (second : key ≠ (operandNames function).2) :
    Parameters.value (pair function left right) key = .null := by
  rw [Parameters.value, field?_pair function left right first second, Option.getD_none]

/-- No operation takes an operand under the name of one of the collections. -/
theorem operandNames_ne_collection (function : String) :
    "collectionA" ≠ (operandNames function).1 ∧ "collectionA" ≠ (operandNames function).2 ∧
      "collectionB" ≠ (operandNames function).1 ∧ "collectionB" ≠ (operandNames function).2 := by
  unfold operandNames
  split
  · decide
  · split <;> decide

/-- A composite refuses what `vectorOp` passes on: `map` has no collection in it, and for `vectorOp`
the two absent collections are equally long but no operation is named. -/
theorem plan_pair (composite : Composite) (known : String → Bool) (function : String)
    (left right : Value) :
    ∃ failure, composite.plan known (pair function left right) = .error failure := by
  obtain ⟨first, second, third, fourth⟩ := operandNames_ne function
  cases composite with
  | map =>
    have collection := value_pair function left right third fourth
    refine ⟨.invalidParam "collection" .array .null, ?_⟩
    simp only [plan, planMap, Parameters.array, collection]
    rfl
  | vectorOp =>
    obtain ⟨fifth, sixth, seventh, eighth⟩ := operandNames_ne_collection function
    have operation := value_pair function left right first second
    refine ⟨.invalidParam "op" .string .null, ?_⟩
    simp only [plan, planVectorOp, Parameters.string, operation,
      value_pair function left right fifth sixth, value_pair function left right seventh eighth]
    rfl

end Composite

/-! ## The tree of a call -/

section Answering

variable {registry : Registry σ} {function : String} {params : Value} {host : σ}
  {tree : CallTree σ}

/-- A tree is about the call that it belongs to. -/
theorem Answered.about (answered : Answered registry function params host tree) :
    tree.function = function ∧ tree.params = params := by
  cases answered <;> exact ⟨rfl, rfl⟩

/-- A call that a composite makes has parameters that the composite planned. -/
theorem Answered.exists_of_nested (answered : Answered registry function params host tree)
    {child : CallTree σ} (made : child ∈ tree.nested) :
    ∃ composite callee calls,
      Dictionary.find? registry.entries function = some (.composite composite) ∧
        composite.plan registry.contains params = .ok (callee, calls) ∧
          ∃ call ∈ calls, ∃ host, Answered registry callee call host child := by
  cases answered with
  | unknown missing => cases made
  | plain found => cases made
  | refused found refuses => cases made
  | carried found plans each => exact ⟨_, _, _, found, plans, each.exists_of_mem made⟩

/-- A call of an unknown name has one tree only. -/
theorem Answered.of_missing (answered : Answered registry function params host tree)
    (missing : Dictionary.find? registry.entries function = none) :
    tree = .node function params ⟨.error (.notFound function), [], host⟩ [] := by
  cases answered with
  | unknown missing' => rfl
  | plain found | refused found refuses | carried found plans each => cases missing.symm.trans found

/-- A call of a function on its own has one tree only. -/
theorem Answered.of_plain {run : Value → σ → Reply σ Value}
    (answered : Answered registry function params host tree)
    (found : Dictionary.find? registry.entries function = some (.plain run)) :
    tree = .node function params (run params host) [] := by
  cases answered with
  | plain found' =>
    obtain rfl := Entry.plain.inj (Option.some.inj (found'.symm.trans found))
    rfl
  | unknown found' | refused found' refuses | carried found' plans each =>
    cases found'.symm.trans found

section Composites

variable {composite : Composite}

/-- A call that a composite refuses has one tree only. -/
theorem Answered.of_refused {failure : TransformError}
    (answered : Answered registry function params host tree)
    (found : Dictionary.find? registry.entries function = some (.composite composite))
    (refuses : composite.plan registry.contains params = .error failure) :
    tree = .node function params ⟨.error failure, [], host⟩ [] := by
  cases answered with
  | refused found' refuses' =>
    obtain rfl := Entry.composite.inj (Option.some.inj (found'.symm.trans found))
    obtain rfl := Except.error.inj (refuses'.symm.trans refuses)
    rfl
  | carried found' plans each =>
    obtain rfl := Entry.composite.inj (Option.some.inj (found'.symm.trans found))
    cases plans.symm.trans refuses
  | unknown found' | plain found' => cases found'.symm.trans found

/-- A call for which a composite makes others has the trees of those, and comes to what they come to
together. -/
theorem Answered.of_planned {callee : String} {calls : List Value}
    (answered : Answered registry function params host tree)
    (found : Dictionary.find? registry.entries function = some (.composite composite))
    (plans : composite.plan registry.contains params = .ok (callee, calls)) :
    ∃ trees answers, AnsweredEach registry callee calls host trees answers ∧
      tree = .node function params
        ⟨answers.result.map .array, answers.warnings, answers.host⟩ trees := by
  cases answered with
  | carried found' plans' each =>
    obtain rfl := Entry.composite.inj (Option.some.inj (found'.symm.trans found))
    obtain ⟨rfl, rfl⟩ := Prod.mk.inj (Except.ok.inj (plans'.symm.trans plans))
    exact ⟨_, _, each, rfl⟩
  | refused found' refuses =>
    obtain rfl := Entry.composite.inj (Option.some.inj (found'.symm.trans found))
    cases plans.symm.trans refuses
  | unknown found' | plain found' => cases found'.symm.trans found

/-- A composite that is called with what `vectorOp` passes on fails and calls nothing. -/
theorem Answered.refuses_pair {operation : String} {left right : Value}
    (answered : Answered registry function (Composite.pair operation left right) host tree)
    (found : Dictionary.find? registry.entries function = some (.composite composite)) :
    (∃ failure, tree.reply.result = .error failure) ∧ tree.nested = [] := by
  obtain ⟨failure, refuses⟩ := composite.plan_pair registry.contains operation left right
  obtain rfl := answered.of_refused found refuses
  exact ⟨⟨failure, rfl⟩, rfl⟩

end Composites

/-- A call goes no deeper than composites do. -/
theorem Answered.descends (answered : Answered registry function params host tree) :
    tree.Descends registry := by
  obtain ⟨rfl, rfl⟩ := answered.about
  refine ⟨fun some_made => ?_, fun found child made => ?_,
    fun found child made composite held => ?_⟩
  · obtain ⟨child, made⟩ := List.exists_mem_of_ne_nil _ some_made
    obtain ⟨composite, _, _, found, -⟩ := answered.exists_of_nested made
    exact ⟨composite, found⟩
  · obtain ⟨composite, callee, calls, found', plans, call, planned, host', further⟩ :=
      answered.exists_of_nested made
    obtain rfl := Entry.composite.inj (Option.some.inj (found'.symm.trans found))
    rw [further.about.2]
    exact Composite.planMap_depth plans call planned
  · obtain ⟨composite', callee, calls, found', plans, call, planned, host', further⟩ :=
      answered.exists_of_nested made
    obtain rfl := Entry.composite.inj (Option.some.inj (found'.symm.trans found))
    obtain ⟨left, -, right, -, rfl⟩ := (Composite.planVectorOp_calls plans).2 call planned
    exact further.refuses_pair (further.about.1 ▸ held)

/-- Calls that are made in a call go no deeper than composites do. -/
theorem Answered.descends_of_holds (answered : Answered registry function params host tree)
    {call : CallTree σ} (holds : tree.Holds call) : call.Descends registry := by
  induction holds generalizing function params host with
  | root tree => exact answered.descends
  | inside made further ih =>
    obtain ⟨_, _, _, _, _, _, _, _, nested⟩ := answered.exists_of_nested made
    exact ih nested

/-- A call is open at no more levels than its parameters are deep, and one. -/
theorem Answered.levels_le (answered : Answered registry function params host tree) :
    tree.levels ≤ params.depth + 1 := by
  induction deep : Composite.rank params using Nat.strongRecOn
    generalizing function params host tree with
  | ind rank ih =>
    subst deep
    refine CallTree.levels_le fun child made => ?_
    obtain ⟨composite, callee, calls, found, plans, call, planned, host', further⟩ :=
      answered.exists_of_nested made
    cases composite with
    | map =>
      have below := ih _ (Composite.plan_rank plans call planned) further rfl
      have shallower := Composite.planMap_depth plans call planned
      omega
    | vectorOp =>
      obtain ⟨named, pairs⟩ := Composite.planVectorOp_calls plans
      obtain ⟨left, -, right, -, rfl⟩ := pairs call planned
      -- Parameters that name an operation are an object, so there is a level left for one call.
      have positive : 0 < params.depth := by
        obtain ⟨stored, held⟩ := Option.isSome_iff_exists.mp named
        exact Nat.zero_lt_of_lt (Value.depth_lt_of_field? held)
      have alone : child.nested = [] := by
        by_contra some_made
        obtain ⟨composite, held⟩ := further.descends.made some_made
        rw [further.about.1] at held
        exact some_made (further.refuses_pair held).2
      rw [CallTree.levels_of_nested_eq_nil alone]
      exact positive

/-- A call has one tree at the most. -/
theorem Answered.unique (answered : Answered registry function params host tree)
    {tree' : CallTree σ} (again : Answered registry function params host tree') : tree' = tree := by
  induction deep : Composite.rank params using Nat.strongRecOn
    generalizing function params host tree tree' with
  | ind rank ih =>
    subst deep
    cases answered with
    | unknown missing => exact again.of_missing missing
    | plain found => exact again.of_plain found
    | refused found refuses => exact again.of_refused found refuses
    | carried found plans each =>
      obtain ⟨trees, answers, each', rfl⟩ := again.of_planned found plans
      obtain ⟨rfl, rfl⟩ := each.unique
        (fun call planned _ _ _ first second =>
          ih _ (Composite.plan_rank plans call planned) first second rfl) each'
      rfl

/-- Every call has a tree, and comes to what it is answered. -/
theorem exists_answered (registry : Registry σ) (function : String) (params : Value) (host : σ) :
    ∃ tree, Answered registry function params host tree ∧
      tree.reply = registry.call function params host := by
  induction deep : Composite.rank params using Nat.strongRecOn
    generalizing function params host with
  | ind rank ih =>
    subst deep
    cases found : Dictionary.find? registry.entries function with
    | none =>
      refine ⟨_, .unknown found, ?_⟩
      rw [Registry.call, found]
      rfl
    | some entry =>
      cases entry with
      | plain run =>
        refine ⟨_, .plain found, ?_⟩
        rw [Registry.call, found]
        rfl
      | composite composite =>
        cases planned : composite.plan registry.contains params with
        | error failure =>
          exact ⟨_, .refused found planned, (registry.call_of_refused found planned).symm⟩
        | ok callee =>
          obtain ⟨callee, calls⟩ := callee
          obtain ⟨trees, each⟩ := exists_answeredEach
            (fun call member host =>
              ih _ (Composite.plan_rank planned call member) callee call host rfl) host
          exact ⟨_, .carried found planned each, (registry.call_of_planned found planned).symm⟩

end Answering

/-- Every call of a function ends, whatever functions are registered and whatever it is given: it
has exactly one tree of calls, comes to what the tree says, and has no more calls open at once than
its parameters are deep, and one. Wherever composites call each other, `map` gives the other
parameters shallower than its own, and one that `vectorOp` calls fails and calls nothing. -/
theorem Registry.call_ends (registry : Registry σ) (function : String) (params : Value)
    (host : σ) :
    ∃ tree, Answered registry function params host tree ∧
      (∀ other, Answered registry function params host other → other = tree) ∧
      tree.reply = registry.call function params host ∧ tree.levels ≤ params.depth + 1 ∧
      ∀ call, tree.Holds call → call.Descends registry := by
  obtain ⟨tree, answered, came⟩ := exists_answered registry function params host
  exact ⟨tree, answered, fun _ again => answered.unique again, came, answered.levels_le,
    fun _ holds => answered.descends_of_holds holds⟩

end StepGraph
