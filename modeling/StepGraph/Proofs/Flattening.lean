import Mathlib.Logic.Relation
import StepGraph.Transform.Arithmetic
import StepGraph.Transform.Collections
import StepGraph.Transform.Logic

/-!
# Flattened collections

Functions of many operands flatten what they are given, and so do the functions that select. What is
left has no arrays, and it says all about an array that grouping does not: an array inside may be
replaced by its own flattening, and neighbours may be put into an array of their own, at any depth
that is reached through arrays. Two arrays are the same up to such changes exactly when they have
the same operands. An object is an item like any other as soon as it stands in an array, and the
changes do not reach into it.
-/
namespace StepGraph.Parameters

/-! ## What is left -/

/-- No operand is an array. -/
theorem items?_of_mem_operands {collection : Value} :
    ∀ item ∈ operands collection, item.items? = none :=
  fun item member => (forall_mem_operands (motive := fun _ => True) (fun _ _ _ _ => trivial)
    (fun _ _ _ _ => trivial) trivial item member).1

/-- An array that holds no arrays is a collection of its items. -/
theorem operands_array {items : List Value} (plain : ∀ item ∈ items, item.items? = none) :
    operands (.array items) = items := by
  show flattenItems items = items
  rw [flattenItems_eq]
  induction items with
  | nil => rfl
  | cons item rest ih =>
    obtain ⟨here, later⟩ := List.forall_mem_cons.mp plain
    rw [List.flatMap_cons, ih later]
    cases item with
    | array _ => cases here
    | _ => rfl

/-- An array is a collection of its items exactly when it holds no arrays. -/
theorem operands_array_eq_self_iff {items : List Value} :
    operands (.array items) = items ↔ ∀ item ∈ items, item.items? = none := by
  constructor
  · intro same item member
    rw [← same] at member
    exact items?_of_mem_operands item member
  · exact operands_array

/-! ## Grouping -/

/-- Items in front of others are flattened in front of them. -/
theorem flattenItems_append (left right : List Value) :
    flattenItems (left ++ right) = flattenItems left ++ flattenItems right := by
  simp only [flattenItems_eq, List.flatMap_append]

/-- A change to the grouping of an array, at a place that is reached through arrays. -/
inductive Regroups : Value → Value → Prop where
  /-- An array is replaced by its own flattening. -/
  | flattened (items : List Value) :
      Regroups (.array items) (.array (operands (.array items)))
  /-- Neighbours, which may be none, are put into an array of their own. -/
  | wrapped (before group after : List Value) :
      Regroups (.array (before ++ group ++ after)) (.array (before ++ .array group :: after))
  /-- The change is made to an item. -/
  | inside (before after : List Value) {item changed : Value} (change : Regroups item changed) :
      Regroups (.array (before ++ item :: after)) (.array (before ++ changed :: after))

/-- A change to the grouping leaves what an array is flattened to. -/
theorem Regroups.flatten_eq {left right : Value} (change : Regroups left right) :
    flatten left = flatten right := by
  induction change with
  | flattened items =>
    have again : operands (.array (operands (.array items))) = operands (.array items) :=
      operands_array items?_of_mem_operands
    exact again.symm
  | wrapped before group after =>
    simp only [flatten, flattenItems_append, flattenItems, List.append_assoc]
  | inside before after change ih =>
    simp only [flatten, flattenItems_append, flattenItems, ih]

/-- A change to the grouping leaves the operands. -/
theorem Regroups.operands_eq {left right : Value} (change : Regroups left right) :
    operands left = operands right := by
  have same := change.flatten_eq
  cases change <;> exact same

/-- Values that differ in their grouping only have the same operands. -/
theorem operands_eq_of_eqvGen {left right : Value} (same : Relation.EqvGen Regroups left right) :
    operands left = operands right := by
  induction same with
  | rel left right change => exact change.operands_eq
  | refl value => rfl
  | symm left right _ ih => exact ih.symm
  | trans left middle right _ _ first second => exact first.trans second

/-- Arrays with the same operands differ in their grouping only. -/
theorem eqvGen_of_operands_eq {left right : List Value}
    (same : operands (.array left) = operands (.array right)) :
    Relation.EqvGen Regroups (.array left) (.array right) := by
  -- Both are joined to the array of their operands, by a single change each.
  have flat (items : List Value) :
      Relation.EqvGen Regroups (.array items) (.array (operands (.array items))) :=
    .rel _ _ (.flattened items)
  have back : Relation.EqvGen Regroups (.array (operands (.array left))) (.array right) := by
    rw [same]
    exact .symm _ _ (flat right)
  exact .trans _ _ _ (flat left) back

/-! ## Functions of many operands -/

/-- The functions that take their parameters as a collection of operands. -/
def functionsOfMany : List (Value → Result) :=
  [Arithmetic.addN, Logic.andN, Logic.orN, Collections.concat, Collections.concatArrays]

/-- What a function of many operands answers depends on the operands alone. -/
theorem eq_of_operands_eq {function : Value → Result} (listed : function ∈ functionsOfMany)
    {left right : Value} (same : operands left = operands right) :
    function left = function right := by
  simp only [functionsOfMany, List.mem_cons, List.not_mem_nil, or_false] at listed
  rcases listed with rfl | rfl | rfl | rfl | rfl
  · rw [Arithmetic.addN, Arithmetic.addN, same]
  · rw [Logic.andN, Logic.andN, same]
  · rw [Logic.orN, Logic.orN, same]
  · rw [Collections.concat, Collections.concat, same]
  · rw [Collections.concatArrays, Collections.concatArrays, same]

/-- Grouping does not matter in a collection. No operand is an array, and an array of no arrays is
its own operands. Those of two arrays put together are those of the one and then those of the other.
A change to the grouping leaves the operands, and arrays with the same operands differ by such
changes only. Every function of many operands therefore has the same answer or the same failure for
both, and putting all operands into one array once more changes nothing. -/
theorem grouping_immaterial :
    (∀ collection, ∀ item ∈ operands collection, item.items? = none) ∧
    (∀ items, operands (.array items) = items ↔ ∀ item ∈ items, item.items? = none) ∧
    (∀ left right,
      operands (.array (left ++ right)) = operands (.array left) ++ operands (.array right)) ∧
    (∀ left right, Regroups left right → operands left = operands right) ∧
    (∀ left right, Relation.EqvGen Regroups (.array left) (.array right) ↔
      operands (.array left) = operands (.array right)) ∧
    (∀ left right, Relation.EqvGen Regroups left right →
      ∀ function ∈ functionsOfMany, function left = function right) ∧
    ∀ collection, ∃ items, Collections.concatArrays collection = .ok (.array items) ∧
      Collections.concatArrays (.array items) = .ok (.array items) := by
  refine ⟨fun collection => items?_of_mem_operands, fun items => operands_array_eq_self_iff,
    flattenItems_append, fun left right change => change.operands_eq,
    fun left right => ⟨operands_eq_of_eqvGen, eqvGen_of_operands_eq⟩,
    fun left right same function listed => ?_, fun collection => ?_⟩
  · exact eq_of_operands_eq listed (operands_eq_of_eqvGen same)
  · have again : operands (.array (operands collection)) = operands collection :=
      operands_array items?_of_mem_operands
    exact ⟨operands collection, rfl, congrArg (fun items => Except.ok (Value.array items)) again⟩

/-- An object between numbers is not added up, however the three of them are grouped. -/
theorem grouped_sums_fail_alike :
    Relation.EqvGen Regroups
        (.array [.ofInt 1, .array [.object [("k", .array [.null])], .array []], .ofInt 2])
        (.array [.array [.ofInt 1, .object [("k", .array [.null])]], .array [.array [.ofInt 2]]]) ∧
      Arithmetic.addN
          (.array [.ofInt 1, .array [.object [("k", .array [.null])], .array []], .ofInt 2]) =
        .error (.invalidParam "items" .numbers .object) ∧
      Arithmetic.addN
          (.array [.array [.ofInt 1, .object [("k", .array [.null])]],
            .array [.array [.ofInt 2]]]) =
        .error (.invalidParam "items" .numbers .object) := by
  obtain ⟨-, -, -, -, grouped, answers, -⟩ := grouping_immaterial
  have same := (grouped
    [.ofInt 1, .array [.object [("k", .array [.null])], .array []], .ofInt 2]
    [.array [.ofInt 1, .object [("k", .array [.null])]], .array [.array [.ofInt 2]]]).mpr rfl
  have alike := answers _ _ same Arithmetic.addN List.mem_cons_self
  exact ⟨same, alike.trans rfl, rfl⟩

end StepGraph.Parameters
