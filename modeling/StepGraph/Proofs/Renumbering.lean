import StepGraph.Proofs.Addressing
import StepGraph.Proofs.Contents

/-!
# Changing the numbers of a value

A change of numbers is carried out in every place of a value and leaves all else alone. Paths do
not see numbers, so that resolving one in the changed value gives the changed answer.
-/
namespace StepGraph

namespace Value

mutual
/-- The value with every number in it changed. -/
def mapNumbers (change : Number → Number) : Value → Value
  | .array items => .array (mapNumbersOfItems change items)
  | .object fields => .object (mapNumbersOfFields change fields)
  | .number stored => .number (change stored)
  | .null => .null
  | .bool flag => .bool flag
  | .string text => .string text

/-- The items with every number in them changed. -/
def mapNumbersOfItems (change : Number → Number) : List Value → List Value
  | [] => []
  | item :: rest => mapNumbers change item :: mapNumbersOfItems change rest

/-- The fields with every number in them changed. -/
def mapNumbersOfFields (change : Number → Number) :
    List (String × Value) → List (String × Value)
  | [] => []
  | (key, value) :: rest => (key, mapNumbers change value) :: mapNumbersOfFields change rest
end

mutual
/-- Every number in the value has a property. -/
def EveryNumber (holds : Number → Prop) : Value → Prop
  | .array items => EveryNumberOfItems holds items
  | .object fields => EveryNumberOfFields holds fields
  | .number stored => holds stored
  | .null => True
  | .bool _ => True
  | .string _ => True

/-- Every number in the items has a property. -/
def EveryNumberOfItems (holds : Number → Prop) : List Value → Prop
  | [] => True
  | item :: rest => EveryNumber holds item ∧ EveryNumberOfItems holds rest

/-- Every number in the fields has a property. -/
def EveryNumberOfFields (holds : Number → Prop) : List (String × Value) → Prop
  | [] => True
  | (_, value) :: rest => EveryNumber holds value ∧ EveryNumberOfFields holds rest
end

section Change

variable {change : Number → Number}

/-- An array is changed item by item. -/
theorem mapNumbers_array (items : List Value) :
    (Value.array items).mapNumbers change = .array (items.map (mapNumbers change)) := by
  rw [mapNumbers, array.injEq]
  induction items with
  | nil => rfl
  | cons item rest ih => rw [mapNumbersOfItems, List.map_cons, ih]

/-- An object is changed field by field. -/
theorem mapNumbers_object (fields : Object) : (Value.object fields).mapNumbers change =
    .object (fields.map fun entry => (entry.1, entry.2.mapNumbers change)) := by
  rw [mapNumbers, object.injEq]
  induction fields with
  | nil => rfl
  | cons entry rest ih => rw [mapNumbersOfFields, List.map_cons, ih]

/-- A change of numbers turns arrays into arrays and nothing else into one. -/
theorem items?_mapNumbers (value : Value) :
    (value.mapNumbers change).items? = value.items?.map (List.map (mapNumbers change)) := by
  cases value with
  | array items => rw [mapNumbers_array]; rfl
  | object fields => rw [mapNumbers_object]; rfl
  | _ => rfl

end Change

section Every

variable {holds : Number → Prop}

/-- The numbers in an array are those in its items. -/
theorem everyNumber_array {items : List Value} :
    (Value.array items).EveryNumber holds ↔ ∀ item ∈ items, item.EveryNumber holds := by
  rw [EveryNumber]
  induction items with
  | nil => exact ⟨fun _ => nofun, fun _ => trivial⟩
  | cons item rest ih => rw [EveryNumberOfItems, List.forall_mem_cons, ih]

/-- The numbers in an object are those in its fields. -/
theorem everyNumber_object {fields : Object} :
    (Value.object fields).EveryNumber holds ↔ ∀ entry ∈ fields, entry.2.EveryNumber holds := by
  rw [EveryNumber]
  induction fields with
  | nil => exact ⟨fun _ => nofun, fun _ => trivial⟩
  | cons entry rest ih => rw [EveryNumberOfFields, List.forall_mem_cons, ih]

end Every

/-- Two changes that agree on the numbers of a value change it alike. -/
theorem mapNumbers_congr {holds : Number → Prop} {first second : Number → Number}
    (same : ∀ stored, holds stored → first stored = second stored) (value : Value)
    (every : value.EveryNumber holds) : value.mapNumbers first = value.mapNumbers second := by
  induction value using members_induction with
  | scalar value plain =>
    cases value with
    | number stored => exact congrArg Value.number (same stored every)
    | array _ | object _ => exact plain.elim
    | _ => rfl
  | array items ih =>
    have inside := everyNumber_array.mp every
    rw [mapNumbers_array, mapNumbers_array,
      List.map_congr_left fun item member => ih item member (inside item member)]
  | object fields ih =>
    have inside := everyNumber_object.mp every
    rw [mapNumbers_object, mapNumbers_object, List.map_congr_left fun entry member =>
      congrArg (Prod.mk entry.1) (ih entry member (inside entry member))]

/-- Lists with the same images are the same when the function keeps their members apart. -/
theorem eq_of_map_eq {α β : Type} {function : α → β} {left right : List α}
    (apart : ∀ first ∈ left, ∀ second ∈ right, function first = function second → first = second)
    (same : left.map function = right.map function) : left = right := by
  induction left generalizing right with
  | nil => exact (List.map_eq_nil_iff.mp same.symm).symm
  | cons first rest ih =>
    cases right with
    | nil => cases same
    | cons second others =>
      obtain ⟨head, tail⟩ := List.cons.inj same
      rw [apart first List.mem_cons_self second List.mem_cons_self head,
        ih (fun item member other member' => apart item (List.mem_cons_of_mem _ member) other
          (List.mem_cons_of_mem _ member')) tail]

/-- A change that keeps apart the numbers of two values keeps apart the values. -/
theorem eq_of_mapNumbers_eq {holds : Number → Prop} {change : Number → Number}
    (apart : ∀ first second, holds first → holds second → change first = change second →
      first = second) {left right : Value} (leftEvery : left.EveryNumber holds)
    (rightEvery : right.EveryNumber holds)
    (same : left.mapNumbers change = right.mapNumbers change) : left = right := by
  induction left using members_induction generalizing right with
  | scalar left plain =>
    cases left with
    | array _ | object _ => exact plain.elim
    | number stored =>
      cases right with
      | number other =>
        exact congrArg Value.number (apart stored other leftEvery rightEvery (number.inj same))
      | _ => simp [mapNumbers] at same
    | _ => cases right <;> simp_all [mapNumbers]
  | array items ih =>
    cases right with
    | array others =>
      rw [mapNumbers_array, mapNumbers_array, array.injEq] at same
      exact congrArg Value.array (eq_of_map_eq (fun item member other member' => ih item member
        (everyNumber_array.mp leftEvery item member)
        (everyNumber_array.mp rightEvery other member')) same)
    | _ => simp [mapNumbers] at same
  | object fields ih =>
    cases right with
    | object others =>
      rw [mapNumbers_object, mapNumbers_object, object.injEq] at same
      refine congrArg Value.object (eq_of_map_eq (fun entry member other member' equal => ?_) same)
      obtain ⟨keys, values⟩ := Prod.mk.inj equal
      exact Prod.ext keys (ih entry member (everyNumber_object.mp leftEvery entry member)
        (everyNumber_object.mp rightEvery other member') values)
    | _ => simp [mapNumbers] at same

/-- Two changes after each other are one. -/
theorem mapNumbers_mapNumbers (first second : Number → Number) (value : Value) :
    (value.mapNumbers first).mapNumbers second =
      value.mapNumbers fun stored => second (first stored) := by
  induction value using members_induction with
  | scalar value plain =>
    cases value with
    | array _ | object _ => exact plain.elim
    | _ => rfl
  | array items ih =>
    rw [mapNumbers_array, mapNumbers_array, mapNumbers_array, List.map_map]
    exact congrArg Value.array (List.map_congr_left ih)
  | object fields ih =>
    rw [mapNumbers_object, mapNumbers_object, mapNumbers_object, List.map_map]
    exact congrArg Value.object (List.map_congr_left fun entry member =>
      congrArg (Prod.mk entry.1) (ih entry member))

end Value

namespace Path

open Value

variable {change : Number → Number}

/-- A step into a changed value leads to the changed child. -/
theorem childOfValue?_mapNumbers (value : Value) (segment : String) :
    childOfValue? (value.mapNumbers change) segment =
      (childOfValue? value segment).map (mapNumbers change) := by
  cases value with
  | array items =>
    rw [mapNumbers_array, childOfValue?, childOfValue?, Option.map_bind]
    exact Option.bind_congr fun position _ => List.getElem?_map
  | object fields =>
    rw [mapNumbers_object]
    exact Dictionary.find?_map (mapNumbers change) fields segment
  | _ => rfl

/-- Segments lead in a changed value to the changed result. -/
theorem descend_mapNumbers (value : Value) (parts : List String) :
    descend (value.mapNumbers change) parts = (descend value parts).map (mapNumbers change) := by
  induction parts generalizing value with
  | nil => rfl
  | cons segment rest ih =>
    rw [descend, descend, childOfValue?_mapNumbers]
    cases childOfValue? value segment with
    | none => rfl
    | some child => exact ih child

/-- A walk in a changed value finds the changed result. -/
theorem walk_mapNumbers (value : Value) (parts : List String) :
    walk (value.mapNumbers change) parts = (walk value parts).map (mapNumbers change) := by
  cases parts with
  | nil => rfl
  | cons segment rest => exact descend_mapNumbers value (segment :: rest)

/-- A changed item contributes the changed value. -/
theorem project_mapNumbers (after : List String) (item : Value) :
    project after (item.mapNumbers change) = (project after item).mapNumbers change := by
  rw [project, project]
  split
  · rfl
  · rw [walk_mapNumbers]
    cases walk item after with
    | none => rfl
    | some found => rfl

/-- A path is resolved in a changed value to the changed answer. -/
theorem resolve_mapNumbers (value : Value) (path : String) :
    resolve (value.mapNumbers change) path =
      (resolve value path).map (Option.map (mapNumbers change)) := by
  rcases resolve_cases path with walked | refused | ⟨before, after, projected⟩
  · rw [walked, walked, walk_mapNumbers, Except.map]
  · rw [refused, refused, Except.map]
  · rw [projected, projected, resolveWildcard_eq, resolveWildcard_eq, descend_mapNumbers]
    cases descend value before with
    | none => rfl
    | some target =>
      simp only [Option.map_some, items?_mapNumbers]
      cases target.items? with
      | none => rfl
      | some items =>
        have swap : project after ∘ mapNumbers change = mapNumbers change ∘ project after :=
          funext (project_mapNumbers after)
        simp only [Option.map_some, Except.map, mapNumbers_array, List.map_map, swap]

end Path

end StepGraph
