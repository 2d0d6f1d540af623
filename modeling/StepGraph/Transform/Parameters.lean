import StepGraph.Transform.Error

/-!
# Parameters of transforms

A transform takes one value. Most read named parameters from it, as the fields of an object: an
absent parameter, or any parameter of something that is no object, counts as null. Transforms of
many operands take the whole value as a collection and flatten it.
-/
namespace StepGraph

/-- What a transform answers, its effects set aside. -/
abbrev Result := Except TransformError Value

namespace Parameters

/-- The failure of a parameter that is not as expected. -/
def invalid {α : Type} (param : String) (expected : Expected) (found : Value) :
    Except TransformError α :=
  .error (.invalidParam param expected found.kind)

/-- A parameter, null when it is absent. -/
def value (params : Value) (param : String) : Value := (params.field? param).getD .null

/-- A parameter of canonical parameters is canonical. -/
theorem canonical_value {params : Value} (canonical : params.Canonical) (param : String) :
    (value params param).Canonical := by
  cases params with
  | object fields =>
    show ((Dictionary.find? fields param).getD .null).Canonical
    cases found : Dictionary.find? fields param with
    | none => trivial
    | some stored => exact canonical.2.of_find? found
  | _ => trivial

/-- A number, as the double nearest to it. -/
def number (params : Value) (param : String) : Except TransformError Float :=
  match (value params param).double? with
  | some double => .ok double
  | none => invalid param .number (value params param)

/-- A string. -/
def string (params : Value) (param : String) : Except TransformError String :=
  match (value params param).string? with
  | some text => .ok text
  | none => invalid param .string (value params param)

/-- An array. -/
def array (params : Value) (param : String) : Except TransformError (List Value) :=
  match (value params param).items? with
  | some items => .ok items
  | none => invalid param .array (value params param)

/-- The number of an arithmetic result. -/
def finite (function : String) (result : Float) : Result :=
  match Number.ofDouble? result with
  | some number => .ok (.number number)
  | none => .error (.nonFinite function)

mutual
/-- The items of arrays inside arrays, in order; anything else is one item. -/
def flatten : Value → List Value
  | .array items => flattenItems items
  | .object fields => [.object fields]
  | .null => [.null]
  | .bool flag => [.bool flag]
  | .number stored => [.number stored]
  | .string text => [.string text]

/-- The items of several values in order. -/
def flattenItems : List Value → List Value
  | [] => []
  | item :: rest => flatten item ++ flattenItems rest
end

/-- Several values are flattened one by one. -/
theorem flattenItems_eq (items : List Value) : flattenItems items = items.flatMap flatten := by
  induction items with
  | nil => rfl
  | cons item rest ih => rw [flattenItems, ih, List.flatMap_cons]

/-- The operands in a collection: the flattened values of an object, or the flattened items of
anything else. -/
def operands : Value → List Value
  | .object fields => flattenItems (Dictionary.values fields)
  | other => flatten other

variable {motive : Value → Prop}

mutual
/-- The items that a value is flattened to are no arrays. A property of the value is theirs as well
when arrays pass it on to their items. -/
theorem forall_mem_flatten
    (inItems : ∀ items : List Value, motive (.array items) → ∀ item ∈ items, motive item) :
    ∀ value : Value, motive value → ∀ item ∈ flatten value, item.items? = none ∧ motive item
  | .array items, holds => forall_mem_flattenItems inItems items (inItems items holds)
  | .object _, holds => fun _ member => List.mem_singleton.mp member ▸ ⟨rfl, holds⟩
  | .null, holds => fun _ member => List.mem_singleton.mp member ▸ ⟨rfl, holds⟩
  | .bool _, holds => fun _ member => List.mem_singleton.mp member ▸ ⟨rfl, holds⟩
  | .number _, holds => fun _ member => List.mem_singleton.mp member ▸ ⟨rfl, holds⟩
  | .string _, holds => fun _ member => List.mem_singleton.mp member ▸ ⟨rfl, holds⟩

/-- The same is true of the items that several values are flattened to. -/
theorem forall_mem_flattenItems
    (inItems : ∀ items : List Value, motive (.array items) → ∀ item ∈ items, motive item) :
    ∀ values : List Value, (∀ value ∈ values, motive value) →
      ∀ item ∈ flattenItems values, item.items? = none ∧ motive item
  | [], _ => nofun
  | first :: rest, holds => by
    obtain ⟨here, later⟩ := List.forall_mem_cons.mp holds
    intro item member
    rcases List.mem_append.mp member with inFirst | inRest
    · exact forall_mem_flatten inItems first here item inFirst
    · exact forall_mem_flattenItems inItems rest later item inRest
end

/-- Operands are no arrays. A property of the collection is theirs as well when arrays and objects
pass it on to what they hold. -/
theorem forall_mem_operands
    (inItems : ∀ items : List Value, motive (.array items) → ∀ item ∈ items, motive item)
    (inFields : ∀ fields : Object, motive (.object fields) →
      ∀ value ∈ Dictionary.values fields, motive value)
    {collection : Value} (holds : motive collection) :
    ∀ item ∈ operands collection, item.items? = none ∧ motive item := by
  cases collection with
  | object fields => exact forall_mem_flattenItems inItems _ (inFields fields holds)
  | _ => exact forall_mem_flatten inItems _ holds

end Parameters

end StepGraph
