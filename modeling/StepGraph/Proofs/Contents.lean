import StepGraph.Value.Depth

/-!
# Values by what they hold

An array is known by the items at its positions and an object by the values under its keys. A
property of values that passes from what a value holds to the value itself is a property of all.
-/
namespace StepGraph.Value

/-- A value that holds no others. -/
def IsScalar : Value → Prop
  | .array _ => False
  | .object _ => False
  | .null => True
  | .bool _ => True
  | .number _ => True
  | .string _ => True

/-- Induction on what a value holds: the items of an array and the fields of an object. -/
@[elab_as_elim] theorem members_induction {motive : Value → Prop}
    (scalar : ∀ value, value.IsScalar → motive value)
    (array : ∀ items : List Value, (∀ item ∈ items, motive item) → motive (.array items))
    (object : ∀ fields : Object, (∀ entry ∈ fields, motive entry.2) → motive (.object fields))
    (value : Value) : motive value := by
  induction deep : value.depth using Nat.strongRecOn generalizing value with
  | ind depth ih =>
    subst deep
    cases value with
    | array items =>
      exact array items fun item member =>
        ih _ (Nat.lt_succ_of_le (depth_le_depthOfItems member)) item rfl
    | object fields =>
      exact object fields fun entry member =>
        ih _ (Nat.lt_succ_of_le (depth_le_depthOfFields member)) entry.2 rfl
    | _ => exact scalar _ trivial

/-- Induction on what is found in a value: by position in an array and by key in an object. -/
@[elab_as_elim] theorem contents_induction {motive : Value → Prop}
    (scalar : ∀ value, value.IsScalar → motive value)
    (array : ∀ items : List Value,
      (∀ (position : Nat) child, items[position]? = some child → motive child) →
        motive (.array items))
    (object : ∀ fields : Object,
      (∀ key child, Dictionary.find? fields key = some child → motive child) →
        motive (.object fields))
    (value : Value) : motive value :=
  members_induction scalar
    (fun items ih => array items fun _ child held => ih child (List.mem_of_getElem? held))
    (fun fields ih => object fields fun key child held =>
      ih (key, child) (Dictionary.mem_of_find?_eq_some held)) value

/-- An item of a canonical array is canonical. -/
theorem Canonical.of_getElem? {items : List Value} (canonical : (Value.array items).Canonical)
    {position : Nat} {child : Value} (held : items[position]? = some child) : child.Canonical :=
  canonicalItems_iff.mp canonical child (List.mem_of_getElem? held)

/-- A value under a key of a canonical object is canonical. -/
theorem Canonical.of_find? {fields : Object} (canonical : (Value.object fields).Canonical)
    {key : String} {child : Value} (held : Dictionary.find? fields key = some child) :
    child.Canonical :=
  CanonicalFields.of_find? canonical.2 held

/-- An array is canonical when the items at its positions are. -/
theorem canonical_array {items : List Value}
    (each : ∀ (position : Nat) child, items[position]? = some child → child.Canonical) :
    (Value.array items).Canonical := by
  refine canonicalItems_iff.mpr fun child member => ?_
  obtain ⟨position, held⟩ := List.mem_iff_getElem?.mp member
  exact each position child held

/-- An object is canonical when its keys ascend and the values under them are canonical. -/
theorem canonical_object {fields : Object} (sorted : Dictionary.Sorted fields)
    (each : ∀ key child, Dictionary.find? fields key = some child → child.Canonical) :
    (Value.object fields).Canonical :=
  ⟨sorted, canonicalFields_iff.mpr fun entry member =>
    each entry.1 entry.2 ((Dictionary.find?_eq_some_iff sorted).mpr member)⟩

end StepGraph.Value
