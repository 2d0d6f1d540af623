import StepGraph.Dictionary
import StepGraph.Value.Number

/-!
# Values

The values that steps compute with: null, truth values, numbers, strings, arrays and objects.
The fields of an object are a dictionary, and `Canonical` says so at every depth: keys ascend
strictly and integers fit their word. Every value that is read, decoded or computed here is
canonical.
-/
namespace StepGraph

/-- A value of any depth. -/
inductive Value where
  /-- The absent value. -/
  | null
  /-- A truth value. -/
  | bool (flag : Bool)
  /-- A number. -/
  | number (stored : Number)
  /-- A string. -/
  | string (text : String)
  /-- Values in order. -/
  | array (items : List Value)
  /-- Values by key. -/
  | object (fields : List (String × Value))

/-- The fields of an object. -/
abbrev Object := Dictionary Value

/-- What a value is, its content set aside. -/
inductive Kind where
  /-- The absent value. -/
  | null
  /-- A truth value. -/
  | bool
  /-- A number. -/
  | number
  /-- A string. -/
  | string
  /-- Values in order. -/
  | array
  /-- Values by key. -/
  | object
deriving DecidableEq, Repr

/-- The name of a kind in messages. -/
def Kind.name : Kind → String
  | .null => "null"
  | .bool => "bool"
  | .number => "number"
  | .string => "string"
  | .array => "array"
  | .object => "object"

namespace Value

mutual
/-- Whether two values are the same. -/
def decEq : (left right : Value) → Decidable (left = right)
  | .null, .null => .isTrue rfl
  | .bool left, .bool right => decidable_of_iff (left = right) (by simp)
  | .number left, .number right => decidable_of_iff (left = right) (by simp)
  | .string left, .string right => decidable_of_iff (left = right) (by simp)
  | .array left, .array right =>
    have := decEqItems left right
    decidable_of_iff (left = right) (by simp)
  | .object left, .object right =>
    have := decEqFields left right
    decidable_of_iff (left = right) (by simp)
  | .null, .bool _ | .null, .number _ | .null, .string _ | .null, .array _
  | .null, .object _ => .isFalse nofun
  | .bool _, .null | .bool _, .number _ | .bool _, .string _ | .bool _, .array _
  | .bool _, .object _ => .isFalse nofun
  | .number _, .null | .number _, .bool _ | .number _, .string _ | .number _, .array _
  | .number _, .object _ => .isFalse nofun
  | .string _, .null | .string _, .bool _ | .string _, .number _ | .string _, .array _
  | .string _, .object _ => .isFalse nofun
  | .array _, .null | .array _, .bool _ | .array _, .number _ | .array _, .string _
  | .array _, .object _ => .isFalse nofun
  | .object _, .null | .object _, .bool _ | .object _, .number _ | .object _, .string _
  | .object _, .array _ => .isFalse nofun

/-- Whether two lists hold the same values. -/
def decEqItems : (left right : List Value) → Decidable (left = right)
  | [], [] => .isTrue rfl
  | [], _ :: _ => .isFalse nofun
  | _ :: _, [] => .isFalse nofun
  | left :: lefts, right :: rights =>
    have := decEq left right
    have := decEqItems lefts rights
    decidable_of_iff (left = right ∧ lefts = rights) (by simp)

/-- Whether two lists hold the same fields. -/
def decEqFields : (left right : List (String × Value)) → Decidable (left = right)
  | [], [] => .isTrue rfl
  | [], _ :: _ => .isFalse nofun
  | _ :: _, [] => .isFalse nofun
  | (leftKey, left) :: lefts, (rightKey, right) :: rights =>
    have := decEq left right
    have := decEqFields lefts rights
    decidable_of_iff ((leftKey = rightKey ∧ left = right) ∧ lefts = rights) (by simp)
end

instance : DecidableEq Value := decEq

instance : Inhabited Value := ⟨.null⟩

/-- The kind of a value. -/
def kind : Value → Kind
  | .null => .null
  | .bool _ => .bool
  | .number _ => .number
  | .string _ => .string
  | .array _ => .array
  | .object _ => .object

/-- The value of an integer. -/
def ofInt (value : Int) : Value := .number (.integer value)

/-- The content of a string. -/
def string? : Value → Option String
  | .string text => some text
  | _ => none

/-- The items of an array. -/
def items? : Value → Option (List Value)
  | .array items => some items
  | _ => none

/-- Only an array has items. -/
theorem items?_eq_some_iff {value : Value} {items : List Value} :
    value.items? = some items ↔ value = .array items := by
  cases value <;> simp [items?]

/-- The fields of an object. -/
def fields? : Value → Option Object
  | .object fields => some fields
  | _ => none

/-- The double nearest to a number. -/
def double? : Value → Option Float
  | .number stored => some stored.toDouble
  | _ => none

/-- The value of a field, when the value is an object that has it. -/
def field? (value : Value) (key : String) : Option Value :=
  value.fields?.bind fun fields => Dictionary.find? fields key

/-- Null, false, a zero and the empty string do not count as true; all else does, empty arrays
and objects included. -/
def isTruthy : Value → Bool
  | .null => false
  | .bool flag => flag
  | .number stored => stored.toDouble != 0.0
  | .string text => text != ""
  | .array _ => true
  | .object _ => true

mutual
/-- Keys ascend strictly in every object inside, and every integer fits its word. -/
def Canonical : Value → Prop
  | .array items => CanonicalItems items
  | .object fields => Dictionary.Sorted fields ∧ CanonicalFields fields
  | .number (.integer value) => Number.fitsWord value = true
  | .number (.double value) => Double.isFinite value = true
  | .null => True
  | .bool _ => True
  | .string _ => True

/-- Every item is canonical. -/
def CanonicalItems : List Value → Prop
  | [] => True
  | item :: rest => Canonical item ∧ CanonicalItems rest

/-- Every field is canonical. -/
def CanonicalFields : List (String × Value) → Prop
  | [] => True
  | (_, value) :: rest => Canonical value ∧ CanonicalFields rest
end

/-- Items are canonical when each is. -/
theorem canonicalItems_iff {items : List Value} :
    CanonicalItems items ↔ ∀ item ∈ items, item.Canonical := by
  induction items with
  | nil => exact ⟨fun _ => nofun, fun _ => trivial⟩
  | cons item rest ih => rw [CanonicalItems, List.forall_mem_cons, ih]

/-- Fields are canonical when the value of each is. -/
theorem canonicalFields_iff {fields : List (String × Value)} :
    CanonicalFields fields ↔ ∀ entry ∈ fields, entry.2.Canonical := by
  induction fields with
  | nil => exact ⟨fun _ => nofun, fun _ => trivial⟩
  | cons entry rest ih => rw [CanonicalFields, List.forall_mem_cons, ih]

/-- Fields in front of others are canonical together when both are. -/
theorem canonicalFields_append {left right : List (String × Value)} :
    CanonicalFields (left ++ right) ↔ CanonicalFields left ∧ CanonicalFields right := by
  simp only [canonicalFields_iff, List.forall_mem_append]

/-- What is found in canonical fields is canonical. -/
theorem CanonicalFields.of_find? {fields : Object} (canonical : CanonicalFields fields)
    {key : String} {value : Value} (found : Dictionary.find? fields key = some value) :
    value.Canonical :=
  canonicalFields_iff.mp canonical _ (Dictionary.mem_of_find?_eq_some found)

/-- An object made from canonical fields is canonical. -/
theorem canonical_ofList {fields : List (String × Value)} (canonical : CanonicalFields fields) :
    (Value.object (Dictionary.ofList fields)).Canonical :=
  ⟨Dictionary.sorted_ofList fields, canonicalFields_iff.mpr fun entry member =>
    canonicalFields_iff.mp canonical entry (Dictionary.mem_of_mem_ofList member)⟩

end Value

end StepGraph
