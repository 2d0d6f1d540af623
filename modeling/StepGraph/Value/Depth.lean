import StepGraph.Value.Basic

/-!
# Nesting depth

Arrays and objects are one deeper than the deepest value in them, and everything else has depth
zero. What is found inside a value is never deeper than the value.
-/
namespace StepGraph.Value

mutual
/-- The nesting depth: one more than that of the deepest item or field. -/
def depth : Value → Nat
  | .array items => depthOfItems items + 1
  | .object fields => depthOfFields fields + 1
  | .null => 0
  | .bool _ => 0
  | .number _ => 0
  | .string _ => 0

/-- The depth of the deepest item. -/
def depthOfItems : List Value → Nat
  | [] => 0
  | item :: rest => max (depth item) (depthOfItems rest)

/-- The depth of the deepest field. -/
def depthOfFields : List (String × Value) → Nat
  | [] => 0
  | (_, value) :: rest => max (depth value) (depthOfFields rest)
end

/-- An item is no deeper than the deepest item. -/
theorem depth_le_depthOfItems {item : Value} {items : List Value} (member : item ∈ items) :
    depth item ≤ depthOfItems items := by
  induction items with
  | nil => cases member
  | cons first rest ih =>
    simp only [depthOfItems]
    rcases List.mem_cons.mp member with rfl | later
    · exact Nat.le_max_left _ _
    · exact Nat.le_trans (ih later) (Nat.le_max_right _ _)

/-- A stored value is no deeper than the deepest field. -/
theorem depth_le_depthOfFields {fields : Object} {entry : String × Value}
    (member : entry ∈ fields) : depth entry.2 ≤ depthOfFields fields := by
  induction fields with
  | nil => cases member
  | cons first rest ih =>
    obtain ⟨key, value⟩ := first
    simp only [depthOfFields]
    rcases List.mem_cons.mp member with rfl | later
    · exact Nat.le_max_left _ _
    · exact Nat.le_trans (ih later) (Nat.le_max_right _ _)

/-- Fields that are all shallow make a shallow object. -/
theorem depthOfFields_le {fields : Object} {bound : Nat}
    (shallow : ∀ entry ∈ fields, depth entry.2 ≤ bound) : depthOfFields fields ≤ bound := by
  induction fields with
  | nil => exact Nat.zero_le _
  | cons first rest ih =>
    obtain ⟨key, value⟩ := first
    simp only [depthOfFields]
    exact Nat.max_le.mpr ⟨shallow (key, value) List.mem_cons_self,
      ih fun entry member => shallow entry (List.mem_cons_of_mem _ member)⟩

/-- A value found under a key is no deeper than the deepest field. -/
theorem depth_le_of_find? {fields : Object} {key : String} {value : Value}
    (found : Dictionary.find? fields key = some value) : depth value ≤ depthOfFields fields := by
  induction fields with
  | nil => simp [Dictionary.find?] at found
  | cons first rest ih =>
    obtain ⟨name, held⟩ := first
    simp only [Dictionary.find?] at found
    simp only [depthOfFields]
    split at found
    · obtain rfl := Option.some.inj found
      exact Nat.le_max_left _ _
    · exact Nat.le_trans (ih found) (Nat.le_max_right _ _)

/-- A field is shallower than its object. -/
theorem depth_lt_of_field? {value : Value} {key : String} {stored : Value}
    (found : value.field? key = some stored) : depth stored < depth value := by
  cases value with
  | object fields =>
    have inside : Dictionary.find? fields key = some stored := by
      simpa [field?, fields?] using found
    simpa only [depth] using Nat.lt_succ_of_le (depth_le_of_find? inside)
  | _ => simp [field?, fields?] at found

end StepGraph.Value
