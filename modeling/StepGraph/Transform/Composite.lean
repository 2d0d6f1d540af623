import StepGraph.Path
import StepGraph.Transform.Parameters
import StepGraph.Value.Depth

/-!
# Composite transforms

A composite transform calls another function of the registry it lives in, once for each item of
a collection. Its plan says beforehand which function it calls and with which parameters, or
why it calls none. Plans get smaller: what `map` passes on is nested less deeply than its own
parameters, and what `vectorOp` passes on names no operation, so that a composite called by it
calls nothing further. `rank` measures both.
-/
namespace StepGraph

/-- The transforms that call others. -/
inductive Composite where
  /-- A function on each item of a collection. -/
  | map
  /-- A function on the items of two collections in pairs. -/
  | vectorOp
deriving DecidableEq, Repr

namespace Composite

open Parameters

/-- The text that stands for the item itself among the parameters of `map`. -/
def itemPlaceholder : String := "_item_"

/-- The argument that `map` passes for one entry of its parameters: a path is looked up in the
item, and anything but a text is passed as it is. -/
def argument (item entry : Value) : Value :=
  match entry with
  | .string path =>
    if path = itemPlaceholder then item else (Path.lookup item path).getD .null
  | other => other

/-- The parameters that `map` passes for one item. -/
def arguments (entries : Object) (item : Value) : Value :=
  .object (entries.map fun entry => (entry.1, argument item entry.2))

/-- The entries of the parameters of `map`, none when they are absent. -/
def mapEntries (params : Value) : Except TransformError Object :=
  match value params "params" with
  | .object entries => .ok entries
  | .null => .ok []
  | other => invalid "params" .object other

/-- The function and the parameters of each call of `map`. -/
def planMap (known : String → Bool) (params : Value) :
    Except TransformError (String × List Value) := do
  let items ← array params "collection"
  let function ← string params "fn"
  let entries ← mapEntries params
  if known function then pure (function, items.map (arguments entries))
  else throw (.notFound function)

/-- The names under which an operation takes its two operands. -/
def operandNames (operation : String) : String × String :=
  if operation = "addFactor" ∨ operation = "subFactor" ∨ operation = "mult" then
    ("amt", "factor")
  else if operation = "div" then ("num", "dem")
  else ("a", "b")

/-- The parameters that `vectorOp` passes for one pair. -/
def pair (operation : String) (left right : Value) : Value :=
  .object (Dictionary.ofList
    [((operandNames operation).1, left), ((operandNames operation).2, right)])

/-- The function and the parameters of each call of `vectorOp`. -/
def planVectorOp (known : String → Bool) (params : Value) :
    Except TransformError (String × List Value) := do
  let left := operands (value params "collectionA")
  let right := operands (value params "collectionB")
  if left.length ≠ right.length then throw (.lengthMismatch left.length right.length)
  let operation ← string params "op"
  if known operation then pure (operation, List.zipWith (pair operation) left right)
  else throw (.notFound operation)

/-- The function and the parameters of each call, given which names are registered. -/
def plan (known : String → Bool) (params : Value) :
    Composite → Except TransformError (String × List Value)
  | .map => planMap known params
  | .vectorOp => planVectorOp known params

/-- Twice the depth of parameters, and one more when they name an operation. -/
def rank (params : Value) : Nat :=
  2 * params.depth + (if (params.field? "op").isSome then 1 else 0)

/-- A step into a value leads to a shallower one. -/
theorem depth_lt_of_child {value child : Value} {segment : String}
    (found : Path.childOfValue? value segment = some child) : child.depth < value.depth := by
  cases value with
  | object fields =>
    simp only [Path.childOfValue?] at found
    simpa only [Value.depth] using Nat.lt_succ_of_le (Value.depth_le_of_find? found)
  | array items =>
    simp only [Path.childOfValue?, Option.bind_eq_some_iff] at found
    obtain ⟨position, _, here⟩ := found
    simpa only [Value.depth] using
      Nat.lt_succ_of_le (Value.depth_le_depthOfItems (List.mem_of_getElem? here))
  | _ => simp [Path.childOfValue?] at found

/-- Walking into a value never leads deeper than the value. -/
theorem depth_le_of_descend {parts : List String} {value target : Value}
    (found : Path.descend value parts = some target) : target.depth ≤ value.depth := by
  induction parts generalizing value with
  | nil =>
    obtain rfl := Option.some.inj found
    exact Nat.le_refl _
  | cons segment rest ih =>
    simp only [Path.descend, Option.bind_eq_some_iff] at found
    obtain ⟨child, step, onward⟩ := found
    exact Nat.le_trans (ih onward) (Nat.le_of_lt (depth_lt_of_child step))

/-- What is looked up in a value is no deeper than the value. -/
theorem depth_le_of_lookup {value target : Value} {path : String}
    (found : Path.lookup value path = some target) : target.depth ≤ value.depth := by
  simp only [Path.lookup] at found
  cases parts : Path.segments path with
  | nil => simp [parts, Path.walk] at found
  | cons segment rest =>
    rw [parts] at found
    have whole : Path.descend value (segment :: rest) = some target := found
    exact depth_le_of_descend whole

/-- An argument is no deeper than the item or the entry it comes from. -/
theorem depth_argument_le (item entry : Value) :
    (argument item entry).depth ≤ max item.depth entry.depth := by
  cases entry with
  | string path =>
    simp only [argument]
    split
    · exact Nat.le_max_left _ _
    · cases found : Path.lookup item path with
      | none => exact Nat.zero_le _
      | some target => exact Nat.le_trans (depth_le_of_lookup found) (Nat.le_max_left _ _)
  | _ => exact Nat.le_max_right _ _

/-- An operand is no deeper than the collection. -/
theorem depth_le_of_mem_operands {item collection : Value} (member : item ∈ operands collection) :
    item.depth ≤ collection.depth := by
  have inItems (items : List Value) (fits : (Value.array items).depth ≤ collection.depth) :
      ∀ item ∈ items, item.depth ≤ collection.depth :=
    fun item inside =>
      Nat.le_trans (Value.depth_le_depthOfItems inside) (Nat.le_of_succ_le fits)
  have inFields (fields : Object) (fits : (Value.object fields).depth ≤ collection.depth) :
      ∀ value ∈ Dictionary.values fields, value.depth ≤ collection.depth := by
    intro value inside
    obtain ⟨entry, stored, rfl⟩ := List.mem_map.mp inside
    exact Nat.le_trans (Value.depth_le_depthOfFields stored) (Nat.le_of_succ_le fits)
  exact (forall_mem_operands (motive := fun value => value.depth ≤ collection.depth) inItems
    inFields (Nat.le_refl _) item member).2

/-- A parameter is shallower than the parameters, unless it is absent. -/
theorem depth_value_le (params : Value) (param : String) :
    (value params param).depth ≤ params.depth - 1 := by
  unfold value
  cases found : params.field? param with
  | none => exact Nat.zero_le _
  | some stored =>
    have below := Value.depth_lt_of_field? found
    simp only [Option.getD_some]
    omega

/-- The parameters of every call that `map` plans are shallower than its own. -/
theorem planMap_depth {known : String → Bool} {params : Value} {function : String}
    {calls : List Value} (planned : planMap known params = .ok (function, calls)) :
    ∀ call ∈ calls, call.depth < params.depth := by
  cases collected : array params "collection" with
  | error fault => simp [planMap, collected, bind, Except.bind] at planned
  | ok items =>
    cases named : string params "fn" with
    | error fault => simp [planMap, collected, named, bind, Except.bind] at planned
    | ok name =>
      cases listed : mapEntries params with
      | error fault => simp [planMap, collected, named, listed, bind, Except.bind] at planned
      | ok entries =>
        simp only [planMap, collected, named, listed, bind, Except.bind, pure, Except.pure,
          throw, throwThe, MonadExceptOf.throw] at planned
        split at planned
        · obtain ⟨rfl, rfl⟩ := Prod.mk.inj (Except.ok.inj planned)
          intro call member
          obtain ⟨item, inside, rfl⟩ := List.mem_map.mp member
          have collection : (Value.array items).depth ≤ params.depth - 1 := by
            have same : value params "collection" = .array items := by
              simp only [array] at collected
              cases content : value params "collection" with
              | array stored =>
                simp only [content, Value.items?, Except.ok.injEq] at collected
                rw [collected]
              | _ => simp [content, Value.items?, invalid] at collected
            exact same ▸ depth_value_le params "collection"
          have table : ∀ entry ∈ entries, entry.2.depth + 1 ≤ params.depth - 1 := by
            intro entry stored
            simp only [mapEntries] at listed
            split at listed
            · rename_i fields content
              obtain rfl := Except.ok.inj listed
              have below := depth_value_le params "params"
              rw [content] at below
              have inside := Value.depth_le_depthOfFields stored
              simp only [Value.depth] at below
              omega
            · obtain rfl := Except.ok.inj listed
              cases stored
            · simp [invalid] at listed
          have itemDepth := Value.depth_le_depthOfItems inside
          simp only [Value.depth] at collection
          have fields : Value.depthOfFields
              (entries.map fun entry => (entry.1, argument item entry.2)) ≤ params.depth - 2 := by
            refine Value.depthOfFields_le fun entry mapped => ?_
            obtain ⟨original, stored, rfl⟩ := List.mem_map.mp mapped
            have bound := table original stored
            have deepest := depth_argument_le item original.2
            simp only
            omega
          simp only [arguments, Value.depth]
          omega
        · cases planned

/-- What `vectorOp` passes on is no deeper than its deeper operand allows. -/
theorem depth_pair_le (operation : String) (left right : Value) :
    (pair operation left right).depth ≤ max left.depth right.depth + 1 := by
  simp only [pair, Value.depth]
  refine Nat.succ_le_succ (Value.depthOfFields_le fun entry member => ?_)
  simp only [Dictionary.ofList, List.foldl_cons, List.foldl_nil] at member
  rcases Dictionary.mem_insert member with rfl | earlier
  · exact Nat.le_max_right _ _
  · rcases Dictionary.mem_insert earlier with rfl | none
    · exact Nat.le_max_left _ _
    · cases none

/-- What `vectorOp` passes on has no parameter besides its two operands. -/
theorem field?_pair (operation : String) (left right : Value) {key : String}
    (first : key ≠ (operandNames operation).1) (second : key ≠ (operandNames operation).2) :
    (pair operation left right).field? key = none := by
  simp only [pair, Value.field?, Value.fields?, Option.bind_some, Dictionary.ofList,
    List.foldl_cons, List.foldl_nil]
  rw [Dictionary.find?_insert_of_ne _ _ second, Dictionary.find?_insert_of_ne _ _ first]
  rfl

/-- No operation takes an operand under the name of an operation or of a collection. -/
theorem operandNames_ne (operation : String) :
    "op" ≠ (operandNames operation).1 ∧ "op" ≠ (operandNames operation).2 ∧
      "collection" ≠ (operandNames operation).1 ∧ "collection" ≠ (operandNames operation).2 := by
  unfold operandNames
  split
  · decide
  · split <;> decide

/-- The calls that `vectorOp` plans pass pairs of operands on. -/
theorem planVectorOp_calls {known : String → Bool} {params : Value} {function : String}
    {calls : List Value} (planned : planVectorOp known params = .ok (function, calls)) :
    (params.field? "op").isSome = true ∧ ∀ call ∈ calls,
      ∃ left ∈ operands (value params "collectionA"),
        ∃ right ∈ operands (value params "collectionB"), call = pair function left right := by
  simp only [planVectorOp, bind, Except.bind, pure, Except.pure, throw, throwThe,
    MonadExceptOf.throw] at planned
  split at planned
  · cases planned
  · cases named : string params "op" with
    | error fault => simp [named] at planned
    | ok operation =>
      simp only [named] at planned
      split at planned
      · obtain ⟨rfl, rfl⟩ := Prod.mk.inj (Except.ok.inj planned)
        constructor
        · cases found : params.field? "op" with
          | some stored => rfl
          | none => simp [string, value, found, Value.string?, invalid] at named
        · intro call member
          rw [List.mem_iff_getElem?] at member
          obtain ⟨position, here⟩ := member
          rw [List.getElem?_zipWith] at here
          cases first : (operands (value params "collectionA"))[position]? with
          | none => simp [first] at here
          | some left =>
            cases second : (operands (value params "collectionB"))[position]? with
            | none => simp [first, second] at here
            | some right =>
              simp only [first, second, Option.some.injEq] at here
              exact ⟨left, List.mem_of_getElem? first, right, List.mem_of_getElem? second,
                here.symm⟩
      · cases planned

/-- Every call that a composite plans has parameters of lower rank than its own. -/
theorem plan_rank {known : String → Bool} {params : Value} {composite : Composite}
    {function : String} {calls : List Value}
    (planned : composite.plan known params = .ok (function, calls)) :
    ∀ call ∈ calls, rank call < rank params := by
  intro call member
  cases composite with
  | map =>
    have shallower := planMap_depth planned call member
    simp only [rank]
    split <;> split <;> omega
  | vectorOp =>
    obtain ⟨named, pairs⟩ := planVectorOp_calls planned
    obtain ⟨left, leftIn, right, rightIn, rfl⟩ := pairs call member
    have names := operandNames_ne function
    have noOperation := field?_pair function left right names.1 names.2.1
    have leftDepth := depth_le_of_mem_operands leftIn
    have rightDepth := depth_le_of_mem_operands rightIn
    have leftBound := depth_value_le params "collectionA"
    have rightBound := depth_value_le params "collectionB"
    have pairDepth := depth_pair_le function left right
    have positive : 0 < params.depth := by
      cases params with
      | object fields => exact Nat.succ_pos _
      | _ => simp [Value.field?, Value.fields?] at named
    simp only [rank, named, noOperation, ↓reduceIte, Option.isSome_none, Bool.false_eq_true]
    omega

end Composite

end StepGraph
