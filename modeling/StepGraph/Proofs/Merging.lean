import StepGraph.Proofs.Addressing
import StepGraph.Proofs.Contents
import StepGraph.Transform.Objects

/-!
# Merged objects

What comes of laying a source over a target is told key by key and position by position: what only
one side holds stays, and where both hold something the one is laid over the other. `Overlays` says
so without regard to the order in which a merge visits the fields, and a merge is the only canonical
value that it allows. Both follow from one equation for objects and one for arrays, which give what
is found in the result by what is found in the two sides.

Laying something over itself changes nothing, and so does laying a source over what it has been laid
over already. The values of a source that hold no others always come through.
-/
namespace StepGraph.Objects

/-- The parameters of a merge. -/
def together (first second : Value) : Value := .object [("a", first), ("b", second)]

/-- What a merge takes of an operand: an object itself, and no fields of anything else. -/
def operand : Value → Value
  | .object fields => .object fields
  | _ => .object []

/-- Two values that are not merged into each other: they are neither two objects nor two arrays. -/
def Unlike (target source : Value) : Prop :=
  (∀ fields fields', ¬(target = .object fields ∧ source = .object fields')) ∧
    ∀ items items', ¬(target = .array items ∧ source = .array items')

/-- What a source makes of a target when it is laid over it. -/
inductive Overlays : Value → Value → Value → Prop where
  /-- Objects are merged by key. -/
  | object {target source result : Object}
      (keys : ∀ key, key ∈ Dictionary.keys result ↔
        key ∈ Dictionary.keys target ∨ key ∈ Dictionary.keys source)
      (kept : ∀ key, key ∉ Dictionary.keys source →
        Dictionary.find? result key = Dictionary.find? target key)
      (added : ∀ key, key ∉ Dictionary.keys target →
        Dictionary.find? result key = Dictionary.find? source key)
      (laid : ∀ key held above value, Dictionary.find? target key = some held →
        Dictionary.find? source key = some above → Dictionary.find? result key = some value →
          Overlays held above value) :
      Overlays (.object target) (.object source) (.object result)
  /-- Arrays are merged by position. -/
  | array {target source result : List Value}
      (length : result.length = max target.length source.length)
      (kept : ∀ position, source.length ≤ position → result[position]? = target[position]?)
      (added : ∀ position, target.length ≤ position → result[position]? = source[position]?)
      (laid : ∀ (position : Nat) held above value, target[position]? = some held →
        source[position]? = some above → result[position]? = some value →
          Overlays held above value) :
      Overlays (.array target) (.array source) (.array result)
  /-- Anything else is replaced. -/
  | replaced {target source : Value} (unlike : Unlike target source) :
      Overlays target source source

/-! ## What is found in a merge -/

section Finding

/-- The fields of a source are laid over a target one after the other, so that its keys are to be
distinct. -/
theorem find?_mergeFields {source : Object} (sorted : Dictionary.Sorted source) (target : Object)
    (key : String) :
    Dictionary.find? (mergeFields target source) key =
      (Dictionary.find? target key).merge mergeOver (Dictionary.find? source key) := by
  induction source generalizing target with
  | nil => rw [mergeFields, Dictionary.find?_nil, Option.merge_none_right]
  | cons entry rest ih =>
    obtain ⟨name, value⟩ := entry
    obtain ⟨before, ordered⟩ := List.pairwise_cons.mp sorted
    have fresh : Dictionary.find? rest name = none := Dictionary.find?_eq_none_of_lt before
    by_cases same : name = key
    · subst same
      cases found : Dictionary.find? target name <;>
        simp [mergeFields, found, ih ordered, Dictionary.find?_insert_self, fresh, Dictionary.find?]
    · have other := Ne.symm same
      cases found : Dictionary.find? target name <;>
        simp [mergeFields, found, ih ordered, Dictionary.find?_insert_of_ne _ _ other,
          Dictionary.find?, same]

/-- A merge of fields is sorted where the target is. -/
theorem sorted_mergeFields {target : Object} (sorted : Dictionary.Sorted target) (source : Object) :
    Dictionary.Sorted (mergeFields target source) := by
  induction source generalizing target with
  | nil => exact sorted
  | cons entry rest ih =>
    rw [mergeFields]
    split <;> exact ih (Dictionary.sorted_insert sorted _ _)

/-- A merge of items holds the items of both sides, one laid over the other. -/
theorem getElem?_mergeItems (target source : List Value) (position : Nat) :
    (mergeItems target source)[position]? =
      target[position]?.merge mergeOver source[position]? := by
  induction source generalizing target position with
  | nil => cases target <;> simp [mergeItems]
  | cons value rest ih =>
    cases target with
    | nil => simp [mergeItems]
    | cons held others =>
      cases position with
      | zero => simp [mergeItems]
      | succ position => simp [mergeItems, ih]

/-- A merge of items is as long as the longer side. -/
theorem length_mergeItems (target source : List Value) :
    (mergeItems target source).length = max target.length source.length := by
  induction source generalizing target with
  | nil => cases target <;> simp [mergeItems]
  | cons value rest ih =>
    cases target with
    | nil => simp [mergeItems]
    | cons held others =>
      simp only [mergeItems, List.length_cons, ih]
      omega

/-- A source that is not merged into its target replaces it. -/
theorem mergeOver_of_unlike {target source : Value} (unlike : Unlike target source) :
    mergeOver target source = source := by
  cases source with
  | object fields' =>
    cases target with
    | object fields => exact absurd ⟨rfl, rfl⟩ (unlike.1 fields fields')
    | _ => rfl
  | array items' =>
    cases target with
    | array items => exact absurd ⟨rfl, rfl⟩ (unlike.2 items items')
    | _ => rfl
  | _ => rfl

/-- A value that holds no others is like none. -/
theorem unlike_of_isScalar {source : Value} (scalar : source.IsScalar) (target : Value) :
    Unlike target source := by
  refine ⟨fun fields fields' both => ?_, fun items items' both => ?_⟩
  · obtain ⟨-, rfl⟩ := both
    exact scalar
  · obtain ⟨-, rfl⟩ := both
    exact scalar

/-- Two values are merged as objects, merged as arrays, or not merged. -/
theorem like_cases (target source : Value) :
    (∃ fields fields', target = .object fields ∧ source = .object fields') ∨
      (∃ items items', target = .array items ∧ source = .array items') ∨
        Unlike target source := by
  by_cases objects : ∃ fields fields', target = .object fields ∧ source = .object fields'
  · exact .inl objects
  · by_cases arrays : ∃ items items', target = .array items ∧ source = .array items'
    · exact .inr (.inl arrays)
    · exact .inr (.inr ⟨fun fields fields' both => objects ⟨fields, fields', both⟩,
        fun items items' both => arrays ⟨items, items', both⟩⟩)

end Finding

/-! ## Canonical merges -/

/-- What comes of two sides is canonical where they are. -/
theorem canonical_of_merge {held above : Option Value} {value : Value}
    (found : held.merge mergeOver above = some value)
    (left : ∀ value, held = some value → value.Canonical)
    (right : ∀ value, above = some value → value.Canonical)
    (laid : ∀ first second, held = some first → above = some second →
      (mergeOver first second).Canonical) : value.Canonical := by
  cases held with
  | none =>
    rw [Option.merge_none_left] at found
    exact right value found
  | some first =>
    cases above with
    | none => exact left value found
    | some second =>
      obtain rfl := Option.some.inj found
      exact laid first second rfl rfl

/-- A merge of canonical values is canonical. -/
theorem canonical_mergeOver {target source : Value} (left : target.Canonical)
    (right : source.Canonical) : (mergeOver target source).Canonical := by
  induction source using Value.contents_induction generalizing target with
  | scalar source plain => rwa [mergeOver_of_unlike (unlike_of_isScalar plain target)]
  | array items' ih =>
    cases target with
    | array items =>
      refine Value.canonical_array fun position value found => ?_
      rw [getElem?_mergeItems] at found
      exact canonical_of_merge found (fun _ => left.of_getElem?) (fun _ => right.of_getElem?)
        fun _ _ held above => ih position _ above (left.of_getElem? held) (right.of_getElem? above)
    | _ => exact right
  | object fields' ih =>
    cases target with
    | object fields =>
      refine Value.canonical_object (sorted_mergeFields left.1 fields') fun key value found => ?_
      rw [find?_mergeFields right.1] at found
      exact canonical_of_merge found (fun _ => left.of_find?) (fun _ => right.of_find?)
        fun _ _ held above => ih key _ above (left.of_find? held) (right.of_find? above)
    | _ => exact right

/-! ## What a merge makes of its sides -/

/-- A source makes of a target what a merge gives. -/
theorem overlays_mergeOver {source : Value} (canonical : source.Canonical) (target : Value) :
    Overlays target source (mergeOver target source) := by
  induction source using Value.contents_induction generalizing target with
  | scalar source plain =>
    have unlike := unlike_of_isScalar plain target
    rw [mergeOver_of_unlike unlike]
    exact .replaced unlike
  | array items' ih =>
    rcases like_cases target (.array items') with ⟨_, _, -, odd⟩ | ⟨items, _, rfl, same⟩ | unlike
    · cases odd
    · obtain rfl := Value.array.inj same
      refine .array (length_mergeItems items items') (fun position beyond => ?_)
        (fun position beyond => ?_) fun position held above value before source after => ?_
      · rw [getElem?_mergeItems, List.getElem?_eq_none beyond, Option.merge_none_right]
      · rw [getElem?_mergeItems, List.getElem?_eq_none beyond, Option.merge_none_left]
      · rw [getElem?_mergeItems, before, source, Option.merge_some_some] at after
        obtain rfl := Option.some.inj after
        exact ih position above source (canonical.of_getElem? source) held
    · rw [mergeOver_of_unlike unlike]
      exact .replaced unlike
  | object fields' ih =>
    rcases like_cases target (.object fields') with ⟨fields, _, rfl, same⟩ | ⟨_, _, -, odd⟩ | unlike
    · obtain rfl := Value.object.inj same
      have found := find?_mergeFields canonical.1 fields
      refine .object (fun key => ?_) (fun key absent => ?_) (fun key absent => ?_)
        fun key held above value before source after => ?_
      · simp only [Dictionary.mem_keys_iff, found]
        cases Dictionary.find? fields key <;> cases Dictionary.find? fields' key <;> simp
      · rw [found, Dictionary.find?_eq_none_iff.mpr absent, Option.merge_none_right]
      · rw [found, Dictionary.find?_eq_none_iff.mpr absent, Option.merge_none_left]
      · rw [found, before, source, Option.merge_some_some] at after
        obtain rfl := Option.some.inj after
        exact ih key above source (canonical.of_find? source) held
    · cases odd
    · rw [mergeOver_of_unlike unlike]
      exact .replaced unlike

/-- A source makes nothing else of a target than what a merge gives. -/
theorem Overlays.unique {target source result : Value} (overlays : Overlays target source result)
    (left : target.Canonical) (right : source.Canonical) (canonical : result.Canonical) :
    result = mergeOver target source := by
  induction overlays with
  | @object target source result keys kept added laid ih =>
    refine congrArg Value.object (Dictionary.eq_of_find?_eq canonical.1
      (sorted_mergeFields left.1 source) fun key => ?_)
    rw [find?_mergeFields right.1]
    have present := keys key
    simp only [Dictionary.mem_keys_iff] at present kept added
    cases before : Dictionary.find? target key with
    | none => rw [added key (by simp [before]), Option.merge_none_left]
    | some held =>
      cases above : Dictionary.find? source key with
      | none => rw [kept key (by simp [above]), Option.merge_none_right, before]
      | some laidOver =>
        obtain ⟨value, after⟩ := Option.isSome_iff_exists.mp (present.mpr (.inl (by simp [before])))
        rw [after, Option.merge_some_some, ih key held laidOver value before above after
          (left.of_find? before) (right.of_find? above) (canonical.of_find? after)]
  | @array target source result length kept added laid ih =>
    refine congrArg Value.array (List.ext_getElem? fun position => ?_)
    rw [getElem?_mergeItems]
    cases before : target[position]? with
    | none => rw [added position (List.getElem?_eq_none_iff.mp before), Option.merge_none_left]
    | some held =>
      cases above : source[position]? with
      | none =>
        rw [kept position (List.getElem?_eq_none_iff.mp above), Option.merge_none_right, before]
      | some laidOver =>
        have inside : position < result.length := by
          have below := (List.getElem?_eq_some_iff.mp before).1
          omega
        have after := List.getElem?_eq_getElem inside
        rw [after, Option.merge_some_some, ih position held laidOver _ before above after
          (left.of_getElem? before) (right.of_getElem? above) (canonical.of_getElem? after)]
  | replaced unlike => exact (mergeOver_of_unlike unlike).symm

/-! ## Laws -/

/-- A value that is laid over itself is not changed. -/
theorem mergeOver_self {value : Value} (canonical : value.Canonical) :
    mergeOver value value = value := by
  induction value using Value.contents_induction with
  | scalar value plain => exact mergeOver_of_unlike (unlike_of_isScalar plain value)
  | array items ih =>
    refine congrArg Value.array (List.ext_getElem? fun position => ?_)
    rw [getElem?_mergeItems]
    cases held : items[position]? with
    | none => rfl
    | some child => exact congrArg some (ih position child held (canonical.of_getElem? held))
  | object fields ih =>
    refine congrArg Value.object (Dictionary.eq_of_find?_eq (sorted_mergeFields canonical.1 fields)
      canonical.1 fun key => ?_)
    rw [find?_mergeFields canonical.1]
    cases held : Dictionary.find? fields key with
    | none => rfl
    | some child => exact congrArg some (ih key child held (canonical.of_find? held))

/-- What has been laid over something is laid over what came of it once more. -/
theorem merge_merge {held above : Option Value}
    (same : ∀ second, above = some second → mergeOver second second = second)
    (again : ∀ first second, held = some first → above = some second →
      mergeOver (mergeOver first second) second = mergeOver first second) :
    (held.merge mergeOver above).merge mergeOver above = held.merge mergeOver above := by
  cases above with
  | none => rw [Option.merge_none_right, Option.merge_none_right]
  | some second =>
    cases held with
    | none => exact congrArg some (same second rfl)
    | some first => exact congrArg some (again first second rfl rfl)

/-- A source that is laid over what it has been laid over already changes nothing. -/
theorem mergeOver_mergeOver {target source : Value} (left : target.Canonical)
    (right : source.Canonical) :
    mergeOver (mergeOver target source) source = mergeOver target source := by
  induction source using Value.contents_induction generalizing target with
  | scalar source plain =>
    rw [mergeOver_of_unlike (unlike_of_isScalar plain _),
      mergeOver_of_unlike (unlike_of_isScalar plain _)]
  | array items' ih =>
    cases target with
    | array items =>
      refine congrArg Value.array (List.ext_getElem? fun position => ?_)
      rw [getElem?_mergeItems, getElem?_mergeItems]
      exact merge_merge (fun _ above => mergeOver_self (right.of_getElem? above))
        fun _ _ held above => ih position _ above (left.of_getElem? held) (right.of_getElem? above)
    | _ => exact mergeOver_self right
  | object fields' ih =>
    cases target with
    | object fields =>
      have sorted := sorted_mergeFields left.1 fields'
      refine congrArg Value.object (Dictionary.eq_of_find?_eq (sorted_mergeFields sorted fields')
        sorted fun key => ?_)
      rw [find?_mergeFields right.1, find?_mergeFields right.1]
      exact merge_merge (fun _ above => mergeOver_self (right.of_find? above))
        fun _ _ held above => ih key _ above (left.of_find? held) (right.of_find? above)
    | _ => exact mergeOver_self right

/-- A value in a source that holds no others is reached in the merge as it is in the source. -/
theorem reaches_mergeOver {source scalar : Value} {parts : List String} (plain : scalar.IsScalar)
    (reached : Path.Reaches source parts scalar) (canonical : source.Canonical) (target : Value) :
    Path.Reaches (mergeOver target source) parts scalar := by
  induction reached generalizing target with
  | here scalar =>
    rw [mergeOver_of_unlike (unlike_of_isScalar plain target)]
    exact .here scalar
  | @field fields' key child scalar rest stored further ih =>
    have onward := ih plain (canonical.of_find? stored)
    cases target with
    | object fields =>
      have found := find?_mergeFields canonical.1 fields key
      rw [stored] at found
      cases before : Dictionary.find? fields key with
      | none =>
        rw [before, Option.merge_none_left] at found
        exact .field found further
      | some held =>
        rw [before, Option.merge_some_some] at found
        exact .field found (onward held)
    | _ => exact .field stored further
  | @item items' segment position child scalar rest written stored further ih =>
    have onward := ih plain (canonical.of_getElem? stored)
    cases target with
    | array items =>
      have found := getElem?_mergeItems items items' position
      rw [stored] at found
      cases before : items[position]? with
      | none =>
        rw [before, Option.merge_none_left] at found
        exact .item written found further
      | some held =>
        rw [before, Option.merge_some_some] at found
        exact .item written found (onward held)
    | _ => exact .item written stored further

/-! ## Merges of operands -/

/-- What a merge takes of a canonical operand is canonical. -/
theorem canonical_operand {value : Value} (canonical : value.Canonical) :
    (operand value).Canonical := by
  cases value with
  | object fields => exact canonical
  | _ => exact ⟨List.Pairwise.nil, trivial⟩

/-- The fields of an object are laid over nothing as they are. -/
theorem mergeFields_nil {fields : Object} (sorted : Dictionary.Sorted fields) :
    mergeFields [] fields = fields := by
  have laid := sorted_mergeFields List.Pairwise.nil fields
  refine Dictionary.eq_of_find?_eq laid sorted fun key => ?_
  rw [find?_mergeFields sorted, Dictionary.find?_nil, Option.merge_none_left]

/-- A merge lays what it takes of the second operand over what it takes of the first. -/
theorem merge_together {first : Value} (canonical : first.Canonical) (second : Value) :
    merge (together first second) = .ok (mergeOver (operand first) (operand second)) := by
  have start : operand first = .object (mergeSource [] first) := by
    cases first with
    | object fields => exact congrArg Value.object (mergeFields_nil canonical.1).symm
    | _ => rfl
  have laid : merged first second = mergeOver (operand first) (operand second) := by
    rw [start, merged]
    cases second <;> rfl
  exact congrArg Except.ok laid

/-- A merge of two values succeeds, with an object. It is what the second makes of the first when it
is laid over it, and nothing else is: what is not an object counts as one without fields. The values
in the second that hold no others are found where they were; an object without fields changes
nothing on either side; and merging the second once more changes nothing. -/
theorem merge_lays_over (first second : Value) (left : first.Canonical) (right : second.Canonical) :
    ∃ fields : Object, merge (together first second) = .ok (.object fields) ∧
      (∀ result : Value, result = .object fields ↔
        result.Canonical ∧ Overlays (operand first) (operand second) result) ∧
      (∀ source, second = .object source → ∀ parts scalar, scalar.IsScalar →
        Path.Reaches second parts scalar → Path.Reaches (.object fields) parts scalar) ∧
      (∀ source, first = .object source →
        merge (together first (.object [])) = .ok first ∧
          merge (together (.object []) first) = .ok first) ∧
      merge (together (.object fields) second) = .ok (.object fields) := by
  obtain ⟨before, held⟩ : ∃ fields, operand first = .object fields := by
    cases first <;> exact ⟨_, rfl⟩
  obtain ⟨after, above⟩ : ∃ fields, operand second = .object fields := by
    cases second <;> exact ⟨_, rfl⟩
  have first_canonical := canonical_operand left
  have second_canonical := canonical_operand right
  have came : Value.object (mergeFields before after) =
      mergeOver (operand first) (operand second) := by
    rw [held, above]
    rfl
  have canonical : (Value.object (mergeFields before after)).Canonical :=
    came ▸ canonical_mergeOver first_canonical second_canonical
  refine ⟨mergeFields before after, ?_, fun result => ⟨?_, ?_⟩, ?_, ?_, ?_⟩
  · rw [merge_together left, came]
  · rintro rfl
    exact ⟨canonical, came ▸ overlays_mergeOver second_canonical (operand first)⟩
  · rintro ⟨result_canonical, overlays⟩
    rw [came]
    exact overlays.unique first_canonical second_canonical result_canonical
  · rintro source rfl parts scalar plain reached
    rw [came]
    exact reaches_mergeOver plain reached right (operand first)
  · rintro source rfl
    have empty : (Value.object []).Canonical := ⟨List.Pairwise.nil, trivial⟩
    refine ⟨merge_together left _, ?_⟩
    rw [merge_together empty]
    exact congrArg (fun fields => Except.ok (Value.object fields)) (mergeFields_nil left.1)
  · rw [merge_together canonical, operand, came]
    exact congrArg Except.ok (mergeOver_mergeOver first_canonical second_canonical)

/-- An object with an array in it. -/
def orderedParts : Value :=
  .object [("parts", .array [.object [("count", .ofInt 1), ("kind", .string "bolt")], .ofInt 2]),
    ("title", .string "order")]

/-- An object that changes the array and its first item. -/
def amendedParts : Value :=
  .object [("parts", .array [.object [("count", .null)]]), ("title", .array [])]

/-- In a merge of nested objects what was laid over something stands at its place. -/
theorem amended_lays_over :
    orderedParts.Canonical ∧ amendedParts.Canonical ∧
      ∃ fields, merge (together orderedParts amendedParts) = .ok (.object fields) ∧
        Path.Reaches (.object fields) ["parts", "0", "count"] .null := by
  have ordered : orderedParts.Canonical := by
    simp only [orderedParts, Value.ofInt, Value.Canonical, Value.CanonicalFields,
      Value.CanonicalItems, Dictionary.Sorted]
    decide
  have amended : amendedParts.Canonical := by
    simp only [amendedParts, Value.Canonical, Value.CanonicalFields, Value.CanonicalItems,
      Dictionary.Sorted]
    decide
  obtain ⟨fields, merged, -, ends, -, -⟩ :=
    merge_lays_over orderedParts amendedParts ordered amended
  exact ⟨ordered, amended, fields, merged, ends _ rfl ["parts", "0", "count"] .null trivial
    (Path.descend_eq_some_iff.mp rfl)⟩

end StepGraph.Objects
