import StepGraph.Proofs.Merging

/-!
# Setting a field

A field is set by merging an object of that field alone over the source. Every other field stays as
it is, and a field that was not there is added with its value. A field that was there has the value
laid over what it held, and that need not leave the value alone: fields and items of which the value
holds nothing show through. `GivesWay` says of two values that nothing of the first shows through
when the second is laid over it. Exactly then a field is set to the value that is given.
-/
namespace StepGraph.Objects

open Parameters

/-- Nothing of a value shows through when another one is laid over it. -/
inductive GivesWay : Value → Value → Prop where
  /-- An object gives way to one that has each of its fields, to which its own give way. -/
  | object {held above : Object}
      (covered : ∀ key ∈ Dictionary.keys held, key ∈ Dictionary.keys above)
      (each : ∀ key first second, Dictionary.find? held key = some first →
        Dictionary.find? above key = some second → GivesWay first second) :
      GivesWay (.object held) (.object above)
  /-- An array gives way to one that is no shorter, to whose items its own give way. -/
  | array {held above : List Value} (covered : held.length ≤ above.length)
      (each : ∀ (position : Nat) first second, held[position]? = some first →
        above[position]? = some second → GivesWay first second) :
      GivesWay (.array held) (.array above)
  /-- Anything else is replaced. -/
  | replaced {held above : Value} (unlike : Unlike held above) : GivesWay held above

/-- What comes of two sides is the second of them when it is there wherever the first is, and what
comes of both is the second. -/
theorem merge_eq_right_iff {held above : Option Value} :
    held.merge mergeOver above = above ↔
      (held.isSome = true → above.isSome = true) ∧
        ∀ first second, held = some first → above = some second →
          mergeOver first second = second := by
  cases held with
  | none => simp
  | some first => cases above <;> simp

/-- Laying a value over another gives the value itself exactly where the other gives way to it. -/
theorem mergeOver_eq_right_iff {held above : Value} (left : held.Canonical)
    (right : above.Canonical) : mergeOver held above = above ↔ GivesWay held above := by
  induction above using Value.contents_induction generalizing held with
  | scalar above plain =>
    have unlike := unlike_of_isScalar plain held
    exact ⟨fun _ => .replaced unlike, fun _ => mergeOver_of_unlike unlike⟩
  | array items' ih =>
    rcases like_cases held (.array items') with ⟨_, _, -, odd⟩ | ⟨items, _, rfl, same⟩ | unlike
    · cases odd
    · obtain rfl := Value.array.inj same
      have laid (position : Nat) {first second : Value} (before : items[position]? = some first)
          (after : items'[position]? = some second) :
          mergeOver first second = second ↔ GivesWay first second :=
        ih position second after (left.of_getElem? before) (right.of_getElem? after)
      constructor
      · intro whole
        have items_eq : mergeItems items items' = items' := Value.array.inj whole
        refine .array ?_ fun position first second before after => ?_
        · have length := length_mergeItems items items'
          rw [items_eq] at length
          omega
        · have here := getElem?_mergeItems items items' position
          rw [items_eq] at here
          exact (laid position before after).mp
            ((merge_eq_right_iff.mp here.symm).2 first second before after)
      · rintro (_ | ⟨covered, each⟩ | unlike)
        · refine congrArg Value.array (List.ext_getElem? fun position => ?_)
          rw [getElem?_mergeItems, merge_eq_right_iff]
          refine ⟨fun there => ?_, fun first second before after =>
            (laid position before after).mpr (each position first second before after)⟩
          rw [isSome_getElem?] at there ⊢
          omega
        · exact mergeOver_of_unlike unlike
    · exact ⟨fun _ => .replaced unlike, fun _ => mergeOver_of_unlike unlike⟩
  | object fields' ih =>
    rcases like_cases held (.object fields') with ⟨fields, _, rfl, same⟩ | ⟨_, _, -, odd⟩ | unlike
    · obtain rfl := Value.object.inj same
      have laid (key : String) {first second : Value}
          (before : Dictionary.find? fields key = some first)
          (after : Dictionary.find? fields' key = some second) :
          mergeOver first second = second ↔ GivesWay first second :=
        ih key second after (left.of_find? before) (right.of_find? after)
      constructor
      · intro whole
        have fields_eq : mergeFields fields fields' = fields' := Value.object.inj whole
        have found (key : String) := find?_mergeFields right.1 fields key
        rw [fields_eq] at found
        refine .object (fun key there => ?_) fun key first second before after => ?_
        · rw [Dictionary.mem_keys_iff] at there ⊢
          exact (merge_eq_right_iff.mp (found key).symm).1 there
        · exact (laid key before after).mp
            ((merge_eq_right_iff.mp (found key).symm).2 first second before after)
      · rintro (⟨covered, each⟩ | _ | unlike)
        · refine congrArg Value.object (Dictionary.eq_of_find?_eq
            (sorted_mergeFields left.1 fields') right.1 fun key => ?_)
          rw [find?_mergeFields right.1, merge_eq_right_iff]
          refine ⟨fun there => ?_, fun first second before after =>
            (laid key before after).mpr (each key first second before after)⟩
          rw [← Dictionary.mem_keys_iff] at there ⊢
          exact covered key there
        · exact mergeOver_of_unlike unlike
    · cases odd
    · exact ⟨fun _ => .replaced unlike, fun _ => mergeOver_of_unlike unlike⟩

/-- A field laid over an object changes no other field. Under its key the value is laid over what
was there, if anything was. -/
theorem find?_mergeFields_singleton (source : Object) (name key : String) (value : Value) :
    Dictionary.find? (mergeFields source [(name, value)]) key =
      if key = name then (Dictionary.find? source name).merge mergeOver (some value)
      else Dictionary.find? source key := by
  have single : Dictionary.Sorted [(name, value)] := List.pairwise_singleton _ _
  rw [find?_mergeFields single]
  by_cases same : key = name
  · subst same
    rw [if_pos rfl, Dictionary.find?, if_pos rfl]
  · rw [if_neg same, Dictionary.find?, if_neg (Ne.symm same), Dictionary.find?_nil,
      Option.merge_none_right]

/-- A field laid over an object is set to the value exactly where what it held gives way. -/
theorem mergeFields_singleton_eq_insert_iff {source : Object} {value : Value}
    (left : (Value.object source).Canonical) (right : value.Canonical) (name : String) :
    mergeFields source [(name, value)] = Dictionary.insert source name value ↔
      ∀ held, Dictionary.find? source name = some held → GivesWay held value := by
  constructor
  · intro whole held before
    have found := find?_mergeFields_singleton source name name value
    rw [whole, Dictionary.find?_insert_self, if_pos rfl, before, Option.merge_some_some] at found
    exact (mergeOver_eq_right_iff (left.of_find? before) right).mp (Option.some.inj found).symm
  · intro gives
    refine Dictionary.eq_of_find?_eq (sorted_mergeFields left.1 _)
      (Dictionary.sorted_insert left.1 _ _) fun key => ?_
    rw [find?_mergeFields_singleton]
    by_cases same : key = name
    · subst same
      rw [if_pos rfl, Dictionary.find?_insert_self]
      cases before : Dictionary.find? source key with
      | none => rfl
      | some held =>
        have laid := (mergeOver_eq_right_iff (left.of_find? before) right).mpr (gives held before)
        rw [Option.merge_some_some, laid]
    · rw [if_neg same, Dictionary.find?_insert_of_ne _ _ same]

/-- Setting a field of an object leaves every other field as it is and adds none. A field that was
not there gets the value; one that was there holds what the value makes of what it held when it is
laid over it. The result is the object with the field set to the value exactly where what it held
gives way to the value. -/
theorem addProp_lays_over {params : Value} (canonical : params.Canonical) {source : Object}
    {name : String} (given : value params "src" = .object source)
    (named : value params "propName" = .string name) :
    ∃ result : Object, addProp params = .ok (.object result) ∧
      (Value.object result).Canonical ∧
      (∀ key, key ≠ name → Dictionary.find? result key = Dictionary.find? source key) ∧
      (Dictionary.find? source name = none →
        Dictionary.find? result name = some (value params "propValue")) ∧
      (∀ held, Dictionary.find? source name = some held → ∃ laid,
        Dictionary.find? result name = some laid ∧
          Overlays held (value params "propValue") laid) ∧
      (result = Dictionary.insert source name (value params "propValue") ↔
        ∀ held, Dictionary.find? source name = some held →
          GivesWay held (value params "propValue")) := by
  have left : (Value.object source).Canonical := given ▸ canonical_value canonical "src"
  have right := canonical_value canonical "propValue"
  generalize above : value params "propValue" = new at right ⊢
  have found := find?_mergeFields_singleton source name name new
  rw [if_pos rfl] at found
  refine ⟨mergeFields source [(name, new)], ?_, ?_, fun key other => ?_, fun absent => ?_,
    fun held before => ?_, mergeFields_singleton_eq_insert_iff left right name⟩
  · have read : string params "propName" = .ok name := by rw [string, named]; rfl
    have start : mergeSource [] (.object source) = source := mergeFields_nil left.1
    rw [addProp, read, given, above]
    show Except.ok (merged (.object source) (.object [(name, new)])) = _
    rw [merged, start]
    rfl
  · have addition : (Value.object [(name, new)]).Canonical :=
      ⟨List.pairwise_singleton _ _, right, trivial⟩
    exact canonical_mergeOver left addition
  · rw [find?_mergeFields_singleton, if_neg other]
  · rw [found, absent, Option.merge_none_left]
  · rw [before, Option.merge_some_some] at found
    exact ⟨_, found, overlays_mergeOver right held⟩

/-- The parameters that set a field of an object. -/
def setting (source : Object) (name : String) (new : Value) : Value :=
  .object [("propName", .string name), ("propValue", new), ("src", .object source)]

/-- An object in the place of a number is what the field is set to. -/
theorem number_gives_way :
    addProp (setting [("size", .ofInt 1), ("title", .null)] "size" (.object [("w", .ofInt 2)])) =
      .ok (.object [("size", .object [("w", .ofInt 2)]), ("title", .null)]) := by
  have canonical : (setting [("size", .ofInt 1), ("title", .null)] "size"
      (.object [("w", .ofInt 2)])).Canonical := by
    simp only [setting, Value.ofInt, Value.Canonical, Value.CanonicalFields, Dictionary.Sorted]
    decide
  obtain ⟨result, set, -, -, -, -, exactly⟩ := addProp_lays_over canonical rfl rfl
  have gives : ∀ held, Dictionary.find? [("size", Value.ofInt 1), ("title", .null)] "size" =
      some held → GivesWay held (.object [("w", .ofInt 2)]) := by
    intro held before
    obtain rfl : Value.ofInt 1 = held := Option.some.inj before
    refine .replaced ⟨fun _ _ both => ?_, fun _ _ both => ?_⟩
    · cases both.1
    · cases both.1
  rw [set, exactly.mpr gives]
  rfl

/-- An object in the place of another one is not: the field of the old object is still there. -/
theorem field_shows_through :
    ¬∀ (source : Object) (name : String) (new : Value), (setting source name new).Canonical →
      addProp (setting source name new) = .ok (.object (Dictionary.insert source name new)) := by
  intro exactly
  have kept := exactly [("size", .object [("h", .ofInt 1)])] "size" (.object [("w", .ofInt 2)])
    (by
      simp only [setting, Value.ofInt, Value.Canonical, Value.CanonicalFields, Dictionary.Sorted]
      decide)
  revert kept
  decide +kernel

end StepGraph.Objects
