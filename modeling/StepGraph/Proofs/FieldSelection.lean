import StepGraph.Proofs.Merging

/-!
# Fields kept and fields dropped

One transform keeps the listed fields of an object and another one drops them. The first goes
through the list and copies what it finds, in which a name may come twice or name no field; the
second starts from the whole object and removes the names one after the other. What is found in
either result under a key depends only on whether the key is listed, and so the two results are the
parts of the object: they have no key in common, and a merge puts them together again, whichever is
laid over the other.
-/
namespace StepGraph.Dictionary

variable {α : Type}

/-- The entries of a dictionary under listed names, as often as they are listed. -/
def listed (entries : Dictionary α) (names : List String) : List (String × α) :=
  names.filterMap fun name => (find? entries name).map fun value => (name, value)

/-- A name in front of others adds its entry, if there is one. -/
theorem listed_cons (entries : Dictionary α) (name : String) (rest : List String) :
    listed entries (name :: rest) =
      match find? entries name with
      | some value => (name, value) :: listed entries rest
      | none => listed entries rest := by
  rw [listed, List.filterMap_cons]
  cases find? entries name <;> rfl

/-- A dictionary made from the entries under listed names holds what stands under them. It does not
matter that a name is listed again, since the same value is stored again. -/
theorem find?_ofList_listed (entries : Dictionary α) (names : List String) (key : String) :
    find? (ofList (listed entries names)) key =
      if key ∈ names then find? entries key else none := by
  -- Entries are stored one after the other, so that the induction is over what they are stored in.
  have general (start : Dictionary α) :
      find? ((listed entries names).foldl (fun held pair => insert held pair.1 pair.2) start) key =
        (if key ∈ names then find? entries key else none).or (find? start key) := by
    induction names generalizing start with
    | nil =>
      rw [if_neg List.not_mem_nil, Option.none_or]
      rfl
    | cons name rest ih =>
      rw [listed_cons]
      by_cases same : key = name
      · subst same
        rw [if_pos List.mem_cons_self]
        cases stored : find? entries key with
        | none => rw [ih, stored, ite_self]
        | some value =>
          rw [List.foldl_cons, ih, stored, find?_insert_self]
          split <;> rfl
      · have either : key ∈ name :: rest ↔ key ∈ rest := by simp [same]
        simp only [either]
        cases find? entries name with
        | none => rw [ih]
        | some value => rw [List.foldl_cons, ih, find?_insert_of_ne start value same]
  exact (general []).trans Option.or_none

end StepGraph.Dictionary

namespace StepGraph.Objects

open Parameters

/-- The names that a parameter lists: a string itself, or the items of an array. -/
inductive Lists : Value → String → Prop where
  /-- A string lists itself. -/
  | name (text : String) : Lists (.string text) text
  /-- An array lists the strings in it. -/
  | item {names : List Value} {text : String} (member : .string text ∈ names) :
      Lists (.array names) text

/-- Items that can be read in turn are determined by what is read where each of them is. -/
theorem eq_map_of_mapM_eq_ok {ε β γ : Type} {reader : β → Except ε γ} {origin : γ → β}
    (only : ∀ item result, reader item = .ok result → item = origin result) {items : List β}
    {results : List γ} (read : items.mapM reader = .ok results) : items = results.map origin := by
  induction items generalizing results with
  | nil =>
    cases read
    rfl
  | cons item rest ih =>
    rw [List.mapM_cons] at read
    cases first : reader item with
    | error fault =>
      rw [first] at read
      cases read
    | ok result =>
      rw [first] at read
      cases later : rest.mapM reader with
      | error fault =>
        rw [later] at read
        cases read
      | ok others =>
        rw [later] at read
        cases read
        rw [List.map_cons, ← only item result first, ← ih later]

/-- The names that are read from the parameters are those that are listed. -/
theorem mem_propNames {params : Value} {names : List String} (read : propNames params = .ok names)
    (text : String) : text ∈ names ↔ Lists (value params "propNames") text := by
  rw [propNames] at read
  cases given : value params "propNames" with
  | string name =>
    rw [given] at read
    cases read
    rw [List.mem_singleton]
    constructor
    · rintro rfl
      exact .name text
    · rintro ⟨⟩
      rfl
  | array items =>
    rw [given] at read
    have items_eq : items = names.map Value.string := by
      refine eq_map_of_mapM_eq_ok (fun item result single => ?_) read
      cases item <;> cases single
      rfl
    subst items_eq
    constructor
    · exact fun member => .item (List.mem_map_of_mem member)
    · rintro (_ | member)
      obtain ⟨name, there, same⟩ := List.mem_map.mp member
      exact Value.string.inj same ▸ there
  | _ =>
    rw [given] at read
    cases read

/-- The listed fields of an object. -/
def onlyFields (source : Object) (names : List String) : Object :=
  Dictionary.ofList (Dictionary.listed source names)

/-- The other fields of an object. -/
def otherFields (source : Object) (names : List String) : Object :=
  names.foldl Dictionary.erase source

/-- Under a key the listed fields hold what the object does, if the key is listed. -/
theorem find?_onlyFields (source : Object) (names : List String) (key : String) :
    Dictionary.find? (onlyFields source names) key =
      if key ∈ names then Dictionary.find? source key else none :=
  Dictionary.find?_ofList_listed source names key

/-- Under a key the other fields hold what the object does, unless the key is listed. -/
theorem find?_otherFields (source : Object) (names : List String) (key : String) :
    Dictionary.find? (otherFields source names) key =
      if key ∈ names then none else Dictionary.find? source key :=
  Dictionary.find?_foldl_erase names source key

/-- The keys of the listed fields are the listed names that are keys of the object. -/
theorem mem_keys_onlyFields {source : Object} {names : List String} {key : String} :
    key ∈ Dictionary.keys (onlyFields source names) ↔
      key ∈ names ∧ key ∈ Dictionary.keys source := by
  simp only [Dictionary.mem_keys_iff, find?_onlyFields]
  split <;> simp [*]

/-- The keys of the other fields are the keys of the object that are not listed. -/
theorem mem_keys_otherFields {source : Object} {names : List String} {key : String} :
    key ∈ Dictionary.keys (otherFields source names) ↔
      key ∉ names ∧ key ∈ Dictionary.keys source := by
  simp only [Dictionary.mem_keys_iff, find?_otherFields]
  split <;> simp [*]

/-- Fields among which nothing is found but what is found in an object are fields of the object. -/
theorem subset_of_find? {part source : Object} (part_sorted : Dictionary.Sorted part)
    (within : ∀ key value, Dictionary.find? part key = some value →
      Dictionary.find? source key = some value) : ∀ entry ∈ part, entry ∈ source :=
  fun entry member => Dictionary.mem_of_find?_eq_some
    (within entry.1 entry.2 ((Dictionary.find?_eq_some_iff part_sorted).mpr member))

/-- What is found in an object under a key stands in one of the two parts, and nothing stands in the
other one. -/
theorem find?_parts (source : Object) (names : List String) (key : String) :
    (Dictionary.find? (onlyFields source names) key = Dictionary.find? source key ∧
        Dictionary.find? (otherFields source names) key = none) ∨
      (Dictionary.find? (onlyFields source names) key = none ∧
        Dictionary.find? (otherFields source names) key = Dictionary.find? source key) := by
  rw [find?_onlyFields, find?_otherFields]
  by_cases listed : key ∈ names
  · rw [if_pos listed, if_pos listed]
    exact .inl ⟨rfl, rfl⟩
  · rw [if_neg listed, if_neg listed]
    exact .inr ⟨rfl, rfl⟩

/-- Two objects are merged to a third one when each of its fields stands in one of them and not in
the other. -/
theorem mergeFields_eq_of_parts {source first second : Object} (sorted : Dictionary.Sorted source)
    (first_sorted : Dictionary.Sorted first) (second_sorted : Dictionary.Sorted second)
    (parts : ∀ key,
      (Dictionary.find? first key = Dictionary.find? source key ∧
          Dictionary.find? second key = none) ∨
        (Dictionary.find? first key = none ∧
          Dictionary.find? second key = Dictionary.find? source key)) :
    mergeFields first second = source := by
  refine Dictionary.eq_of_find?_eq (sorted_mergeFields first_sorted second) sorted fun key => ?_
  rw [find?_mergeFields second_sorted]
  rcases parts key with ⟨here, nothing⟩ | ⟨nothing, there⟩
  · rw [here, nothing, Option.merge_none_right]
  · rw [nothing, there, Option.merge_none_left]

/-- Both transforms fail on the same parameters and with the same fault, or both answer with fields
of the object they are given. -/
theorem pick_without_cases (params : Value) :
    (∃ fault, pick params = .error fault ∧ without params = .error fault) ∨
      ∃ fields names, value params "src" = .object fields ∧ propNames params = .ok names ∧
        pick params = .ok (.object (onlyFields fields names)) ∧
        without params = .ok (.object (otherFields fields names)) := by
  cases given : source params with
  | error fault =>
    refine .inl ⟨fault, ?_, ?_⟩
    · rw [pick, given]
      rfl
    · rw [without, given]
      rfl
  | ok fields =>
    have object : value params "src" = .object fields := by
      rw [source] at given
      cases taken : value params "src" with
      | object held =>
        rw [taken] at given
        cases given
        rfl
      | _ =>
        rw [taken] at given
        cases given
    cases read : propNames params with
    | error fault =>
      refine .inl ⟨fault, ?_, ?_⟩
      · rw [pick, given, read]
        rfl
      · rw [without, given, read]
        rfl
    | ok names =>
      refine .inr ⟨fields, names, object, rfl, ?_, ?_⟩
      · rw [pick, given, read]
        rfl
      · rw [without, given, read]
        rfl

/-- Picking fields and dropping them are complementary. Either both fail with the same fault, or
their results have no key in common, every field of either is a field of the object, the keys of
what is picked are the listed names that are keys of the object, and the two results are merged to
the object itself, whichever of them is laid over the other. -/
theorem pick_complements_without {params : Value} (canonical : params.Canonical) :
    (∃ fault, pick params = .error fault ∧ without params = .error fault) ∨
      ∃ source picked rest : Object, value params "src" = .object source ∧
        pick params = .ok (.object picked) ∧ without params = .ok (.object rest) ∧
        (∀ key ∈ Dictionary.keys picked, key ∉ Dictionary.keys rest) ∧
        (∀ entry ∈ picked, entry ∈ source) ∧ (∀ entry ∈ rest, entry ∈ source) ∧
        (∀ key, key ∈ Dictionary.keys picked ↔
          Lists (value params "propNames") key ∧ key ∈ Dictionary.keys source) ∧
        merge (together (.object picked) (.object rest)) = .ok (.object source) ∧
        merge (together (.object rest) (.object picked)) = .ok (.object source) := by
  rcases pick_without_cases params with fails | ⟨source, names, given, read, chosen, remaining⟩
  · exact .inl fails
  have whole : (Value.object source).Canonical := given ▸ canonical_value canonical "src"
  have picked_sorted : Dictionary.Sorted (onlyFields source names) := Dictionary.sorted_ofList _
  have rest_sorted : Dictionary.Sorted (otherFields source names) :=
    Dictionary.sorted_foldl_erase whole.1 names
  have picked_within (key : String) (held : Value)
      (found : Dictionary.find? (onlyFields source names) key = some held) :
      Dictionary.find? source key = some held := by
    rw [find?_onlyFields] at found
    exact (Option.ite_none_right_eq_some.mp found).2
  have rest_within (key : String) (held : Value)
      (found : Dictionary.find? (otherFields source names) key = some held) :
      Dictionary.find? source key = some held := by
    rw [find?_otherFields] at found
    exact (Option.ite_none_left_eq_some.mp found).2
  have picked_canonical : (Value.object (onlyFields source names)).Canonical :=
    Value.canonical_object picked_sorted fun key held found =>
      whole.of_find? (picked_within key held found)
  have rest_canonical : (Value.object (otherFields source names)).Canonical :=
    Value.canonical_object rest_sorted fun key held found =>
      whole.of_find? (rest_within key held found)
  refine .inr ⟨source, onlyFields source names, otherFields source names, given, chosen, remaining,
    fun key here there => ?_, subset_of_find? picked_sorted picked_within,
    subset_of_find? rest_sorted rest_within, fun key => ?_, ?_, ?_⟩
  · exact (mem_keys_otherFields.mp there).1 (mem_keys_onlyFields.mp here).1
  · rw [mem_keys_onlyFields, mem_propNames read]
  · rw [merge_together picked_canonical]
    exact congrArg (fun fields => Except.ok (Value.object fields))
      (mergeFields_eq_of_parts whole.1 picked_sorted rest_sorted (find?_parts source names))
  · rw [merge_together rest_canonical]
    have swapped (key : String) := (find?_parts source names key).symm.imp And.symm And.symm
    exact congrArg (fun fields => Except.ok (Value.object fields))
      (mergeFields_eq_of_parts whole.1 rest_sorted picked_sorted swapped)

/-- Parameters that name a field twice and one that is not there. -/
def sizeTwice : Value :=
  .object [("propNames", .array [.string "size", .string "weight", .string "size"]),
    ("src", .object [("size", .array [.ofInt 1, .null]), ("title", .string "bolt")])]

/-- The field is picked once, and what is left has the other one. -/
theorem size_is_picked :
    pick sizeTwice = .ok (.object [("size", .array [.ofInt 1, .null])]) ∧
      without sizeTwice = .ok (.object [("title", .string "bolt")]) ∧
      merge (together (.object [("size", .array [.ofInt 1, .null])])
        (.object [("title", .string "bolt")])) = .ok (.object
          [("size", .array [.ofInt 1, .null]), ("title", .string "bolt")]) := by
  have canonical : sizeTwice.Canonical := by
    simp only [sizeTwice, Value.ofInt, Value.Canonical, Value.CanonicalFields,
      Value.CanonicalItems, Dictionary.Sorted]
    decide
  have picks : pick sizeTwice = .ok (.object [("size", .array [.ofInt 1, .null])]) := rfl
  have drops : without sizeTwice = .ok (.object [("title", .string "bolt")]) := rfl
  rcases pick_complements_without canonical with
    ⟨fault, fails, -⟩ | ⟨source, picked, rest, given, chosen, remaining, -, -, -, -, together, -⟩
  · rw [picks] at fails
    cases fails
  · rw [picks] at chosen
    rw [drops] at remaining
    cases chosen
    cases remaining
    cases given
    exact ⟨picks, drops, together⟩

end StepGraph.Objects
