import StepGraph.Proofs.RoundTrip

/-!
# Types of steps

The types of the steps of a stored list are checked before the list is decoded. Both walk through
the same value, each in its own way: the check enters every list that is stored where a body would
be, the decoding only that of a step about another graph, and what is stored there in any other step
is ignored. Where the two agree, the check refines what is reported and refuses nothing that is
decoded. They do not agree on an ignored list: the check looks for steps in it, and what it finds
there decides, and alone decides, whether a list is loaded that decodes to a graph with distinct
names.
-/
namespace StepGraph

namespace StepTypes

/-- A value is stored in a list of steps, at a trail of indexes: it is an item, or an item of the
list that stands where the body would, in an item that is entered. -/
inductive StandsAt (enters : Value → Prop) : List Value → List Nat → Value → Prop where
  /-- An item. -/
  | here {items : List Value} {index : Nat} {step : Value} (there : items[index]? = some step) :
    StandsAt enters items [index] step
  /-- An item of an inner list. -/
  | inside {items inner : List Value} {index : Nat} {around step : Value} {trail : List Nat}
      (there : items[index]? = some around) (entered : enters around)
      (body : around.field? "graphDef" = some (.array inner))
      (within : StandsAt enters inner trail step) : StandsAt enters items (index :: trail) step

/-- The place of a value begins with the index of an item. -/
theorem StandsAt.exists_index {enters : Value → Prop} {items : List Value} {trail : List Nat}
    {step : Value} (stands : StandsAt enters items trail step) :
    ∃ index others, trail = index :: others ∧ index < items.length := by
  cases stands with
  | here there => exact ⟨_, _, rfl, (List.getElem?_eq_some_iff.mp there).choose⟩
  | inside there => exact ⟨_, _, rfl, (List.getElem?_eq_some_iff.mp there).choose⟩

/-- The check of the types comes to a value, as to a step. -/
abbrev Visited (items : List Value) (trail : List Nat) (step : Value) : Prop :=
  StandsAt (fun _ => True) items trail step

/-- A stored step has the word of steps about other graphs. -/
def IsGraphStep (step : Value) : Prop :=
  step.field? "type" = some (.string StepType.graph.tag)

/-- A step with another word is not about another graph. -/
theorem not_isGraphStep {step : Value} {tag : String}
    (found : step.field? "type" = some (.string tag)) (other : tag ≠ StepType.graph.tag) :
    ¬ IsGraphStep step :=
  fun about => other (Value.string.inj (Option.some.inj (found.symm.trans about)))

/-- A value is decoded as a step. -/
abbrev Read (items : List Value) (trail : List Nat) (step : Value) : Prop :=
  StandsAt IsGraphStep items trail step

end StepTypes

open StepTypes

namespace TypeFault

/-! ## What the check finds -/

/-- What a search for the first fault in a list of steps finds. -/
def Finds (items : List Value) : Option (List Nat × TypeFault) → Prop
  | none => ∀ trail step, Visited items trail step → ofStep? step = none
  | some (trail, fault) => ∃ step, Visited items trail step ∧ ofStep? step = some fault

/-- What a search for the first fault finds in what is stored where a body would be. -/
def FindsIn (body : Option Value) (found : Option (List Nat × TypeFault)) : Prop :=
  match found with
  | none => ∀ inner, body = some (.array inner) → Finds inner none
  | some first => ∃ inner, body = some (.array inner) ∧ Finds inner (some first)

mutual
/-- The search in the rest of a list, past steps without a fault, finds a fault of the list. -/
theorem finds_among? : ∀ (rest before : List Value),
    (∀ index others step, Visited (before ++ rest) (index :: others) step →
      index < before.length → ofStep? step = none) →
      Finds (before ++ rest) (among? before.length rest)
  | [], before, clear => by
    intro trail step visited
    obtain ⟨index, others, rfl, bound⟩ := visited.exists_index
    rw [List.append_nil] at bound
    exact clear index others step visited bound
  | step :: rest, before, clear => by
    have there : (before ++ step :: rest)[before.length]? = some step := by simp
    have shift : before ++ step :: rest = (before ++ [step]) ++ rest := List.append_cons ..
    have length : (before ++ [step]).length = before.length + 1 := by simp
    have inside := finds_inside? step
    rw [among?]
    split
    · rename_i fault faulty
      exact ⟨step, .here there, faulty⟩
    · rename_i sound
      split
      · rename_i trail fault found
        rw [found] at inside
        obtain ⟨inner, body, faulty, visited, same⟩ := inside
        exact ⟨faulty, .inside there trivial body visited, same⟩
      · rename_i nothing
        rw [nothing] at inside
        -- Neither the step nor what is stored in it is at fault, so that it is passed.
        have passed (index : Nat) (others : List Nat) (other : Value)
            (visited : Visited (before ++ step :: rest) (index :: others) other)
            (bound : index < before.length + 1) : ofStep? other = none := by
          rcases Nat.lt_succ_iff_lt_or_eq.mp bound with less | rfl
          · exact clear index others other visited less
          · cases visited with
            | here there' =>
              obtain rfl := Option.some.inj (there.symm.trans there')
              exact sound
            | inside there' _ body within =>
              obtain rfl := Option.some.inj (there.symm.trans there')
              exact inside _ body _ _ within
        have further := finds_among? rest (before ++ [step]) (by rwa [← shift, length])
        rwa [← shift, length] at further

/-- The search in a step finds a fault of what is stored where its body would be. -/
theorem finds_inside? : ∀ step : Value, FindsIn (step.field? "graphDef") (inside? step)
  | .object fields => finds_inBody? fields
  | .null | .bool _ | .number _ | .string _ | .array _ => nofun

/-- The search among fields finds a fault of what is stored where the body would be. -/
theorem finds_inBody? : ∀ fields : List (String × Value),
    FindsIn (Dictionary.find? fields "graphDef") (inBody? fields)
  | [] => nofun
  | (key, value) :: rest => by
    rw [inBody?, Dictionary.find?]
    split
    · exact finds_inItems? value
    · exact finds_inBody? rest

/-- The search in a value finds a fault of the list that it is. -/
theorem finds_inItems? : ∀ value : Value, FindsIn (some value) (inItems? value)
  | .array items => by
    have found := finds_among? items [] (fun _ _ _ _ bound => absurd bound (Nat.not_lt_zero _))
    rw [List.nil_append, List.length_nil] at found
    rw [inItems?]
    cases result : among? 0 items with
    | none =>
      rw [result] at found
      rintro _ ⟨⟩
      exact found
    | some first =>
      rw [result] at found
      exact ⟨items, rfl, found⟩
  | .null | .bool _ | .number _ | .string _ | .object _ => nofun
end

/-- The search finds a fault of a list of steps. -/
theorem finds_among?_zero (items : List Value) : Finds items (among? 0 items) :=
  finds_among? items [] fun _ _ _ _ bound => absurd bound (Nat.not_lt_zero _)

end TypeFault

/-! ## What is decoded -/

namespace Decoding

/-- The items of a list that decodes are decoded. -/
theorem exists_step?_of_mem {items : List Value} {graph : Graph}
    (decoded : steps? items = some graph) {value : Value} (member : value ∈ items) :
    ∃ step, step? value = some step := by
  induction items generalizing graph with
  | nil => cases member
  | cons first rest ih =>
    obtain ⟨step, head, decoded⟩ := Option.bind_eq_some_iff.mp decoded
    obtain ⟨others, tail, -⟩ := Option.bind_eq_some_iff.mp decoded
    rcases List.mem_cons.mp member with rfl | later
    · exact ⟨step, head⟩
    · exact ih tail later

/-- A value that is decoded as a step is an object. -/
theorem exists_fields_of_step? {value : Value} {step : Step} (decoded : step? value = some step) :
    ∃ fields, value = .object fields := by
  cases value with
  | object fields => exact ⟨fields, rfl⟩
  | _ => cases decoded

/-- What is stored as the body of a step about another graph is decoded, when it is a list. -/
theorem exists_steps?_of_isGraphStep {around : Value} {step : Step}
    (decoded : step? around = some step) (about : IsGraphStep around) {inner : List Value}
    (body : around.field? "graphDef" = some (.array inner)) :
    ∃ graph, steps? inner = some graph := by
  obtain ⟨fields, rfl⟩ := exists_fields_of_step? decoded
  have word : Dictionary.find? fields "type" = some (.string StepType.graph.tag) := about
  have list : Dictionary.find? fields "graphDef" = some (.array inner) := body
  obtain ⟨type, typed, ⟨carried, done, rfl, read⟩ | ⟨carried, call, content, rfl, -, found, -⟩⟩ :=
    step?_eq_some decoded
  · rw [word, Option.bind_some, decode?_tag] at typed
    cases typed
    cases read
  · rw [bodyAmong?_eq, list] at found
    obtain ⟨graph, items, -⟩ := Option.map_eq_some_iff.mp found
    exact ⟨graph, items⟩

/-- What is read is decoded. -/
theorem exists_step?_of_read {items : List Value} {graph : Graph}
    (decoded : steps? items = some graph) {trail : List Nat} {value : Value}
    (read : Read items trail value) : ∃ step, step? value = some step := by
  induction read generalizing graph with
  | here there => exact exists_step?_of_mem decoded (List.mem_of_getElem? there)
  | inside there about body _ ih =>
    obtain ⟨step, around⟩ := exists_step?_of_mem decoded (List.mem_of_getElem? there)
    obtain ⟨inner, deeper⟩ := exists_steps?_of_isGraphStep around about body
    exact ih deeper

/-- A decoded step with a string for its type has the word of a type. -/
theorem ofStep?_eq_none_of_step? {value : Value} {step : Step} (decoded : step? value = some step)
    {tag : String} (tagged : value.field? "type" = some (.string tag)) :
    TypeFault.ofStep? value = none := by
  obtain ⟨fields, rfl⟩ := exists_fields_of_step? decoded
  obtain ⟨type, typed, -⟩ := step?_eq_some decoded
  have found : Dictionary.find? fields "type" = some (.string tag) := tagged
  rw [found] at typed
  have known : StepType.ofTag? tag = some type := typed
  rw [TypeFault.ofStep?, tagged]
  exact if_pos (Option.isSome_of_eq_some known)

end Decoding

/-- What a list is loaded as that decodes to a graph with distinct names. -/
theorem Graph.load_array_eq {items : List Value} {graph : Graph}
    (decoded : Decoding.steps? items = some graph)
    (distinct : Graph.validate .document graph = .ok graph) :
    Graph.load (.array items) = ((TypeFault.among? 0 items).elim (.ok graph) fun first =>
      .error (first.2.error ⟨.document, first.1⟩)) := by
  rw [Graph.load]
  cases TypeFault.among? 0 items with
  | none => simp only [decoded, distinct, Option.elim]
  | some first => rfl

namespace StepTypes

/-- A list that decodes, with a string for the type of every step, to a graph with distinct names is
loaded as that graph exactly when all steps in the lists that decoding ignores have the word of a
type. When it is refused, then for the type of a step in such a list. -/
theorem load_exact {items : List Value} {graph : Graph}
    (decoded : Decoding.steps? items = some graph)
    (tagged : ∀ trail step, Read items trail step →
      ∃ tag, step.field? "type" = some (.string tag))
    (distinct : Graph.validate .document graph = .ok graph) :
    (Graph.load (.array items) = .ok graph ↔
        ∀ trail step, Visited items trail step → ¬ Read items trail step →
          ∃ type : StepType, step.field? "type" = some (.string type.tag)) ∧
      ∀ error, Graph.load (.array items) = .error error →
        ∃ trail step fault, Visited items trail step ∧ ¬ Read items trail step ∧
          TypeFault.ofStep? step = some fault ∧ error = fault.error ⟨.document, trail⟩ := by
  -- What is decoded is not at fault, so a fault that is found stands in an ignored list.
  have sound (trail : List Nat) (step : Value) (read : Read items trail step) :
      TypeFault.ofStep? step = none := by
    obtain ⟨inner, known⟩ := Decoding.exists_step?_of_read decoded read
    obtain ⟨tag, found⟩ := tagged trail step read
    exact Decoding.ofStep?_eq_none_of_step? known found
  have found := TypeFault.finds_among?_zero items
  rw [Graph.load_array_eq decoded distinct]
  cases result : TypeFault.among? 0 items with
  | none =>
    rw [result] at found
    refine ⟨⟨fun _ trail step visited _ => ?_, fun _ => rfl⟩, nofun⟩
    exact TypeFault.ofStep?_eq_none_iff.mp (found trail step visited)
  | some first =>
    obtain ⟨trail, fault⟩ := first
    rw [result] at found
    obtain ⟨step, visited, faulty⟩ := found
    have ignored : ¬ Read items trail step := fun read => by
      rw [sound trail step read] at faulty
      cases faulty
    refine ⟨⟨nofun, fun typed => ?_⟩, ?_⟩
    · rw [TypeFault.ofStep?_eq_none_iff.mpr (typed trail step visited ignored)] at faulty
      cases faulty
    · rintro error ⟨⟩
      exact ⟨trail, step, fault, visited, ignored, faulty, rfl⟩

/-- A literal that carries a list, which its type does not know, and a template with a literal. -/
def carrying (carried : Value) : List Value :=
  [.object [("graphDef", .array [carried]), ("name", .string "a"), ("type", .string "static")],
    .object [("graphDef", .array [.object [("name", .string "b"), ("type", .string "static")]]),
      ("name", .string "t"), ("type", .string "graph")]]

/-- The graph that is decoded, whatever the literal carries. -/
def carrier : Graph :=
  [.action ⟨"a", false, none⟩ (.static .null),
    .graph ⟨"t", false, none⟩ {} (.inline [.action ⟨"b", false, none⟩ (.static .null)])]

/-- All steps that are decoded have a string for their type, whatever the literal carries. -/
theorem tagged_carrying (carried : Value) (trail : List Nat) (step : Value)
    (read : Read (carrying carried) trail step) :
    ∃ tag, step.field? "type" = some (.string tag) := by
  cases read with
  | @here _ index _ there =>
    match index, there with
    | 0, rfl => exact ⟨_, rfl⟩
    | 1, rfl => exact ⟨_, rfl⟩
  | @inside _ inner index _ _ _ there about body within =>
    match index, there with
    | 0, rfl => exact absurd about (not_isGraphStep rfl (by decide))
    | 1, rfl =>
      obtain rfl := Value.array.inj (Option.some.inj body)
      cases within with
      | @here _ index _ there =>
        match index, there with
        | 0, rfl => exact ⟨_, rfl⟩
      | @inside _ _ index _ _ _ there about =>
        match index, there with
        | 0, rfl => exact absurd about (not_isGraphStep rfl (by decide))

/-- With a remark in the list that the literal carries the graph is loaded. -/
theorem carrying_comment_exact :
    Graph.load (.array (carrying (.object [("type", .string "comment")]))) = .ok carrier := by
  refine (load_exact (by decide +kernel) (tagged_carrying _) rfl).1.mpr ?_
  intro trail step visited ignored
  cases visited with
  | here there => exact absurd (.here there) ignored
  | @inside _ inner index _ _ _ there _ body within =>
    match index, there with
    | 0, rfl =>
      obtain rfl := Value.array.inj (Option.some.inj body)
      cases within with
      | @here _ index _ there =>
        match index, there with
        | 0, rfl => exact ⟨.comment, rfl⟩
      | @inside _ _ index _ _ _ there _ body =>
        match index, there with
        | 0, rfl => cases body
    | 1, rfl =>
      cases within with
      | here there' => exact absurd (.inside rfl rfl body (.here there')) ignored
      | @inside _ _ index _ _ _ there _ deeper =>
        obtain rfl := Value.array.inj (Option.some.inj body)
        match index, there with
        | 0, rfl => cases deeper

/-- With a step without a type in that list it is refused, although the same graph is decoded. -/
theorem carrying_untyped_refused :
    let items := carrying (.object [("name", .string "n")])
    Decoding.steps? items = some carrier ∧
      (∀ trail step, Read items trail step → ∃ tag, step.field? "type" = some (.string tag)) ∧
        Graph.validate .document carrier = .ok carrier ∧
          Graph.load (.array items) = .error (.missingStepType ⟨.document, [0, 0]⟩) :=
  ⟨by decide +kernel, tagged_carrying _, rfl, rfl⟩

end StepTypes

end StepGraph
