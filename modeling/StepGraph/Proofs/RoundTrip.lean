import StepGraph.Document.Encoding
import StepGraph.Document.Loading

/-!
# Stored documents

A document that was loaded is stored in a form that loads again, as the same document. Decoding and
encoding describe the format of a step twice; here they are shown to agree for every type of step,
field by field, and then at every depth, by recursion on the value that was decoded.

Only one thing that a step could hold does not survive, inputs that are null, and decoding never
yields it.
-/
namespace StepGraph

namespace Encoding

/-! ## What is found in a stored step -/

/-- A field that may be left out is found under its key. -/
@[simp] theorem find?_optional (key : String) (value : Option Value) (other : String) :
    Dictionary.find? (optional key value) other = if key = other then value else none := by
  cases value with
  | none => exact (ite_self none).symm
  | some value => rfl

/-- A flag is found under its key when it is set. -/
@[simp] theorem find?_flag (key : String) (value : Bool) (other : String) :
    Dictionary.find? (flag key value) other =
      if key = other then (if value then some (.bool true) else none) else none := by
  cases value with
  | false => exact (ite_self none).symm
  | true => rfl

/-- A field that may be left out has its key at most. -/
theorem keys_optional (key : String) (value : Option Value) :
    ((optional key value).map Prod.fst).Sublist [key] := by
  cases value with
  | none => exact List.nil_sublist _
  | some value => exact List.Sublist.refl _

/-- A flag has its key at most. -/
theorem keys_flag (key : String) (value : Bool) :
    ((flag key value).map Prod.fst).Sublist [key] := by
  cases value with
  | false => exact List.nil_sublist _
  | true => exact List.Sublist.refl _

/-- The keys of what every step carries. -/
def headerKeys : List String := ["name", "isHidden", "comments"]

/-- The keys of actions. -/
def actionKeys : List String :=
  ["type", "value", "mirror", "objectPath", "propNamePath", "test", "cases", "nodeNames", "fn",
    "params"]

/-- The keys of a step about another graph. -/
def graphKeys : List String :=
  ["type", "graphDef", "isTemplate", "inputs", "collectionMode", "namespace"]

/-- What every step carries is written under its keys, in their order. -/
theorem keys_header (carried : Header) : ((header carried).map Prod.fst).Sublist headerKeys := by
  rw [header, List.map_append, List.map_append]
  exact ((List.Sublist.refl ["name"]).append (keys_flag _ _)).append (keys_optional _ _)

/-- An action is written under keys of actions, in their order. -/
theorem keys_action (done : Action) : ((action done).map Prod.fst).Sublist actionKeys := by
  cases done with
  | static value =>
    change ["type", "value"].Sublist _
    decide
  | «alias» mirror =>
    change ["type", "mirror"].Sublist _
    decide
  | dereference objectPath propNamePath =>
    change ["type", "objectPath", "propNamePath"].Sublist _
    decide
  | branch test cases nodeNames =>
    change ["type", "test", "cases", "nodeNames"].Sublist _
    decide
  | transform function params =>
    change ["type", "fn", "params"].Sublist _
    decide
  | comment =>
    change ["type"].Sublist _
    decide

/-- The fields of a step about another graph that are its own, given its stored body. -/
def graph (call : Invocation) (stored : Value) : List (String × Value) :=
  type .graph ++ [("graphDef", stored)] ++ invocation call

/-- A step about another graph is written under its keys, in their order. -/
theorem keys_graph (call : Invocation) (stored : Value) :
    ((graph call stored).map Prod.fst).Sublist graphKeys := by
  simp only [graph, invocation, List.map_append]
  exact (List.Sublist.refl ["type", "graphDef"]).append
    ((((keys_flag _ _).append (keys_optional _ _)).append (keys_optional _ _)).append
      (keys_optional _ _))

/-- Nothing is found under a key that is not written. -/
theorem find?_eq_none_of_sublist {pairs : List (String × Value)} {names : List String}
    (only : (pairs.map Prod.fst).Sublist names) {key : String} (apart : key ∉ names) :
    Dictionary.find? pairs key = none := by
  rw [← Option.not_isSome_iff_eq_none, ← Dictionary.mem_keys_iff]
  exact fun member => apart (only.subset member)

/-- What is found in fields that were written after what every step carries. -/
structure Spelled (carried : Header) (own : List (String × Value)) (fields : Object) : Prop where
  /-- What every step carries is found under its keys. -/
  shared : ∀ key ∈ headerKeys,
    Dictionary.find? fields key = Dictionary.find? (header carried) key
  /-- All else is found under the keys of its own. -/
  other : ∀ key ∉ headerKeys, Dictionary.find? fields key = Dictionary.find? own key

/-- A step is found to have the fields that are written. -/
theorem spelled_ofList (carried : Header) {own : List (String × Value)} {names : List String}
    (only : (own.map Prod.fst).Sublist names) (distinct : (headerKeys ++ names).Nodup) :
    Spelled carried own (Dictionary.ofList (header carried ++ own)) := by
  have found (key : String) : Dictionary.find? (Dictionary.ofList (header carried ++ own)) key =
      (Dictionary.find? (header carried) key).or (Dictionary.find? own key) := by
    rw [← Dictionary.find?_append]
    refine Dictionary.find?_ofList ?_ key
    rw [List.map_append]
    exact ((keys_header carried).append only).nodup distinct
  refine { shared := fun key member => ?_, other := fun key apart => ?_ }
  · have apart : key ∉ names := fun other =>
      (List.nodup_append.mp distinct).2.2 key member key other rfl
    rw [found, find?_eq_none_of_sublist only apart, Option.or_none]
  · rw [found, find?_eq_none_of_sublist (keys_header carried) apart, Option.none_or]

/-- The value that stores a body. -/
def body : Body Step → Value
  | .inline inner => .array (steps inner)
  | .template name => .string name

/-- A step about another graph is stored with its body. -/
theorem step_graph (carried : Header) (call : Invocation) (inner : Body Step) :
    step (.graph carried call inner) =
      .object (Dictionary.ofList (header carried ++ graph call (body inner))) := by
  cases inner with
  | inline inner => simp only [step, graph, body, List.append_assoc]
  | template name => simp only [step, graph, body, List.append_assoc]

/-- What is found in a step with an action. -/
theorem spelled_action (carried : Header) (done : Action) :
    Spelled carried (action done) (Dictionary.ofList (header carried ++ action done)) :=
  spelled_ofList carried (keys_action done) (by decide)

/-- What is found in a step about another graph. -/
theorem spelled_graph (carried : Header) (call : Invocation) (stored : Value) :
    Spelled carried (graph call stored)
      (Dictionary.ofList (header carried ++ graph call stored)) :=
  spelled_ofList carried (keys_graph call stored) (by decide)

end Encoding

namespace Decoding

/-! ## What is read back -/

/-- A flag that was written is read back. -/
theorem flag_of_find? {fields : Object} {key : String} {value : Bool}
    (found : Dictionary.find? fields key = if value then some (.bool true) else none) :
    flag fields key = some value := by
  rw [flag, found]
  cases value <;> rfl

/-- A text that was written, or left out, is read back. -/
theorem optionalText_of_find? {fields : Object} {key : String} {text : Option String}
    (found : Dictionary.find? fields key = text.map .string) :
    optionalText fields key = some text := by
  rw [optionalText, optionalValue, found]
  cases text <;> rfl

/-- A text that was written is read back, and nothing when it was left out. -/
theorem requiredText_of_find? {fields : Object} {key : String} {text : Option String}
    (found : Dictionary.find? fields key = text.map .string) : requiredText fields key = text := by
  rw [requiredText, found]
  cases text <;> rfl

/-- A value that was written, or left out, is read back, unless it is null. -/
theorem optionalValue_of_find? {fields : Object} {key : String} {value : Option Value}
    (found : Dictionary.find? fields key = value) (present : value ≠ some .null) :
    optionalValue fields key = value := by
  rw [optionalValue, found]
  split
  · exact absurd rfl present
  · rfl

/-- A value that may be absent is never read as null. -/
theorem optionalValue_ne_null (fields : Object) (key : String) :
    optionalValue fields key ≠ some .null := by
  unfold optionalValue
  split
  · exact nofun
  · assumption

/-- A collection mode that was written, or left out, is read back. -/
theorem collectionMode_of_find? {fields : Object} {mode : Option CollectionMode}
    (found : Dictionary.find? fields "collectionMode" = mode.map Encoding.collectionMode) :
    collectionMode fields = some mode := by
  rw [collectionMode, optionalValue, found]
  cases mode with
  | none => rfl
  | some mode => cases mode; rfl

/-- What every step carries is read back. -/
theorem header_of_spelled {carried : Header} {own : List (String × Value)} {fields : Object}
    (spelled : Encoding.Spelled carried own fields) : header fields = some carried := by
  have named : Dictionary.find? fields "name" = some (.string carried.name) :=
    spelled.shared _ (by decide)
  have hidden : flag fields "isHidden" = some carried.isHidden := flag_of_find? (by
    rw [spelled.shared _ (by decide)]
    simp [Encoding.header, Dictionary.find?])
  have remark : optionalText fields "comments" = some carried.comments := optionalText_of_find? (by
    rw [spelled.shared _ (by decide)]
    simp [Encoding.header, Dictionary.find?])
  simp [header, named, hidden, remark, Value.string?]

/-- How a step treats its body is read back, unless the inputs are null. -/
theorem invocation_of_spelled {carried : Header} {call : Invocation} {stored : Value}
    {fields : Object} (spelled : Encoding.Spelled carried (Encoding.graph call stored) fields)
    (present : call.inputs ≠ some .null) : invocation fields = some call := by
  have found (key : String) (apart : key ∉ ["name", "isHidden", "comments", "type", "graphDef"]) :
      Dictionary.find? fields key = Dictionary.find? (Encoding.invocation call) key := by
    simp only [List.mem_cons, not_or] at apart
    rw [spelled.other key (by simp [Encoding.headerKeys, apart])]
    simp [Encoding.graph, Encoding.type, Dictionary.find?, Ne.symm apart.2.2.2.1,
      Ne.symm apart.2.2.2.2.1]
  have template : flag fields "isTemplate" = some call.isTemplate := flag_of_find? (by
    rw [found _ (by decide)]
    simp [Encoding.invocation])
  have inputs : optionalValue fields "inputs" = call.inputs := optionalValue_of_find? (by
    rw [found _ (by decide)]
    simp [Encoding.invocation]) present
  have mode : collectionMode fields = some call.collectionMode := collectionMode_of_find? (by
    rw [found _ (by decide)]
    simp [Encoding.invocation])
  have space : optionalText fields "namespace" = some call.namespaceKey := optionalText_of_find? (by
    rw [found _ (by decide)]
    simp [Encoding.invocation])
  simp [invocation, template, inputs, mode, space]

/-- The body of a step is the one under its key. -/
theorem bodyAmong?_eq (fields : Object) :
    bodyAmong? fields = (Dictionary.find? fields "graphDef").bind body? := by
  induction fields with
  | nil => rfl
  | cons entry rest ih =>
    obtain ⟨key, value⟩ := entry
    rw [bodyAmong?, Dictionary.find?]
    split
    · rfl
    · exact ih

/-- The type of a step is read back from its word. -/
theorem decode?_tag (type : StepType) : StepType.decode? (.string type.tag) = some type := by
  cases type <;> decide

/-- A step with an action is read from its parts. -/
theorem step?_of_action {fields : Object} {carried : Header} {type : StepType} {done : Action}
    (shared : header fields = some carried)
    (typed : (Dictionary.find? fields "type").bind StepType.decode? = some type)
    (read : action fields type = some done) :
    step? (.object fields) = some (.action carried done) := by
  rw [step?, shared, Option.bind_eq_bind, Option.bind_some, typed]
  cases type with
  | graph => cases read
  | _ => exact congrArg (Option.map (Step.action carried)) read

/-- A step about another graph is read from its parts. -/
theorem step?_of_graph {fields : Object} {carried : Header} {call : Invocation} {inner : Body Step}
    (shared : header fields = some carried)
    (typed : (Dictionary.find? fields "type").bind StepType.decode? = some .graph)
    (body : bodyAmong? fields = some inner) (called : invocation fields = some call) :
    step? (.object fields) = some (.graph carried call inner) := by
  rw [step?, shared, Option.bind_eq_bind, Option.bind_some, typed, Option.bind_eq_bind,
    Option.bind_some]
  simp [body, called]

/-- A stored action is read back. -/
theorem action_of_spelled {carried : Header} {done : Action} {fields : Object}
    (spelled : Encoding.Spelled carried (Encoding.action done) fields) :
    ∃ type, (Dictionary.find? fields "type").bind StepType.decode? = some type ∧
      action fields type = some done := by
  have found := spelled.other
  have typed (type : StepType)
      (written : Dictionary.find? (Encoding.action done) "type" = some (.string type.tag)) :
      (Dictionary.find? fields "type").bind StepType.decode? = some type := by
    rw [found "type" (by decide), written]
    exact decode?_tag type
  cases done with
  | static value =>
    refine ⟨.static, typed .static rfl, ?_⟩
    rw [action, valueOrNull, found "value" (by decide)]
    rfl
  | «alias» mirror =>
    refine ⟨.alias, typed .alias rfl, ?_⟩
    rw [action, requiredText, found "mirror" (by decide)]
    rfl
  | dereference objectPath propNamePath =>
    refine ⟨.dereference, typed .dereference rfl, ?_⟩
    rw [action, requiredText, requiredText, found "objectPath" (by decide),
      found "propNamePath" (by decide)]
    rfl
  | branch test cases nodeNames =>
    refine ⟨.branch, typed .branch rfl, ?_⟩
    rw [action, requiredText, requiredItems, requiredItems, found "test" (by decide),
      found "cases" (by decide), found "nodeNames" (by decide)]
    rfl
  | transform function params =>
    refine ⟨.transform, typed .transform rfl, ?_⟩
    rw [action, requiredText, valueOrNull, found "fn" (by decide), found "params" (by decide)]
    rfl
  | comment => exact ⟨.comment, typed .comment rfl, rfl⟩

/-- A stored step with an action is read back. -/
theorem step?_encode_action (carried : Header) (done : Action) :
    step? (Encoding.step (.action carried done)) = some (.action carried done) := by
  have spelled := Encoding.spelled_action carried done
  obtain ⟨type, typed, read⟩ := action_of_spelled spelled
  rw [Encoding.step]
  exact step?_of_action (header_of_spelled spelled) typed read

/-- A stored step about another graph is read back, when its body is and its inputs are not
null. -/
theorem step?_encode_graph (carried : Header) {call : Invocation} {inner : Body Step}
    (present : call.inputs ≠ some .null) (read : body? (Encoding.body inner) = some inner) :
    step? (Encoding.step (.graph carried call inner)) = some (.graph carried call inner) := by
  have spelled := Encoding.spelled_graph carried call (Encoding.body inner)
  have typed : (Dictionary.find? (Dictionary.ofList _) "type").bind StepType.decode? = _ :=
    congrArg (Option.bind · StepType.decode?) (spelled.other "type" (by decide))
  have body : bodyAmong? (Dictionary.ofList _) = _ :=
    (bodyAmong?_eq _).trans (congrArg (Option.bind · body?) (spelled.other "graphDef" (by decide)))
  rw [Encoding.step_graph]
  exact step?_of_graph (header_of_spelled spelled) (typed.trans (decode?_tag .graph))
    (body.trans read) (invocation_of_spelled spelled present)

/-! ## Every depth -/

/-- What a step that is read from fields is. -/
theorem step?_eq_some {fields : Object} {step : Step}
    (decoded : step? (.object fields) = some step) :
    ∃ type, (Dictionary.find? fields "type").bind StepType.decode? = some type ∧
      ((∃ carried done, step = .action carried done ∧ action fields type = some done) ∨
        ∃ carried call inner, step = .graph carried call inner ∧ type = .graph ∧
          bodyAmong? fields = some inner ∧ invocation fields = some call) := by
  rw [step?] at decoded
  obtain ⟨carried, -, decoded⟩ := Option.bind_eq_some_iff.mp decoded
  obtain ⟨type, typed, decoded⟩ := Option.bind_eq_some_iff.mp decoded
  refine ⟨type, typed, ?_⟩
  cases type with
  | graph =>
    obtain ⟨inner, body, decoded⟩ := Option.bind_eq_some_iff.mp decoded
    obtain ⟨call, called, same⟩ := Option.bind_eq_some_iff.mp decoded
    exact .inr ⟨carried, call, inner, (Option.some.inj same).symm, rfl, body, called⟩
  | _ =>
    obtain ⟨done, read, same⟩ := Option.map_eq_some_iff.mp decoded
    exact .inl ⟨carried, done, same.symm, read⟩

/-- Inputs that are read are not null. -/
theorem inputs_ne_null {fields : Object} {call : Invocation}
    (called : invocation fields = some call) : call.inputs ≠ some .null := by
  rw [invocation] at called
  obtain ⟨template, -, called⟩ := Option.bind_eq_some_iff.mp called
  obtain ⟨mode, -, called⟩ := Option.bind_eq_some_iff.mp called
  obtain ⟨space, -, same⟩ := Option.bind_eq_some_iff.mp called
  obtain rfl := Option.some.inj same
  exact optionalValue_ne_null fields "inputs"

mutual
/-- A step that was decoded is read back from its stored form. -/
theorem step?_encode : ∀ (value : Value) {step : Step}, step? value = some step →
    step? (Encoding.step step) = some step
  | .object fields, _, decoded => by
    obtain ⟨type, -, ⟨carried, done, rfl, -⟩ | ⟨carried, call, inner, rfl, -, body, called⟩⟩ :=
      step?_eq_some decoded
    · exact step?_encode_action carried done
    · exact step?_encode_graph carried (inputs_ne_null called) (bodyAmong?_encode fields body)
  | .null, _, decoded | .bool _, _, decoded | .number _, _, decoded | .string _, _, decoded
  | .array _, _, decoded => by cases decoded

/-- The body that was decoded among fields is read back from its stored form. -/
theorem bodyAmong?_encode : ∀ (fields : List (String × Value)) {inner : Body Step},
    bodyAmong? fields = some inner → body? (Encoding.body inner) = some inner
  | [], _, decoded => by cases decoded
  | (key, value) :: rest, _, decoded => by
    rw [bodyAmong?] at decoded
    split at decoded
    · exact body?_encode value decoded
    · exact bodyAmong?_encode rest decoded

/-- A body that was decoded is read back from its stored form. -/
theorem body?_encode : ∀ (value : Value) {inner : Body Step}, body? value = some inner →
    body? (Encoding.body inner) = some inner
  | .array items, _, decoded => by
    obtain ⟨steps, read, rfl⟩ := Option.map_eq_some_iff.mp decoded
    exact congrArg (Option.map Body.inline) (steps?_encode items read)
  | .string name, _, decoded => by
    obtain rfl := Option.some.inj decoded
    rfl
  | .null, _, decoded | .bool _, _, decoded | .number _, _, decoded | .object _, _, decoded => by
    cases decoded

/-- Steps that were decoded are read back from their stored form. -/
theorem steps?_encode : ∀ (items : List Value) {steps : List Step}, steps? items = some steps →
    steps? (Encoding.steps steps) = some steps
  | [], _, decoded => by
    obtain rfl := Option.some.inj decoded
    rfl
  | value :: rest, _, decoded => by
    obtain ⟨step, first, decoded⟩ := Option.bind_eq_some_iff.mp decoded
    obtain ⟨others, later, same⟩ := Option.bind_eq_some_iff.mp decoded
    obtain rfl := Option.some.inj same
    rw [Encoding.steps, steps?, step?_encode value first, steps?_encode rest later]
    rfl
end

end Decoding

namespace TypeFault

/-- The body of a step in which faults are sought is the one under its key. -/
theorem inBody?_eq (fields : Object) :
    inBody? fields = (Dictionary.find? fields "graphDef").bind inItems? := by
  induction fields with
  | nil => rfl
  | cons entry rest ih =>
    obtain ⟨key, value⟩ := entry
    rw [inBody?, Dictionary.find?]
    split
    · rfl
    · exact ih

/-- A step has no fault exactly if it has the word of a type. -/
theorem ofStep?_eq_none_iff {step : Value} :
    ofStep? step = none ↔ ∃ type : StepType, step.field? "type" = some (.string type.tag) := by
  rw [ofStep?]
  split
  · rename_i absent
    simp [absent]
  · rename_i tag found
    rw [found]
    constructor
    · intro known
      split at known
      · rename_i some
        obtain ⟨type, same⟩ := Option.isSome_iff_exists.mp some
        have tagged : type.tag = tag := by simpa using List.find?_some same
        exact ⟨type, by rw [tagged]⟩
      · cases known
    · rintro ⟨type, same⟩
      obtain rfl := Value.string.inj (Option.some.inj same)
      exact if_pos (by cases type <;> decide)
  · rename_i other untagged found
    rw [found]
    refine ⟨nofun, ?_⟩
    rintro ⟨type, same⟩
    exact absurd (Option.some.inj same) (untagged type.tag)

/-- The type of a stored step is none at fault. -/
theorem ofStep?_encode (step : Step) : ofStep? (Encoding.step step) = none := by
  rw [ofStep?_eq_none_iff]
  cases step with
  | action carried done =>
    have found := (Encoding.spelled_action carried done).other "type" (by decide)
    rw [Encoding.step]
    cases done with
    | static value => exact ⟨.static, found⟩
    | «alias» mirror => exact ⟨.alias, found⟩
    | dereference objectPath propNamePath => exact ⟨.dereference, found⟩
    | branch test cases nodeNames => exact ⟨.branch, found⟩
    | transform function params => exact ⟨.transform, found⟩
    | comment => exact ⟨.comment, found⟩
  | graph carried call inner =>
    rw [Encoding.step_graph]
    exact ⟨.graph, (Encoding.spelled_graph carried call _).other "type" (by decide)⟩

mutual
/-- No type inside a stored step is at fault. -/
theorem inside?_encode : ∀ step : Step, inside? (Encoding.step step) = none
  | .action carried done => by
    have found := (Encoding.spelled_action carried done).other "graphDef" (by decide)
    rw [Encoding.step, inside?, inBody?_eq, found]
    cases done <;> rfl
  | .graph carried call (.inline inner) => by
    have spelled := Encoding.spelled_graph carried call (Encoding.body (.inline inner))
    rw [Encoding.step_graph, inside?, inBody?_eq, spelled.other "graphDef" (by decide)]
    exact among?_encode inner 0
  | .graph carried call (.template name) => by
    have spelled := Encoding.spelled_graph carried call (Encoding.body (.template name))
    rw [Encoding.step_graph, inside?, inBody?_eq, spelled.other "graphDef" (by decide)]
    rfl

/-- No type among stored steps is at fault. -/
theorem among?_encode : ∀ (steps : List Step) (index : Nat),
    among? index (Encoding.steps steps) = none
  | [], _ => rfl
  | step :: rest, index => by
    rw [Encoding.steps, among?, ofStep?_encode step, inside?_encode step]
    exact among?_encode rest (index + 1)
end

end TypeFault

/-! ## Canonical values -/

namespace Encoding

open Value

/-- A field that may be left out is canonical when its value is. -/
theorem canonical_optional {key : String} {value : Option Value}
    (canonical : ∀ stored, value = some stored → stored.Canonical) :
    CanonicalFields (optional key value) := by
  cases value with
  | none => trivial
  | some stored => exact ⟨canonical stored rfl, trivial⟩

/-- A flag is canonical. -/
theorem canonical_flag (key : String) (value : Bool) : CanonicalFields (flag key value) := by
  cases value with
  | false => trivial
  | true => exact ⟨trivial, trivial⟩

/-- A text that may be left out is canonical. -/
theorem canonical_text (key : String) (text : Option String) :
    CanonicalFields (optional key (text.map .string)) := by
  refine canonical_optional fun stored written => ?_
  obtain ⟨text, -, rfl⟩ := Option.map_eq_some_iff.mp written
  trivial

/-- What every step carries is stored in canonical fields. -/
theorem canonical_header (carried : Header) : CanonicalFields (header carried) := by
  refine canonicalFields_append.mpr ⟨canonicalFields_append.mpr ⟨?_, canonical_flag _ _⟩, ?_⟩
  · exact ⟨trivial, trivial⟩
  · exact canonical_text _ _

/-- An action that was decoded from canonical fields is stored in such. -/
theorem canonical_action {fields : Object} (canonical : CanonicalFields fields) {type : StepType}
    {done : Action} (read : Decoding.action fields type = some done) :
    CanonicalFields (action done) := by
  have literal (key : String) : (Decoding.valueOrNull fields key).Canonical := by
    rw [Decoding.valueOrNull]
    cases found : Dictionary.find? fields key with
    | none => trivial
    | some value => exact canonical.of_find? found
  have listed (key : String) (items : List Value)
      (given : Decoding.requiredItems fields key = some items) : CanonicalItems items := by
    obtain ⟨value, found, content⟩ := Option.bind_eq_some_iff.mp given
    obtain rfl := items?_eq_some_iff.mp content
    exact canonical.of_find? found
  cases type with
  | static =>
    obtain rfl := Option.some.inj read
    exact ⟨trivial, literal _, trivial⟩
  | «alias» =>
    obtain ⟨mirror, -, rfl⟩ := Option.map_eq_some_iff.mp read
    exact ⟨trivial, trivial, trivial⟩
  | dereference =>
    obtain ⟨objectPath, -, read⟩ := Option.bind_eq_some_iff.mp read
    obtain ⟨propNamePath, -, same⟩ := Option.bind_eq_some_iff.mp read
    obtain rfl := Option.some.inj same
    exact ⟨trivial, trivial, trivial, trivial⟩
  | branch =>
    obtain ⟨test, -, read⟩ := Option.bind_eq_some_iff.mp read
    obtain ⟨cases, given, read⟩ := Option.bind_eq_some_iff.mp read
    obtain ⟨nodeNames, named, same⟩ := Option.bind_eq_some_iff.mp read
    obtain rfl := Option.some.inj same
    exact ⟨trivial, trivial, listed _ _ given, listed _ _ named, trivial⟩
  | transform =>
    obtain ⟨function, -, same⟩ := Option.bind_eq_some_iff.mp read
    obtain rfl := Option.some.inj same
    exact ⟨trivial, trivial, literal _, trivial⟩
  | comment =>
    obtain rfl := Option.some.inj read
    exact ⟨trivial, trivial⟩
  | graph => cases read

/-- How a step treats its body is stored in canonical fields when it was decoded from such. -/
theorem canonical_invocation {fields : Object} (canonical : CanonicalFields fields)
    {call : Invocation} (called : Decoding.invocation fields = some call) :
    CanonicalFields (invocation call) := by
  rw [Decoding.invocation] at called
  obtain ⟨template, -, called⟩ := Option.bind_eq_some_iff.mp called
  obtain ⟨mode, -, called⟩ := Option.bind_eq_some_iff.mp called
  obtain ⟨space, -, same⟩ := Option.bind_eq_some_iff.mp called
  obtain rfl := Option.some.inj same
  refine canonicalFields_append.mpr ⟨canonicalFields_append.mpr ⟨canonicalFields_append.mpr
    ⟨canonical_flag _ _, canonical_optional fun stored given => ?_⟩,
    canonical_optional fun stored written => ?_⟩, canonical_text _ _⟩
  · dsimp only [Decoding.optionalValue] at given
    split at given
    · cases given
    · exact canonical.of_find? given
  · obtain ⟨mode, -, rfl⟩ := Option.map_eq_some_iff.mp written
    cases mode
    trivial

mutual
/-- A step that was decoded from a canonical value is stored as one. -/
theorem canonical_step : ∀ (value : Value) {step : Step}, value.Canonical →
    Decoding.step? value = some step → (Encoding.step step).Canonical
  | .object fields, _, canonical, decoded => by
    obtain ⟨type, -, ⟨carried, done, rfl, read⟩ | ⟨carried, call, inner, rfl, -, found, called⟩⟩ :=
      Decoding.step?_eq_some decoded
    · rw [Encoding.step]
      exact canonical_ofList (canonicalFields_append.mpr
        ⟨canonical_header carried, canonical_action canonical.2 read⟩)
    · rw [step_graph]
      refine canonical_ofList (canonicalFields_append.mpr ⟨canonical_header carried,
        canonicalFields_append.mpr ⟨⟨trivial, ?_, trivial⟩,
          canonical_invocation canonical.2 called⟩⟩)
      exact canonical_bodyAmong fields canonical.2 found
  | .null, _, _, decoded | .bool _, _, _, decoded | .number _, _, _, decoded
  | .string _, _, _, decoded | .array _, _, _, decoded => by cases decoded

/-- A body that was decoded among canonical fields is stored as a canonical value. -/
theorem canonical_bodyAmong : ∀ (fields : List (String × Value)) {inner : Body Step},
    CanonicalFields fields → Decoding.bodyAmong? fields = some inner → (body inner).Canonical
  | [], _, _, decoded => by cases decoded
  | (key, value) :: rest, _, canonical, decoded => by
    rw [Decoding.bodyAmong?] at decoded
    split at decoded
    · exact canonical_body value canonical.1 decoded
    · exact canonical_bodyAmong rest canonical.2 decoded

/-- A body that was decoded from a canonical value is stored as one. -/
theorem canonical_body : ∀ (value : Value) {inner : Body Step}, value.Canonical →
    Decoding.body? value = some inner → (body inner).Canonical
  | .array items, _, canonical, decoded => by
    obtain ⟨steps, read, rfl⟩ := Option.map_eq_some_iff.mp decoded
    exact canonical_steps items canonical read
  | .string name, _, _, decoded => by
    obtain rfl := Option.some.inj decoded
    trivial
  | .null, _, _, decoded | .bool _, _, _, decoded | .number _, _, _, decoded
  | .object _, _, _, decoded => by cases decoded

/-- Steps that were decoded from canonical values are stored as such. -/
theorem canonical_steps : ∀ (items : List Value) {steps : List Step}, CanonicalItems items →
    Decoding.steps? items = some steps → CanonicalItems (Encoding.steps steps)
  | [], _, _, decoded => by
    obtain rfl := Option.some.inj decoded
    trivial
  | value :: rest, _, canonical, decoded => by
    obtain ⟨step, first, decoded⟩ := Option.bind_eq_some_iff.mp decoded
    obtain ⟨others, later, same⟩ := Option.bind_eq_some_iff.mp decoded
    obtain rfl := Option.some.inj same
    exact ⟨canonical_step value canonical.1 first, canonical_steps rest canonical.2 later⟩
end

end Encoding

/-! ## Documents -/

/-- A graph that is loaded was decoded from a list and has no clash of names. -/
theorem Graph.load_eq_ok {stored : Value} {graph : Graph} (loaded : Graph.load stored = .ok graph) :
    ∃ items, stored = .array items ∧ Decoding.steps? items = some graph ∧
      Graph.validate .document graph = .ok graph := by
  unfold Graph.load at loaded
  split at loaded
  · rename_i items
    split at loaded
    · cases loaded
    · split at loaded
      · cases loaded
      · rename_i steps decoded
        have valid := loaded
        rw [validate] at loaded
        split at loaded
        · cases loaded
        · obtain rfl := Except.ok.inj loaded
          exact ⟨items, rfl, decoded, valid⟩
  · cases loaded

/-- A graph that was loaded is loaded again from its stored form. -/
theorem Graph.load_encode {stored : Value} {graph : Graph}
    (loaded : Graph.load stored = .ok graph) : Graph.load graph.encode = .ok graph := by
  obtain ⟨items, -, decoded, valid⟩ := Graph.load_eq_ok loaded
  simp only [Graph.load, Graph.encode, TypeFault.among?_encode,
    Decoding.steps?_encode items decoded, valid]

namespace Document

/-- A document that is loaded has a graph that was loaded, and a version that is a word. -/
theorem load_eq_ok {value : Value} {document : Document} (loaded : load value = .ok document) :
    (∃ stored, Graph.load stored = .ok document.data ∧ (value.Canonical → stored.Canonical)) ∧
      ∀ version, document.version = some version → version < Number.wordCount := by
  unfold load at loaded
  split at loaded
  · rename_i items
    cases read : Graph.load (.array items) with
    | error cause =>
      rw [read] at loaded
      cases loaded
    | ok data =>
      rw [read] at loaded
      obtain rfl := Except.ok.inj loaded
      exact ⟨⟨_, read, id⟩, nofun⟩
  · rename_i fields
    split at loaded
    · cases loaded
    · rename_i stored found
      cases read : Graph.load stored with
      | error cause =>
        rw [read] at loaded
        cases loaded
      | ok data =>
        rw [read] at loaded
        obtain rfl := Except.ok.inj loaded
        refine ⟨⟨stored, read, fun canonical => canonical.2.of_find? found⟩, ?_⟩
        intro version given
        dsimp only at given
        split at given
        · rename_i held numbered
          unfold Number.position? at given
          split at given
          · split at given
            · rename_i fits
              obtain rfl := Option.some.inj given
              exact fits
            · cases given
          · cases given
        · cases given
  · cases loaded

/-- The fields of a stored document. -/
def storedFields (document : Document) : List (String × Value) :=
  Encoding.optional "namespace" (document.namespaceName.map .string) ++
    Encoding.optional "name" (document.name.map .string) ++
    Encoding.optional "version" (document.version.map fun version : Nat => .ofInt version) ++
    Encoding.optional "type" (document.type.map .string) ++
    [("data", document.data.encode)]

/-- A document is stored as the object of its fields. -/
theorem encode_eq (document : Document) :
    document.encode = .object (Dictionary.ofList document.storedFields) := by
  obtain ⟨space, name, version, type, data⟩ := document
  cases version <;> rfl

/-- A stored document is found to have the fields that are written. -/
theorem find?_storedFields (document : Document) (key : String) :
    Dictionary.find? (Dictionary.ofList document.storedFields) key =
      Dictionary.find? document.storedFields key := by
  have keys : (document.storedFields.map Prod.fst).Sublist
      ["namespace", "name", "version", "type", "data"] := by
    simp only [storedFields, List.map_append]
    exact ((((Encoding.keys_optional _ _).append (Encoding.keys_optional _ _)).append
      (Encoding.keys_optional _ _)).append (Encoding.keys_optional _ _)).append
      (List.Sublist.refl ["data"])
  exact Dictionary.find?_ofList (keys.nodup (by decide)) key

/-- A stored document with a graph that loads and a version that is a word is loaded as it is. -/
theorem load_storedFields {document : Document}
    (read : Graph.load document.data.encode = .ok document.data)
    (word : ∀ version, document.version = some version → version < Number.wordCount) :
    load document.encode = .ok document := by
  have found (key : String) (value : Option Value)
      (written : Dictionary.find? document.storedFields key = value) :
      Dictionary.find? (Dictionary.ofList document.storedFields) key = value :=
    (find?_storedFields document key).trans written
  have data := found "data" (some document.data.encode) (by
    simp [storedFields, Dictionary.find?])
  have space := Decoding.requiredText_of_find? (found "namespace"
    (document.namespaceName.map .string) (by
      simp [storedFields, Dictionary.find?]))
  have name := Decoding.requiredText_of_find? (found "name" (document.name.map .string) (by
    simp [storedFields, Dictionary.find?]))
  have type := Decoding.requiredText_of_find? (found "type" (document.type.map .string) (by
    simp [storedFields, Dictionary.find?]))
  have version := found "version" (document.version.map fun version : Nat => .ofInt version) (by
    simp [storedFields, Dictionary.find?])
  rw [encode_eq]
  simp only [load, data, read, space, name, type, version]
  obtain ⟨inSpace, named, stored, typed, graph⟩ := document
  cases stored with
  | none => rfl
  | some number =>
    exact congrArg (fun found => Except.ok (Document.mk inSpace named found typed graph))
      (if_pos (word number rfl))

/-- A stored document is canonical when its graph is stored as a canonical list and its version is
a word. -/
theorem canonical_encode {document : Document}
    (steps : Value.CanonicalItems (Encoding.steps document.data))
    (word : ∀ version, document.version = some version → version < Number.wordCount) :
    document.encode.Canonical := by
  rw [encode_eq]
  refine Value.canonical_ofList ?_
  simp only [storedFields, Value.canonicalFields_append]
  refine ⟨⟨⟨⟨Encoding.canonical_text _ _, Encoding.canonical_text _ _⟩, ?_⟩,
    Encoding.canonical_text _ _⟩, steps, trivial⟩
  refine Encoding.canonical_optional fun stored written => ?_
  obtain ⟨version, given, rfl⟩ := Option.map_eq_some_iff.mp written
  have bound := word version given
  show Number.fitsWord version = true
  simp only [Number.fitsWord, decide_eq_true_eq]
  omega

/-- A document that was loaded is stored in a form that loads again, as the same document with the
same stored form; and where the first form was canonical, so is this one. -/
theorem encode_reloads {value : Value} {document : Document} (loaded : load value = .ok document) :
    (∃ reloaded, load document.encode = .ok reloaded ∧ reloaded = document ∧
      reloaded.encode = document.encode) ∧
      (value.Canonical → document.encode.Canonical) := by
  obtain ⟨⟨stored, read, kept⟩, word⟩ := load_eq_ok loaded
  refine ⟨⟨document, load_storedFields (Graph.load_encode read) word, rfl, rfl⟩, ?_⟩
  intro canonical
  obtain ⟨items, rfl, decoded, -⟩ := Graph.load_eq_ok read
  exact canonical_encode (Encoding.canonical_steps items (kept canonical) decoded) word

/-- A document written in another way than it is stored: a mode as the key of an entry, a remark
that is null, a literal that is left out. -/
def loose : Value :=
  .object [("data", .array [.object [("collectionMode", .object [("map", .null)]),
      ("comments", .null),
      ("graphDef", .array [.object [("name", .string "a"), ("type", .string "static")]]),
      ("inputs", .array []), ("name", .string "g"), ("type", .string "graph")]]),
    ("version", .ofInt 3)]

/-- The document that is loaded from it. -/
def tightened : Document where
  version := some 3
  data := [.graph ⟨"g", false, none⟩ { inputs := some (.array []), collectionMode := some .map }
    (.inline [.action ⟨"a", false, none⟩ (.static .null)])]

/-- The document is stored in another form than it was written, which loads as the same. -/
theorem loose_reloads :
    load loose = .ok tightened ∧ tightened.encode ≠ loose ∧
      (∃ reloaded, load tightened.encode = .ok reloaded ∧ reloaded = tightened ∧
        reloaded.encode = tightened.encode) ∧
      tightened.encode.Canonical := by
  have loaded : load loose = .ok tightened := rfl
  have canonical : loose.Canonical := by
    simp only [loose, Value.ofInt, Value.Canonical, Value.CanonicalFields, Value.CanonicalItems,
      Dictionary.Sorted]
    decide +kernel
  obtain ⟨again, kept⟩ := encode_reloads loaded
  exact ⟨loaded, by decide +kernel, again, kept canonical⟩

end Document

end StepGraph
