import StepGraph.Evaluation.Activation

/-!
# Graphs inside graphs

The graphs that a run can meet are the graph itself and the inline bodies inside it; together with
the texts that it can look up there they are its scope. A valid graph includes only valid graphs, in
each of which a text refers to at most one step; and no graph inside is larger than the whole, by
the measures that bound a run.
-/
namespace StepGraph

/-- Whether a body may read from the context of its step. -/
def Mode.isNamespaced : Mode → Bool
  | .namespaced _ => true
  | _ => false

/-- Whether the body of the step may read from its context. -/
def Step.isNamespaced (step : Step) : Bool := step.mode?.any Mode.isNamespaced

/-- A step answers to its name. -/
theorem Step.name_mem_keys (step : Step) : step.name ∈ step.keys := List.mem_cons_self

/-- A step answers to the key that it publishes under. -/
theorem Step.publishKey_mem_keys (step : Step) : step.publishKey ∈ step.keys :=
  List.mem_cons_of_mem _ List.mem_cons_self

/-- A text refers to a step that does something when it is one of the keys. -/
theorem Step.answersTo_iff {step : Step} {text : String} :
    step.answersTo text = true ↔ step.isComment = false ∧ text ∈ step.keys := by
  simp only [answersTo, keys, Bool.and_eq_true, Bool.not_eq_eq_eq_not, Bool.not_true,
    Bool.or_eq_true, beq_iff_eq, List.mem_cons, List.not_mem_nil, or_false, @eq_comm _ text]

/-- The texts that a step looks up: its paths, and the name of the template that it is about. -/
def Step.lookups (step : Step) : List String :=
  match step with
  | .graph _ _ (.template name) => name :: step.paths
  | _ => step.paths

/-- A step looks up its paths. -/
theorem Step.mem_lookups_of_path {step : Step} {path : String} (member : path ∈ step.paths) :
    path ∈ step.lookups := by
  unfold lookups
  split
  · exact List.mem_cons_of_mem _ member
  · exact member

namespace Graph

/-- A graph that stands somewhere in another: the graph itself, or the inline body of a step. -/
inductive Includes (root : Graph) : Graph → Prop where
  /-- The graph itself. -/
  | self : Includes root root
  /-- The inline body of a step. -/
  | body {graph steps : Graph} {header : Header} {invocation : Invocation}
      (around : Includes root graph)
      (member : .graph header invocation (.inline steps) ∈ graph) : Includes root steps

/-- What is inside a graph that is inside another is inside that other. -/
theorem Includes.trans {root graph inner : Graph} (outside : root.Includes graph)
    (inside : graph.Includes inner) : root.Includes inner := by
  induction inside with
  | self => exact outside
  | body _ member ih => exact .body ih member

/-- Something holds of every step, in the graph itself and in those inside it. -/
def Everywhere (holds : Step → Prop) (root : Graph) : Prop :=
  ∀ graph, root.Includes graph → ∀ step ∈ graph, holds step

/-- What holds everywhere holds everywhere inside. -/
theorem Everywhere.of_includes {holds : Step → Prop} {root graph : Graph}
    (everywhere : Everywhere holds root) (inside : root.Includes graph) :
    Everywhere holds graph :=
  fun inner deeper => everywhere inner (inside.trans deeper)

end Graph

/-- What a run can come across: graphs to be run, and texts to be looked up there as paths or as the
names of templates. -/
structure Scope where
  /-- The graphs that may be run. -/
  known : Graph → Prop
  /-- The texts that may be looked up. -/
  met : String → Prop
  /-- The inline bodies of known graphs are known. -/
  body : ∀ {graph steps : Graph} {header invocation}, known graph →
    .graph header invocation (.inline steps) ∈ graph → known steps
  /-- What the steps of known graphs look up is met. -/
  lookups : ∀ {graph : Graph} {step text}, known graph → step ∈ graph → text ∈ step.lookups →
    met text
  /-- The name that a path starts from is met. -/
  head : ∀ {path}, met path → met (Path.head path)
  /-- What is left of a path inside the inputs is met. -/
  rest : ∀ {path rest}, met path → insideInputs? path = some rest → met rest

namespace Scope

/-- The graphs inside a graph, and all texts. -/
def inside (root : Graph) : Scope where
  known := root.Includes
  met := fun _ => True
  body := Graph.Includes.body
  lookups := fun _ _ _ => trivial
  head := fun _ => trivial
  rest := fun _ _ => trivial

/-- All graphs and all texts. -/
def whole : Scope where
  known := fun _ => True
  met := fun _ => True
  body := fun _ _ => trivial
  lookups := fun _ _ _ => trivial
  head := fun _ => trivial
  rest := fun _ _ => trivial

end Scope

namespace Graph

/-- A graph without a clash of names, in itself and in every inline body. -/
def IsValid (graph : Graph) : Prop := clash? graph = none

instance (graph : Graph) : Decidable graph.IsValid :=
  inferInstanceAs (Decidable (clash? graph = none))

/-- The search for clashes that visits a step finds none in its body either. -/
theorem clashInside?_eq_none {seen : List String} {index : Nat} {graph : Graph}
    (clear : clashAmong? seen index graph = none) {step : Step} (member : step ∈ graph)
    (acts : step.isComment = false) : clashInside? step = none := by
  induction graph generalizing seen index with
  | nil => cases member
  | cons first rest ih =>
    unfold clashAmong? at clear
    split at clear
    · rename_i comment
      rcases List.mem_cons.mp member with rfl | later
      · rw [acts] at comment
        cases comment
      · exact ih clear later
    · split at clear
      · cases clear
      · split at clear
        · cases clear
        · rename_i inside
          rcases List.mem_cons.mp member with rfl | later
          · exact inside
          · exact ih clear later

/-- A search that finds no clash finds none with the texts seen before. -/
theorem not_mem_seen_of_clashAmong? {seen : List String} {index : Nat} {graph : Graph}
    (clear : clashAmong? seen index graph = none) {step : Step} (member : step ∈ graph)
    (acts : step.isComment = false) {key : String} (key_mem : key ∈ step.keys) : key ∉ seen := by
  induction graph generalizing seen index with
  | nil => cases member
  | cons first rest ih =>
    unfold clashAmong? at clear
    split at clear
    · rename_i comment
      rcases List.mem_cons.mp member with rfl | later
      · rw [acts] at comment
        cases comment
      · exact ih clear later
    · split at clear
      · cases clear
      · rename_i unseen
        split at clear
        · cases clear
        · rcases List.mem_cons.mp member with rfl | later
          · have apart := List.find?_eq_none.mp unseen key key_mem
            simpa using apart
          · exact fun old => ih clear later (List.mem_append_right _ old)

/-- Two steps that do something answer to different texts. -/
def Apart (left right : Step) : Prop :=
  left.isComment = false → right.isComment = false → ∀ key ∈ left.keys, key ∉ right.keys

/-- Where no clash is found, the steps are pairwise apart. -/
theorem pairwise_apart_of_clashAmong? {seen : List String} {index : Nat} {graph : Graph}
    (clear : clashAmong? seen index graph = none) : graph.Pairwise Apart := by
  induction graph generalizing seen index with
  | nil => exact List.Pairwise.nil
  | cons first rest ih =>
    unfold clashAmong? at clear
    split at clear
    · rename_i comment
      refine List.pairwise_cons.mpr ⟨fun other _ acts => ?_, ih clear⟩
      rw [acts] at comment
      cases comment
    · split at clear
      · cases clear
      · split at clear
        · cases clear
        · refine List.pairwise_cons.mpr ⟨fun other member _ acts key key_mem clash => ?_, ih clear⟩
          exact not_mem_seen_of_clashAmong? clear member acts clash
            (List.mem_append_left _ key_mem)

/-- The body of a step of a valid graph is valid. -/
theorem IsValid.body {graph steps : Graph} (valid : graph.IsValid) {header : Header}
    {invocation : Invocation} (member : .graph header invocation (.inline steps) ∈ graph) :
    IsValid steps := by
  have inside := clashInside?_eq_none valid member rfl
  rwa [clashInside?] at inside

/-- All graphs in a valid graph are valid. -/
theorem IsValid.of_includes {root graph : Graph} (valid : root.IsValid)
    (inside : root.Includes graph) : graph.IsValid := by
  induction inside with
  | self => exact valid
  | body around member ih => exact ih.body member

/-- A text refers to at most one step of a valid graph. -/
theorem IsValid.eq_of_key {graph : Graph} (valid : graph.IsValid) {left right : Step}
    (left_mem : left ∈ graph) (right_mem : right ∈ graph) (left_acts : left.isComment = false)
    (right_acts : right.isComment = false) {key : String} (left_key : key ∈ left.keys)
    (right_key : key ∈ right.keys) : left = right := by
  have either : graph.Pairwise fun one other => one = other ∨ Apart one other :=
    (pairwise_apart_of_clashAmong? valid).imp fun apart => .inr apart
  have flipped : graph.Pairwise (flip fun one other => one = other ∨ Apart one other) :=
    (pairwise_apart_of_clashAmong? valid).imp fun apart =>
      .inr fun acts acts' text mem mem' => apart acts' acts text mem' mem
  rcases either.forall_of_forall_of_flip (fun _ _ => .inl rfl) flipped left_mem right_mem with
    same | apart
  · exact same
  · exact absurd right_key (apart left_acts right_acts key left_key)

/-- In a valid graph two steps that do something have different names. -/
theorem IsValid.name_ne {graph : Graph} (valid : graph.IsValid) {step other : Step}
    (member : step ∈ graph) (acts : step.isComment = false) (other_mem : other ∈ graph)
    (other_acts : other.isComment = false) (different : other ≠ step) : other.name ≠ step.name :=
  fun same => different <| valid.eq_of_key other_mem member other_acts acts other.name_mem_keys
    (same ▸ step.name_mem_keys)

/-- In a valid graph two steps that do something publish under different keys. -/
theorem IsValid.publishKey_ne {graph : Graph} (valid : graph.IsValid) {step other : Step}
    (member : step ∈ graph) (acts : step.isComment = false) (other_mem : other ∈ graph)
    (other_acts : other.isComment = false) (different : other ≠ step) :
    other.publishKey ≠ step.publishKey :=
  fun same => different <| valid.eq_of_key other_mem member other_acts acts
    other.publishKey_mem_keys (same ▸ step.publishKey_mem_keys)

/-- The step that a text refers to does something, stands in the graph and has the text as a
key. -/
theorem findStep?_eq_some {graph : Graph} {name : String} {step : Step}
    (found : findStep? graph name = some step) :
    step ∈ graph ∧ step.isComment = false ∧ name ∈ step.keys := by
  have answers := List.find?_some found
  exact ⟨List.mem_of_find?_eq_some found, Step.answersTo_iff.mp answers⟩

/-- In a valid graph a key of a step refers to that step. -/
theorem IsValid.findStep? {graph : Graph} (valid : graph.IsValid) {step : Step}
    (member : step ∈ graph) (acts : step.isComment = false) {key : String}
    (key_mem : key ∈ step.keys) : findStep? graph key = some step := by
  have answers : step.answersTo key = true := Step.answersTo_iff.mpr ⟨acts, key_mem⟩
  have found : (Graph.findStep? graph key).isSome := List.find?_isSome.mpr ⟨step, member, answers⟩
  obtain ⟨other, same⟩ := Option.isSome_iff_exists.mp found
  obtain ⟨other_mem, other_acts, other_key⟩ := findStep?_eq_some same
  rw [same, valid.eq_of_key other_mem member other_acts acts other_key key_mem]

/-- A text refers to related steps in valid graphs whose steps have related partners in each other
that answer to the same texts. -/
theorem IsValid.findStep?_rel {left right : Graph} (valid : left.IsValid) (valid' : right.IsValid)
    {relation : Step → Step → Prop}
    (keys : ∀ {step step'}, relation step step' → step'.keys = step.keys)
    (forth : ∀ step ∈ left, step.isComment = false →
      ∃ step' ∈ right, step'.isComment = false ∧ relation step step')
    (back : ∀ step' ∈ right, step'.isComment = false →
      ∃ step ∈ left, step.isComment = false ∧ relation step step') (text : String) :
    Option.Rel relation (Graph.findStep? left text) (Graph.findStep? right text) := by
  cases found : Graph.findStep? left text with
  | some step =>
    -- The partner has the same keys, and in a valid graph no other step has one of them.
    obtain ⟨member, acts, key⟩ := Graph.findStep?_eq_some found
    obtain ⟨step', member', acts', related⟩ := forth step member acts
    rw [valid'.findStep? member' acts' (keys related ▸ key)]
    exact .some related
  | none =>
    cases found' : Graph.findStep? right text with
    | none => exact .none
    | some step' =>
      obtain ⟨member', acts', key'⟩ := Graph.findStep?_eq_some found'
      obtain ⟨step, member, acts, related⟩ := back step' member' acts'
      rw [valid.findStep? member acts (keys related ▸ key')] at found
      cases found

/-- Hoisting keeps the steps. -/
theorem mem_hoisted {graph : Graph} {step : Step} :
    step ∈ Graph.hoisted graph ↔ step ∈ graph := by
  cases defines : step.definesTemplate <;> simp [Graph.hoisted, Graph.hoistBy, defines]

end Graph

namespace Step

/-- A step is no larger than the list it stands in. -/
theorem size_le_sizeOfAll {graph : Graph} {step : Step} (member : step ∈ graph) :
    step.size ≤ sizeOfAll graph := by
  induction graph with
  | nil => cases member
  | cons first rest ih =>
    rw [sizeOfAll]
    rcases List.mem_cons.mp member with rfl | later
    · exact Nat.le_add_right _ _
    · exact Nat.le_trans (ih later) (Nat.le_add_left _ _)

/-- Every step counts. -/
theorem size_pos (step : Step) : 0 < step.size := by
  unfold size
  split <;> exact Nat.succ_pos _

/-- A list has no more steps than are counted in it. -/
theorem length_le_sizeOfAll (graph : Graph) : graph.length ≤ sizeOfAll graph := by
  induction graph with
  | nil => exact Nat.zero_le _
  | cons first rest ih =>
    rw [sizeOfAll, List.length_cons]
    have counts := size_pos first
    omega

/-- A graph inside another is no larger. -/
theorem sizeOfAll_le_of_includes {root graph : Graph} (inside : root.Includes graph) :
    sizeOfAll graph ≤ sizeOfAll root := by
  induction inside with
  | self => exact Nat.le_refl _
  | body around member ih =>
    have smaller := size_le_sizeOfAll member
    rw [size] at smaller
    omega

/-- The paths of a step are no longer than the longest in its list. -/
theorem longestPath_le_longestPathOfAll {graph : Graph} {step : Step} (member : step ∈ graph) :
    step.longestPath ≤ longestPathOfAll graph := by
  induction graph with
  | nil => cases member
  | cons first rest ih =>
    rw [longestPathOfAll]
    rcases List.mem_cons.mp member with rfl | later
    · exact Nat.le_max_left _ _
    · exact Nat.le_trans (ih later) (Nat.le_max_right _ _)

/-- A graph inside another has no longer path. -/
theorem longestPathOfAll_le_of_includes {root graph : Graph} (inside : root.Includes graph) :
    longestPathOfAll graph ≤ longestPathOfAll root := by
  induction inside with
  | self => exact Nat.le_refl _
  | body around member ih =>
    have shorter := longestPath_le_longestPathOfAll member
    rw [longestPath] at shorter
    exact Nat.le_trans (Nat.le_trans (Nat.le_max_right _ _) shorter) ih

/-- No text is longer than the longest. -/
theorem length_le_longest {texts : List String} {text : String} (member : text ∈ texts) :
    text.length ≤ longest texts := by
  induction texts with
  | nil => cases member
  | cons first rest ih =>
    rw [longest, List.map_cons, List.foldr_cons]
    rcases List.mem_cons.mp member with rfl | later
    · exact Nat.le_max_left _ _
    · exact Nat.le_trans (ih later) (Nat.le_max_right _ _)

/-- No path of a step is longer than its longest. -/
theorem length_le_longestPath {step : Step} {path : String} (member : path ∈ step.paths) :
    path.length ≤ step.longestPath := by
  have shorter := length_le_longest member
  unfold longestPath
  split
  · exact Nat.le_trans shorter (Nat.le_max_left _ _)
  · exact shorter
  · exact shorter

/-- No path of a step inside a graph is longer than the longest of the graph. -/
theorem length_le_of_includes {root graph : Graph} (inside : root.Includes graph) {step : Step}
    (member : step ∈ graph) {path : String} (path_mem : path ∈ step.paths) :
    path.length ≤ longestPathOfAll root :=
  Nat.le_trans (length_le_longestPath path_mem) <|
    Nat.le_trans (longestPath_le_longestPathOfAll member) (longestPathOfAll_le_of_includes inside)

end Step

namespace Graph

section Checking

variable (holds : Step → Bool)

mutual
/-- Whether something holds of a step and of all steps in its inline body. -/
def everywhereInside : Step → Bool
  | .graph header invocation (.inline steps) =>
    holds (.graph header invocation (.inline steps)) && everywhereAmong steps
  | .graph header invocation (.template name) =>
    holds (.graph header invocation (.template name))
  | .action header work => holds (.action header work)

/-- Whether something holds of all steps in a list and in the inline bodies inside it. -/
def everywhereAmong : List Step → Bool
  | [] => true
  | step :: rest => everywhereInside step && everywhereAmong rest
end

/-- What is checked of a list is checked of its members. -/
theorem everywhereAmong_iff {graph : Graph} :
    everywhereAmong holds graph = true ↔ ∀ step ∈ graph, everywhereInside holds step = true := by
  induction graph with
  | nil => simp [everywhereAmong]
  | cons step rest ih => simp [everywhereAmong, ih]

/-- What is checked of a step holds of it. -/
theorem holds_of_everywhereInside {step : Step}
    (checked : everywhereInside holds step = true) : holds step = true := by
  cases step with
  | action header work => exact checked
  | graph header invocation body =>
    cases body with
    | «template» name => exact checked
    | inline steps =>
      rw [everywhereInside, Bool.and_eq_true] at checked
      exact checked.1

/-- The check covers every graph inside. -/
theorem everywhereAmong_of_includes {root graph : Graph}
    (checked : everywhereAmong holds root = true) (inside : root.Includes graph) :
    everywhereAmong holds graph = true := by
  induction inside with
  | self => exact checked
  | body around member ih =>
    have step := (everywhereAmong_iff holds).mp ih _ member
    rw [everywhereInside, Bool.and_eq_true] at step
    exact step.2

/-- The check passes when what is checked holds everywhere. -/
theorem everywhereAmong_of_everywhere {graph : Graph}
    (everywhere : Everywhere (fun step => holds step = true) graph) :
    everywhereAmong holds graph = true := by
  refine (everywhereAmong_iff holds).mpr fun step member => ?_
  have here := everywhere graph .self step member
  match step, member, here with
  | .action header work, _, here => exact here
  | .graph header invocation (.template name), _, here => exact here
  | .graph header invocation (.inline steps), member, here =>
    have smaller := Step.size_le_sizeOfAll member
    rw [Step.size] at smaller
    rw [everywhereInside, here, Bool.true_and]
    exact everywhereAmong_of_everywhere (everywhere.of_includes (.body .self member))
termination_by Step.sizeOfAll graph

end Checking

/-- Whether something decidable holds everywhere can be decided. -/
instance (holds : Step → Prop) [DecidablePred holds] (root : Graph) :
    Decidable (Everywhere holds root) :=
  decidable_of_iff (everywhereAmong (fun step => decide (holds step)) root = true)
    ⟨fun checked graph inside step member => by
      have among := everywhereAmong_of_includes _ checked inside
      have here := holds_of_everywhereInside _ ((everywhereAmong_iff _).mp among step member)
      exact of_decide_eq_true here,
    fun everywhere => everywhereAmong_of_everywhere _ fun graph inside step member =>
      decide_eq_true (everywhere graph inside step member)⟩

end Graph

end StepGraph
