import Mathlib.Data.List.Lex
import StepGraph.Proofs.Graph.Nesting

/-!
# Distinct names in graphs

A text refers to the steps of a list that it is the name or the publish key of, comments apart. The
check of a graph walks through its steps, an earlier one with its whole body before a later one,
with the texts of the steps that it has passed, and stops where a step answers to one of them. It is
exact: a graph is accepted if in every list, down to the innermost body, no two steps share a text,
and is refused for the first step, in the order of the walk, that shares one with an earlier step of
its list. A place is a trail of indexes, and the order of the walk is the lexicographic order of
trails.

In an accepted graph a text therefore refers to one step at most, which is found wherever it stands
in its list.
-/
namespace StepGraph.Graph

/-- A text refers to a step of a list. -/
def Taken (graph : Graph) (text : String) : Prop := ∃ step ∈ graph, step.answersTo text = true

/-- The text that a step shares with earlier ones: its name, or else the key that it publishes
under. -/
inductive Repeats (earlier : Graph) (step : Step) : String → Prop where
  /-- The name is taken. -/
  | name (taken : Taken earlier step.name) : Repeats earlier step step.name
  /-- Only the key that it publishes under is taken. -/
  | publishKey (free : ¬ Taken earlier step.name) (taken : Taken earlier step.publishKey) :
    Repeats earlier step step.publishKey

/-- A step that does something, at a trail, shares a text with earlier ones of its list. -/
inductive ClashAt : Graph → List Nat → String → Prop where
  /-- The step stands in the list itself. -/
  | here {graph : Graph} {index : Nat} {step : Step} {text : String}
      (there : graph[index]? = some step) (acts : step.isComment = false)
      (repeated : Repeats (graph.take index) step text) : ClashAt graph [index] text
  /-- The step stands in the inline body of a step. -/
  | inside {graph : Graph} {index : Nat} {header : Header} {invocation : Invocation}
      {steps : List Step} {trail : List Nat} {text : String}
      (there : graph[index]? = some (.graph header invocation (.inline steps)))
      (within : ClashAt steps trail text) : ClashAt graph (index :: trail) text

/-- A place comes before another: it stands around it, or in front where the two part. -/
abbrev Precedes : List Nat → List Nat → Prop := List.Lex (· < ·)

/-- A clash in front of which there is none. -/
structure IsFirstClash (graph : Graph) (trail : List Nat) (text : String) : Prop where
  /-- There is a clash. -/
  clash : ClashAt graph trail text
  /-- No clash comes before it. -/
  first : ∀ trail' text', ClashAt graph trail' text' → ¬ Precedes trail' trail

/-- What a search for the first clash finds. -/
def Finds (graph : Graph) : Option (List Nat × String) → Prop
  | none => ∀ trail text, ¬ ClashAt graph trail text
  | some (trail, text) => IsFirstClash graph trail text

/-- What a search for the first clash finds in the inline body of a step. -/
def FindsInside (step : Step) : Option (List Nat × String) → Prop
  | none => ∀ header invocation steps, step = .graph header invocation (.inline steps) →
      ∀ trail text, ¬ ClashAt steps trail text
  | some (trail, text) => ∃ header invocation steps,
      step = .graph header invocation (.inline steps) ∧ IsFirstClash steps trail text

/-- No step in front of an index, nor in its body, is at the place of a clash. -/
def ClearBefore (graph : Graph) (bound : Nat) : Prop :=
  ∀ index trail text, ClashAt graph (index :: trail) text → bound ≤ index

/-! ## Texts that are taken -/

/-- A text is taken among two lists when it is in one of them. -/
theorem taken_append {earlier later : Graph} {text : String} :
    Taken (earlier ++ later) text ↔ Taken earlier text ∨ Taken later text := by
  simp only [Taken, List.mem_append, or_and_right, exists_or]

/-- A comment takes no text. -/
theorem not_taken_comment {step : Step} (comment : step.isComment = true) (text : String) :
    ¬ Taken [step] text := by
  rintro ⟨other, member, answers⟩
  obtain rfl := List.mem_singleton.mp member
  rw [(Step.answersTo_iff.mp answers).1] at comment
  cases comment

/-- A step that does something takes its keys. -/
theorem taken_singleton {step : Step} (acts : step.isComment = false) {text : String} :
    Taken [step] text ↔ text ∈ step.keys := by
  simp [Taken, Step.answersTo_iff, acts]

/-- A step shares one text at most with earlier ones. -/
theorem Repeats.unique {earlier : Graph} {step : Step} {text other : String}
    (repeated : Repeats earlier step text) (again : Repeats earlier step other) : text = other := by
  cases repeated with
  | name taken =>
    cases again with
    | name => rfl
    | publishKey free => exact absurd taken free
  | publishKey free =>
    cases again with
    | name taken => exact absurd taken free
    | publishKey => rfl

/-- A text that a step shares with earlier ones is one of its keys and taken. -/
theorem Repeats.taken {earlier : Graph} {step : Step} {text : String}
    (repeated : Repeats earlier step text) : text ∈ step.keys ∧ Taken earlier text := by
  cases repeated with
  | name taken => exact ⟨step.name_mem_keys, taken⟩
  | publishKey _ taken => exact ⟨step.publishKey_mem_keys, taken⟩

/-- The first key of a step that has been seen is the text that it shares. -/
theorem repeats_of_find? {earlier : Graph} {seen : List String}
    (same : ∀ text, text ∈ seen ↔ Taken earlier text) {step : Step} {text : String}
    (found : (step.keys.find? fun key => seen.contains key) = some text) :
    Repeats earlier step text := by
  have known (key : String) : seen.contains key = true ↔ Taken earlier key :=
    List.contains_iff_mem.trans (same key)
  rw [Step.keys, List.find?_cons] at found
  split at found
  · rename_i named
    cases found
    exact .name ((known _).mp named)
  · rename_i unnamed
    have free : ¬ Taken earlier step.name := fun taken => by
      rw [(known _).mpr taken] at unnamed
      cases unnamed
    rw [List.find?_singleton] at found
    split at found
    · rename_i published
      cases found
      exact .publishKey free ((known _).mp published)
    · cases found

/-- A step none of whose keys has been seen shares no text. -/
theorem not_repeats_of_find? {earlier : Graph} {seen : List String}
    (same : ∀ text, text ∈ seen ↔ Taken earlier text) {step : Step}
    (unseen : (step.keys.find? fun key => seen.contains key) = none) (text : String) :
    ¬ Repeats earlier step text := by
  intro repeated
  obtain ⟨member, taken⟩ := repeated.taken
  have known := List.contains_iff_mem.mpr ((same text).mpr taken)
  exact List.find?_eq_none.mp unseen text member known

/-! ## Walking through a graph -/

/-- The first index of a place decides, unless it is the same. -/
theorem precedes_cons {index other : Nat} {trail trail' : List Nat}
    (before : Precedes (index :: trail) (other :: trail')) :
    index < other ∨ index = other ∧ Precedes trail trail' := by
  cases before with
  | rel less => exact .inl less
  | cons further => exact .inr ⟨rfl, further⟩

/-- The place of a clash begins with the index of a step of the list. -/
theorem ClashAt.exists_index {graph : Graph} {trail : List Nat} {text : String}
    (clash : ClashAt graph trail text) :
    ∃ index others, trail = index :: others ∧ index < graph.length := by
  cases clash with
  | here there => exact ⟨_, _, rfl, (List.getElem?_eq_some_iff.mp there).choose⟩
  | inside there => exact ⟨_, _, rfl, (List.getElem?_eq_some_iff.mp there).choose⟩

/-- A clash at an index, or in the body of the step that stands there, is one of these. -/
theorem ClashAt.cases_index {graph : Graph} {index : Nat} {trail : List Nat} {text : String}
    (clash : ClashAt graph (index :: trail) text) {step : Step}
    (there : graph[index]? = some step) :
    (trail = [] ∧ step.isComment = false ∧ Repeats (graph.take index) step text) ∨
      ∃ header invocation steps, step = .graph header invocation (.inline steps) ∧
        ClashAt steps trail text := by
  cases clash with
  | here there' acts repeated =>
    obtain rfl := Option.some.inj (there.symm.trans there')
    exact .inl ⟨rfl, acts, repeated⟩
  | inside there' within =>
    obtain rfl := Option.some.inj (there.symm.trans there')
    exact .inr ⟨_, _, _, rfl, within⟩

/-- There is no clash at a comment. -/
theorem not_clashAt_comment {graph : Graph} {index : Nat} {step : Step}
    (there : graph[index]? = some step) (comment : step.isComment = true) (trail : List Nat)
    (text : String) : ¬ ClashAt graph (index :: trail) text := by
  intro clash
  rcases clash.cases_index there with ⟨-, acts, -⟩ | ⟨_, _, _, rfl, -⟩
  · rw [acts] at comment
    cases comment
  · cases comment

/-- There is one text at most at the place of a clash. -/
theorem ClashAt.unique {graph : Graph} {trail : List Nat} {text other : String}
    (clash : ClashAt graph trail text) (again : ClashAt graph trail other) : text = other := by
  induction clash with
  | here there acts repeated =>
    rcases again.cases_index there with ⟨-, -, repeated'⟩ | ⟨_, _, _, -, within⟩
    · exact repeated.unique repeated'
    · cases within
  | inside there within ih =>
    rcases again.cases_index there with ⟨rfl, -, -⟩ | ⟨_, _, _, same, within'⟩
    · cases within
    · cases same
      exact ih within'

/-- There is one first clash at most. -/
theorem IsFirstClash.unique {graph : Graph} {trail trail' : List Nat} {text text' : String}
    (first : IsFirstClash graph trail text) (other : IsFirstClash graph trail' text') :
    trail = trail' ∧ text = text' := by
  have same : trail = trail' :=
    Std.Trichotomous.trichotomous trail trail' (other.first trail text first.clash)
      (first.first trail' text' other.clash)
  subst same
  exact ⟨rfl, first.clash.unique other.clash⟩

namespace ClearBefore

variable {graph : Graph} {index : Nat} (clear : ClearBefore graph index)

include clear

/-- A step at the index that has no clash, nor its body, is passed. -/
theorem pass (free : ∀ trail text, ¬ ClashAt graph (index :: trail) text) :
    ClearBefore graph (index + 1) := by
  intro position trail text clash
  refine Nat.lt_of_le_of_ne (clear position trail text clash) ?_
  rintro rfl
  exact free trail text clash

/-- A clash of the step at the index is the first one. -/
theorem first_here {text : String} (clash : ClashAt graph [index] text) :
    IsFirstClash graph [index] text := by
  refine ⟨clash, fun trail text' other before => ?_⟩
  obtain ⟨position, others, rfl, -⟩ := other.exists_index
  rcases precedes_cons before with less | ⟨-, further⟩
  · exact absurd (clear _ _ _ other) (Nat.not_le.mpr less)
  · cases further

/-- The first clash in the body of the step at the index is the first one, if the step itself has
none. -/
theorem first_inside {header : Header} {invocation : Invocation} {steps : List Step}
    (there : graph[index]? = some (.graph header invocation (.inline steps)))
    (free : ∀ text, ¬ ClashAt graph [index] text) {trail : List Nat} {text : String}
    (first : IsFirstClash steps trail text) : IsFirstClash graph (index :: trail) text := by
  refine ⟨.inside there first.clash, fun trail' text' other before => ?_⟩
  obtain ⟨position, others, rfl, -⟩ := other.exists_index
  rcases precedes_cons before with less | ⟨rfl, further⟩
  · exact absurd (clear _ _ _ other) (Nat.not_le.mpr less)
  · rcases other.cases_index there with ⟨rfl, -, -⟩ | ⟨_, _, _, same, within⟩
    · exact free text' other
    · cases same
      exact first.first others text' within further

end ClearBefore

/-- Steps that have been passed take the texts that have been seen. -/
theorem mem_seen_append {before : Graph} {seen : List String}
    (same : ∀ text, text ∈ seen ↔ Taken before text) {step : Step} (acts : step.isComment = false)
    (text : String) : text ∈ step.keys ++ seen ↔ Taken (before ++ [step]) text := by
  rw [List.mem_append, same, taken_append, taken_singleton acts, or_comm]

mutual
/-- The search in the rest of a list, past steps without a clash, finds the first clash of the
list. -/
theorem finds_clashAmong? : ∀ (rest before : List Step) (seen : List String),
    (∀ text, text ∈ seen ↔ Taken before text) → ClearBefore (before ++ rest) before.length →
      Finds (before ++ rest) (clashAmong? seen before.length rest)
  | [], before, seen, _, clear => by
    intro trail text clash
    obtain ⟨index, others, rfl, inside⟩ := clash.exists_index
    rw [List.append_nil] at inside
    exact absurd (clear index others text clash) (Nat.not_le.mpr inside)
  | step :: rest, before, seen, same, clear => by
    have there : (before ++ step :: rest)[before.length]? = some step := by simp
    have front : (before ++ step :: rest).take before.length = before := by simp
    have shift : before ++ step :: rest = (before ++ [step]) ++ rest := List.append_cons ..
    have length : (before ++ [step]).length = before.length + 1 := by simp
    rw [clashAmong?]
    split
    · -- A comment has no clash, and the texts that are taken stay the same.
      rename_i comment
      have seen_same (text : String) : text ∈ seen ↔ Taken (before ++ [step]) text := by
        rw [same, taken_append, or_iff_left (not_taken_comment comment text)]
      have further := finds_clashAmong? rest (before ++ [step]) seen seen_same
        (by rw [← shift, length]; exact clear.pass (not_clashAt_comment there comment))
      rwa [← shift, length] at further
    · -- The step itself comes first, then its body, then the rest with the keys of the step.
      rename_i ordinary
      have acts : step.isComment = false := by simpa using ordinary
      split
      · rename_i key found
        have repeated := repeats_of_find? same found
        exact clear.first_here (.here there acts (front.symm ▸ repeated))
      · rename_i unseen
        have free (text : String) : ¬ ClashAt (before ++ step :: rest) [before.length] text := by
          intro clash
          rcases clash.cases_index there with ⟨-, -, repeated⟩ | ⟨_, _, _, -, within⟩
          · rw [front] at repeated
            exact not_repeats_of_find? same unseen text repeated
          · cases within
        have inside := finds_clashInside? step
        split
        · rename_i trail key found
          rw [found] at inside
          obtain ⟨header, invocation, steps, rfl, first⟩ := inside
          exact clear.first_inside there free first
        · rename_i nothing
          rw [nothing] at inside
          have none_at (trail : List Nat) (text : String) :
              ¬ ClashAt (before ++ step :: rest) (before.length :: trail) text := by
            intro clash
            rcases clash.cases_index there with ⟨rfl, -, -⟩ | ⟨_, _, _, rfl, within⟩
            · exact free text clash
            · exact inside _ _ _ rfl trail text within
          have further := finds_clashAmong? rest (before ++ [step]) (step.keys ++ seen)
            (mem_seen_append same acts) (by rw [← shift, length]; exact clear.pass none_at)
          rwa [← shift, length] at further

/-- The search in the body of a step finds the first clash of the body. -/
theorem finds_clashInside? : ∀ step : Step, FindsInside step (clashInside? step)
  | .graph header invocation (.inline steps) => by
    have found := finds_clashAmong? steps [] [] (by simp [Taken]) (fun _ _ _ _ => Nat.zero_le _)
    rw [List.nil_append] at found
    change FindsInside _ (clashAmong? [] 0 steps)
    rw [List.length_nil] at found
    cases result : clashAmong? [] 0 steps with
    | none =>
      rw [result] at found
      rintro _ _ _ ⟨⟩
      exact found
    | some first =>
      rw [result] at found
      exact ⟨header, invocation, steps, rfl, found⟩
  | .graph _ _ (.template _) => nofun
  | .action _ _ => nofun
end

/-- The search finds the first clash of a graph. -/
theorem finds_clash? (graph : Graph) : Finds graph (clash? graph) := by
  have found := finds_clashAmong? graph [] [] (by simp [Taken]) fun _ _ _ _ => Nat.zero_le _
  rwa [List.nil_append] at found

/-! ## Graphs without a clash -/

/-- Where there is a clash, the steps of some list are not apart. -/
theorem ClashAt.not_apart {graph : Graph} {trail : List Nat} {text : String}
    (clash : ClashAt graph trail text) :
    ∃ inner, graph.Includes inner ∧ ¬ inner.Pairwise Apart := by
  induction clash with
  | @here graph index step text there acts repeated =>
    refine ⟨graph, .self, fun apart => ?_⟩
    obtain ⟨key, earlier, member, answers⟩ := repeated.taken
    obtain ⟨earlier_acts, earlier_key⟩ := Step.answersTo_iff.mp answers
    obtain ⟨bound, rfl⟩ := List.getElem?_eq_some_iff.mp there
    obtain ⟨position, less, rfl⟩ := List.mem_take_iff_getElem.mp member
    have before : position < index := Nat.lt_of_lt_of_le less (Nat.min_le_left _ _)
    exact List.pairwise_iff_getElem.mp apart position index _ bound before earlier_acts acts text
      earlier_key key
  | inside there _ ih =>
    obtain ⟨inner, deeper, together⟩ := ih
    have member := List.mem_of_getElem? there
    exact ⟨inner, (Includes.body .self member).trans deeper, together⟩

/-- A graph is valid if in every list inside it the steps are apart. -/
theorem isValid_iff_apart {graph : Graph} :
    graph.IsValid ↔ ∀ inner, graph.Includes inner → inner.Pairwise Apart := by
  constructor
  · exact fun valid inner inside => pairwise_apart_of_clashAmong? (valid.of_includes inside)
  · intro apart
    have found := finds_clash? graph
    cases result : clash? graph with
    | none => exact result
    | some first =>
      rw [result] at found
      obtain ⟨inner, inside, together⟩ := found.clash.not_apart
      exact absurd (apart inner inside) together

/-- A text refers to one step at most of a list whose steps are apart. -/
theorem length_filter_answersTo_le {graph : Graph} (apart : graph.Pairwise Apart)
    (text : String) : (graph.filter fun step => step.answersTo text).length ≤ 1 := by
  cases answering : graph.filter fun step => step.answersTo text with
  | nil => exact Nat.zero_le _
  | cons first others =>
    cases others with
    | nil => exact Nat.le_refl _
    | cons second rest =>
      have between := apart.filter fun step => step.answersTo text
      rw [answering] at between
      have answers (step : Step) (member : step ∈ first :: second :: rest) :
          step.isComment = false ∧ text ∈ step.keys := by
        rw [← answering] at member
        exact Step.answersTo_iff.mp (List.mem_filter.mp member).2
      obtain ⟨acts, key⟩ := answers first List.mem_cons_self
      obtain ⟨acts', key'⟩ := answers second (List.mem_cons_of_mem _ List.mem_cons_self)
      exact absurd key' (List.rel_of_pairwise_cons between List.mem_cons_self acts acts' text key)

/-- The step that a text refers to is found wherever it stands in a list whose steps are apart. -/
theorem findStep?_perm {graph other : Graph} (apart : graph.Pairwise Apart)
    (reordered : other.Perm graph) (text : String) :
    findStep? other text = findStep? graph text := by
  have answering := reordered.filter fun step => step.answersTo text
  have single := length_filter_answersTo_le apart text
  have same : (other.filter fun step => step.answersTo text) =
      graph.filter fun step => step.answersTo text := by
    rcases Nat.le_one_iff_eq_zero_or_eq_one.mp single with none | one
    · rw [List.length_eq_zero_iff.mp none] at answering ⊢
      exact answering.eq_nil
    · obtain ⟨step, only⟩ := List.length_eq_one_iff.mp one
      rw [only] at answering ⊢
      exact List.perm_singleton.mp answering
  rw [findStep?, findStep?, ← List.head?_filter, ← List.head?_filter, same]

/-- What the check of a graph answers. -/
theorem validate_eq (origin : Origin) (graph : Graph) :
    validate origin graph =
      ((clash? graph).elim (.ok graph) fun first =>
        .error (.duplicateStepName ⟨origin, first.1⟩ first.2)) := by
  rw [validate]
  cases clash? graph <;> rfl

end StepGraph.Graph

namespace StepGraph.Distinctness

open StepGraph.Graph

/-- The check accepts a graph exactly if in every list inside it no two steps share a text, and
refuses it otherwise, for the first clash. In an accepted graph a text refers to one step of a list
at most, and to the same one in whatever order the steps stand. -/
theorem validate_exact (origin : Origin) (graph : Graph) :
    (validate origin graph = .ok graph ↔
        ∀ inner, graph.Includes inner → inner.Pairwise Apart) ∧
      (∀ error, validate origin graph = .error error ↔
        ∃ trail text, error = .duplicateStepName ⟨origin, trail⟩ text ∧
          IsFirstClash graph trail text) ∧
      ∀ accepted, validate origin graph = .ok accepted →
        accepted = graph ∧ ∀ inner, graph.Includes inner → ∀ text,
          (inner.filter fun step => step.answersTo text).length ≤ 1 ∧
            ∀ other, other.Perm inner → findStep? other text = findStep? inner text := by
  have found := finds_clash? graph
  rw [validate_eq, ← isValid_iff_apart, IsValid]
  cases result : clash? graph with
  | none =>
    rw [result] at found
    refine ⟨by simp, fun error => ⟨nofun, ?_⟩, ?_⟩
    · rintro ⟨trail, text, -, first⟩
      exact absurd first.clash (found trail text)
    · rintro accepted ⟨⟩
      refine ⟨rfl, fun inner inside text => ?_⟩
      have apart := isValid_iff_apart.mp result inner inside
      exact ⟨length_filter_answersTo_le apart text,
        fun other reordered => findStep?_perm apart reordered text⟩
  | some first =>
    rw [result] at found
    refine ⟨by simp, fun error => ?_, nofun⟩
    constructor
    · rintro ⟨⟩
      exact ⟨_, _, rfl, found⟩
    · rintro ⟨trail, text, rfl, other⟩
      obtain ⟨same, same'⟩ := other.unique found
      rw [same, same', Option.elim]

/-- A step with a name and nothing else to tell it by. -/
def named (name : String) : Step := .action ⟨name, false, none⟩ (.static .null)

/-- A template. -/
def template (name : String) (body : List Step) : Step :=
  .graph ⟨name, false, none⟩ {} (.inline body)

/-- The clash in a body is the first one, in front of the clash of a step that follows. Without the
clashes the graph is accepted, and a step of the body is found from wherever it stands there. -/
theorem nested_exact :
    IsFirstClash [named "a", template "t" [named "a", named "a"], named "a"] [1, 1] "a" ∧
      ∀ other : Graph, other.Perm [named "a", named "b"] →
        findStep? other "b" = some (named "b") := by
  let clashing : Graph := [named "a", template "t" [named "a", named "a"], named "a"]
  let separate : Graph := [named "a", template "t" [named "a", named "b"]]
  have refused : validate .document clashing =
      .error (.duplicateStepName ⟨.document, [1, 1]⟩ "a") := by decide +kernel
  have accepted : validate .document separate = .ok separate := by decide +kernel
  have inside : separate.Includes [named "a", named "b"] :=
    .body .self (List.mem_cons_of_mem _ List.mem_cons_self)
  obtain ⟨trail, text, same, first⟩ := ((validate_exact .document clashing).2.1 _).mp refused
  cases same
  refine ⟨first, fun other reordered => ?_⟩
  exact (((validate_exact .document separate).2.2 _ accepted).2 _ inside "b").2 other reordered

/-- Steps of one name, the second of which does nothing. -/
def remarked : Graph := [named "a", .action ⟨"a", false, none⟩ .comment, named "a"]

/-- The first step that has the name of an earlier one is a comment, and the check passes over
it. -/
theorem remarked_refused :
    validate .document remarked = .error (.duplicateStepName ⟨.document, [2]⟩ "a") ∧
      (∃ step, remarked[1]? = some step ∧ Repeats (remarked.take 1) step "a") ∧
        Precedes [1] [2] :=
  ⟨by decide +kernel, ⟨_, rfl, .name ⟨_, List.mem_cons_self, by decide +kernel⟩⟩,
    .rel (by decide)⟩

end StepGraph.Distinctness
