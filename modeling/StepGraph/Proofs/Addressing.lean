import Mathlib.Data.List.Forall2
import StepGraph.Proofs.Path

/-!
# What a path addresses

Segments reach a value inside another: an object is entered by key, an array by the position that
a segment names. A path without a wildcard resolves to the value that its segments reach, if they
reach one. A path with one projects over the array that the segments in front of the wildcard
reach.

The wildcard character is counted in the text of a path, the wildcard segment is sought among its
segments. Since the segments stand in the text, one after the other, a text with one such character
has at most one such segment, and what stands in front of it and what stands behind it are well
defined.
-/
namespace StepGraph.Path

/-- A text that is the decimal writing of a position: digits, with or without a plus sign in front
of them, whose value fits a word. -/
def Writes (text : String) (position : Nat) : Prop :=
  ∃ digits, (text.toList = digits ∨ text.toList = '+' :: digits) ∧ digits ≠ [] ∧
    (∀ digit ∈ digits, digit.isDigit = true) ∧ Nat.ofDigitChars 10 digits 0 = position ∧
    position < Number.wordCount

/-- Segments that reach a value inside another. -/
inductive Reaches : Value → List String → Value → Prop where
  /-- No segments stay where they are. -/
  | here (value : Value) : Reaches value [] value
  /-- A segment enters an object by key. -/
  | field {fields : Object} {key : String} {child result : Value} {rest : List String}
      (stored : Dictionary.find? fields key = some child) (further : Reaches child rest result) :
      Reaches (.object fields) (key :: rest) result
  /-- A segment enters an array by position. -/
  | item {items : List Value} {segment : String} {position : Nat} {child result : Value}
      {rest : List String} (written : Writes segment position)
      (stored : items[position]? = some child) (further : Reaches child rest result) :
      Reaches (.array items) (segment :: rest) result

/-- What an item contributes to a projection: what the segments behind the wildcard reach in it,
and null when they reach nothing. -/
inductive Contributes (after : List String) (item : Value) : Value → Prop where
  /-- Something is reached. -/
  | found {result : Value} (reached : Reaches item after result) : Contributes after item result
  /-- Nothing is reached. -/
  | missing (unreached : ∀ result, ¬ Reaches item after result) : Contributes after item .null

/-- The answer to a path without a wildcard. -/
structure AnswersPlain (root : Value) (parts : List String)
    (answer : Except PathError (Option Value)) : Prop where
  /-- A value is found when there are segments and they reach it. -/
  found (value : Value) : answer = .ok (some value) ↔ parts ≠ [] ∧ Reaches root parts value
  /-- Nothing is found when there are no segments or they reach nothing. -/
  missing : answer = .ok none ↔ parts = [] ∨ ∀ value, ¬ Reaches root parts value
  /-- It is never an error. -/
  sound (cause : PathError) : answer ≠ .error cause

/-- The answer to a path with segments in front of its only wildcard and segments behind it. -/
structure AnswersProjection (root : Value) (path : String) (before after : List String)
    (answer : Except PathError (Option Value)) : Prop where
  /-- An array in front of the wildcard is projected item by item. -/
  found (value : Value) : answer = .ok (some value) ↔
    ∃ items results, Reaches root before (.array items) ∧ value = .array results ∧
      List.Forall₂ (Contributes after) items results
  /-- Nothing is found when there are segments in front of the wildcard and they reach nothing. -/
  missing : answer = .ok none ↔ before ≠ [] ∧ ∀ value, ¬ Reaches root before value
  /-- The only error is that what is in front of the wildcard is no array. -/
  wrong (cause : PathError) : answer = .error cause ↔
    cause = .notIterable path (dotted before) ∧
      ∃ target, Reaches root before target ∧ ∀ items, target ≠ .array items

/-- The answer to a path, from a root that is a value. -/
structure Answers (root : Value) (path : String) (answer : Except PathError (Option Value)) :
    Prop where
  /-- Without the wildcard character the segments are followed. -/
  plain : '*' ∉ path.toList → AnswersPlain root (segments path) answer
  /-- A path with the character is not supported when it holds several or no segment is it. -/
  unsupported : '*' ∈ path.toList → (answer = .error (.unsupported path) ↔
    path.toList.count '*' ≠ 1 ∨ wildcard ∉ segments path)
  /-- A path that holds one, as a segment, is a projection. -/
  projected (before after : List String) : path.toList.count '*' = 1 →
    segments path = before ++ wildcard :: after → AnswersProjection root path before after answer

/-! ## Reaching -/

/-- Characters are read as a position when they are digits and their value fits a word. -/
theorem readDigits_eq_some_iff {digits : List Char} {position : Nat} :
    (if digits.isEmpty ∨ !digits.all Char.isDigit then none
      else if Nat.ofDigitChars 10 digits 0 < Number.wordCount then
        some (Nat.ofDigitChars 10 digits 0) else none) = some position ↔
      digits ≠ [] ∧ (∀ digit ∈ digits, digit.isDigit = true) ∧
        Nat.ofDigitChars 10 digits 0 = position ∧ position < Number.wordCount := by
  constructor
  · intro read
    split at read
    · cases read
    · rename_i decimal
      obtain ⟨given, digital⟩ := not_or.mp decimal
      split at read
      · rename_i fits
        obtain rfl := Option.some.inj read
        exact ⟨by simpa using given, by simpa using digital, rfl, fits⟩
      · cases read
  · rintro ⟨given, digital, rfl, fits⟩
    rw [if_neg (not_or.mpr ⟨by simpa using given, by simpa using digital⟩), if_pos fits]

/-- A position is read from a text exactly when the text writes it. -/
theorem position?_eq_some_iff {text : String} {position : Nat} :
    position? text = some position ↔ Writes text position := by
  unfold position?
  extract_lets digits
  refine readDigits_eq_some_iff.trans ?_
  by_cases signed : ∃ rest, text.toList = '+' :: rest
  · obtain ⟨rest, signed⟩ := signed
    have cut : digits = rest := by simp only [digits, signed]
    rw [cut]
    refine ⟨fun read => ⟨rest, .inr signed, read⟩, ?_⟩
    rintro ⟨others, plain | same, given, digital, read⟩
    · have sign := digital '+' (by rw [← plain, signed]; exact List.mem_cons_self)
      cases sign
    · obtain rfl := (List.cons.inj (same.symm.trans signed)).2
      exact ⟨given, digital, read⟩
  · have cut : digits = text.toList := by
      unfold digits
      split
      · rename_i rest sign
        exact absurd ⟨rest, sign⟩ signed
      · rfl
    rw [cut]
    refine ⟨fun read => ⟨_, .inl rfl, read⟩, ?_⟩
    rintro ⟨others, plain | sign, given, digital, read⟩
    · exact plain ▸ ⟨given, digital, read⟩
    · exact absurd ⟨others, sign⟩ signed

/-- A walk from a value ends where its segments reach. -/
theorem descend_eq_some_iff {value result : Value} {parts : List String} :
    descend value parts = some result ↔ Reaches value parts result := by
  constructor
  · intro found
    induction parts generalizing value with
    | nil =>
      obtain rfl := Option.some.inj found
      exact .here value
    | cons segment rest ih =>
      obtain ⟨child, entered, further⟩ := Option.bind_eq_some_iff.mp found
      cases value with
      | object fields => exact .field entered (ih further)
      | array items =>
        obtain ⟨position, named, stored⟩ := Option.bind_eq_some_iff.mp entered
        exact .item (position?_eq_some_iff.mp named) stored (ih further)
      | _ => cases entered
  · intro reached
    induction reached with
    | here value => rfl
    | field stored further ih =>
      rw [descend, childOfValue?, stored]
      exact ih
    | item written stored further ih =>
      rw [descend, childOfValue?, position?_eq_some_iff.mpr written, Option.bind_some, stored]
      exact ih

/-- A walk from a value descends, when there are segments. -/
theorem walk_of_ne_nil {value : Value} {parts : List String} (given : parts ≠ []) :
    walk value parts = descend value parts := by
  cases parts with
  | nil => exact absurd rfl given
  | cons segment rest => rfl

/-- A walk finds what its segments reach, when there are segments. -/
theorem walk_eq_some_iff {value result : Value} {parts : List String} :
    walk value parts = some result ↔ parts ≠ [] ∧ Reaches value parts result := by
  by_cases given : parts = []
  · subst given
    exact ⟨nofun, fun reached => absurd rfl reached.1⟩
  · rw [walk_of_ne_nil given, descend_eq_some_iff]
    exact (and_iff_right given).symm

/-- A walk finds nothing when there are no segments or they reach nothing. -/
theorem walk_eq_none_iff {value : Value} {parts : List String} :
    walk value parts = none ↔ parts = [] ∨ ∀ result, ¬ Reaches value parts result := by
  rw [Option.eq_none_iff_forall_ne_some]
  simp only [ne_eq, walk_eq_some_iff, not_and]
  by_cases given : parts = []
  · simp [given]
  · simp [given]

/-- Segments reach one value at most. -/
theorem Reaches.unique {value left right : Value} {parts : List String}
    (reached : Reaches value parts left) (again : Reaches value parts right) : left = right :=
  Option.some.inj ((descend_eq_some_iff.mpr reached).symm.trans (descend_eq_some_iff.mpr again))

/-- What an item is projected to is what it contributes. -/
theorem project_eq_iff {after : List String} {item result : Value} :
    project after item = result ↔ Contributes after item result := by
  have same : project after item = (descend item after).getD .null := by
    cases after with
    | nil => rfl
    | cons segment rest => rfl
  rw [same]
  constructor
  · rintro rfl
    cases found : descend item after with
    | none =>
      refine .missing fun result reached => ?_
      rw [descend_eq_some_iff.mpr reached] at found
      cases found
    | some result => exact .found (descend_eq_some_iff.mp found)
  · intro contributed
    cases contributed with
    | found reached => rw [descend_eq_some_iff.mpr reached, Option.getD_some]
    | missing unreached =>
      cases found : descend item after with
      | none => rfl
      | some result => exact absurd (descend_eq_some_iff.mp found) (unreached result)

/-- Items are projected in order, each to what it contributes. -/
theorem map_project_eq_iff {after : List String} {items results : List Value} :
    items.map (project after) = results ↔ List.Forall₂ (Contributes after) items results := by
  rw [← List.forall₂_eq_eq_eq, List.forall₂_map_left_iff]
  simp only [project_eq_iff]

/-! ## The wildcard among the segments -/

/-- The characters of the segments stand in the path, in order. -/
theorem segments_sublist (path : String) :
    ((segments path).map String.toList).flatten.Sublist path.toList := by
  have shortened (pieces : List (List Char)) :
      ((pieces.map unbracketed).filter (· ≠ [])).flatten.Sublist pieces.flatten := by
    induction pieces with
    | nil => exact List.Sublist.slnil
    | cons piece others ih =>
      rw [List.map_cons, List.filter_cons]
      split
      · exact (unbracketed_isPrefix piece).sublist.append ih
      · exact ih.trans (List.sublist_append_right piece _)
  rw [map_toList_segments]
  refine (shortened _).trans ?_
  rw [Text.flatten_pieces]
  exact List.filter_sublist

/-- Each wildcard segment holds a wildcard character. -/
theorem count_wildcard_le (parts : List String) :
    parts.count wildcard ≤ (parts.map String.toList).flatten.count '*' := by
  induction parts with
  | nil => exact Nat.le_refl 0
  | cons segment rest ih =>
    rw [List.map_cons, List.flatten_cons, List.count_append, List.count_cons]
    split
    · rename_i same
      rw [beq_iff_eq.mp same]
      have one : wildcard.toList.count '*' = 1 := by decide
      omega
    · omega

/-- A path with one wildcard character has no further wildcard segment around the one it has. -/
theorem wildcard_not_mem {path : String} {before after : List String}
    (single : path.toList.count '*' = 1) (split : segments path = before ++ wildcard :: after) :
    wildcard ∉ before ∧ wildcard ∉ after := by
  have bound : (segments path).count wildcard ≤ 1 := calc
    (segments path).count wildcard
      ≤ ((segments path).map String.toList).flatten.count '*' := count_wildcard_le _
    _ ≤ path.toList.count '*' := (segments_sublist path).count_le _
    _ = 1 := single
  rw [split, List.count_append, List.count_cons_self] at bound
  exact ⟨List.count_eq_zero.mp (by omega), List.count_eq_zero.mp (by omega)⟩

/-- Segments are not split when no wildcard is among them. -/
theorem splitWildcard_eq_none {parts : List String} (plain : wildcard ∉ parts) :
    splitWildcard parts = none := by
  induction parts with
  | nil => rfl
  | cons segment rest ih =>
    obtain ⟨other, further⟩ := not_or.mp (mt List.mem_cons.mpr plain)
    rw [splitWildcard, if_neg (Ne.symm other), ih further, Option.map_none]

/-- Segments are split at their first wildcard. -/
theorem splitWildcard_append {before : List String} (plain : wildcard ∉ before)
    (after : List String) :
    splitWildcard (before ++ wildcard :: after) = some (before, after) := by
  induction before with
  | nil => rw [List.nil_append, splitWildcard, if_pos rfl]
  | cons segment rest ih =>
    obtain ⟨other, further⟩ := not_or.mp (mt List.mem_cons.mpr plain)
    rw [List.cons_append, splitWildcard, if_neg (Ne.symm other), ih further, Option.map_some]

/-! ## Resolving -/

/-- A path has the wildcard character when its text holds it. -/
@[simp] theorem hasWildcard_eq (path : String) : hasWildcard path = decide ('*' ∈ path.toList) :=
  List.contains_eq_mem _ _

/-- A path without the wildcard character is walked. -/
theorem resolve_plain {ρ : Type} [Addressable ρ] {path : String} (plain : '*' ∉ path.toList)
    (root : ρ) : resolve root path = .ok (walk root (segments path)) := by
  rw [resolve, if_pos (by simpa using plain), lookup]

/-- A path with several wildcard characters, or with one that is no segment, is refused. -/
theorem resolve_unsupported {ρ : Type} [Addressable ρ] {path : String} (marked : '*' ∈ path.toList)
    (misplaced : path.toList.count '*' ≠ 1 ∨ wildcard ∉ segments path) (root : ρ) :
    resolve root path = .error (.unsupported path) := by
  rw [resolve, if_neg (by simpa using marked)]
  split
  · rfl
  · rename_i single
    rw [splitWildcard_eq_none (misplaced.resolve_left single)]

/-- A path whose only wildcard character is a segment projects. -/
theorem resolve_projection {ρ : Type} [Addressable ρ] {path : String} {before after : List String}
    (single : path.toList.count '*' = 1) (split : segments path = before ++ wildcard :: after)
    (root : ρ) : resolve root path = resolveWildcard root path before after := by
  have marked : '*' ∈ path.toList := List.count_pos_iff.mp (by omega)
  rw [resolve, if_neg (by simpa using marked), if_neg (not_not.mpr single), split,
    splitWildcard_append (wildcard_not_mem single split).1]

/-- A path is walked in every root, refused in every root, or projects in every root over what is
in front of its wildcard. -/
theorem resolve_cases (path : String) :
    (∀ root : Value, resolve root path = .ok (walk root (segments path))) ∨
      (∀ root : Value, resolve root path = .error (.unsupported path)) ∨
      ∃ before after, ∀ root : Value,
        resolve root path = resolveWildcard root path before after := by
  by_cases marked : '*' ∈ path.toList
  · by_cases misplaced : path.toList.count '*' ≠ 1 ∨ wildcard ∉ segments path
    · exact .inr (.inl (resolve_unsupported marked misplaced))
    · obtain ⟨single, present⟩ := not_or.mp misplaced
      obtain ⟨before, after, split⟩ := List.append_of_mem (not_not.mp present)
      exact .inr (.inr ⟨before, after, resolve_projection (not_not.mp single) split⟩)
  · exact .inl (resolve_plain marked)

/-- A projection depends on what is reached in front of the wildcard alone. -/
theorem resolveWildcard_eq (root : Value) (path : String) (before after : List String) :
    resolveWildcard root path before after =
      match descend root before with
      | none => .ok none
      | some target =>
        match target.items? with
        | some items => .ok (some (.array (items.map (project after))))
        | none => .error (.notIterable path (dotted before)) := by
  cases before with
  | nil => rfl
  | cons segment rest => rfl

/-- What is walked answers a path without a wildcard. -/
theorem answersPlain_walk (root : Value) (parts : List String) :
    AnswersPlain root parts (.ok (walk root parts)) where
  found value := by rw [Except.ok.injEq, walk_eq_some_iff]
  missing := by rw [Except.ok.injEq, walk_eq_none_iff]
  sound cause := nofun

/-- What is projected answers a path with a wildcard. -/
theorem answersProjection_resolveWildcard (root : Value) (path : String)
    (before after : List String) :
    AnswersProjection root path before after (resolveWildcard root path before after) := by
  rw [resolveWildcard_eq]
  cases reached : descend root before with
  | none =>
    have nowhere (value : Value) : ¬ Reaches root before value := fun there => by
      rw [descend_eq_some_iff.mpr there] at reached
      cases reached
    have given : before ≠ [] := by
      rintro rfl
      cases reached
    exact {
      found := fun value => ⟨nofun, fun ⟨_, _, there, _⟩ => absurd there (nowhere _)⟩
      missing := ⟨fun _ => ⟨given, nowhere⟩, fun _ => rfl⟩
      wrong := fun cause => ⟨nofun, fun ⟨_, _, there, _⟩ => absurd there (nowhere _)⟩ }
  | some target =>
    have there : Reaches root before target := descend_eq_some_iff.mp reached
    have present : ¬ (before ≠ [] ∧ ∀ value, ¬ Reaches root before value) :=
      fun nowhere => nowhere.2 target there
    dsimp only
    cases content : target.items? with
    | some items =>
      obtain rfl := Value.items?_eq_some_iff.mp content
      refine {
        found := fun value => ⟨?_, ?_⟩
        missing := ⟨nofun, fun nowhere => absurd nowhere present⟩
        wrong := fun cause => ⟨nofun, ?_⟩ }
      · intro found
        obtain rfl := Option.some.inj (Except.ok.inj found)
        exact ⟨items, _, there, rfl, map_project_eq_iff.mp rfl⟩
      · rintro ⟨items', results, there', rfl, contributed⟩
        obtain rfl := Value.array.inj (there.unique there')
        exact congrArg (Except.ok ∘ some ∘ Value.array) (map_project_eq_iff.mpr contributed)
      · rintro ⟨-, target, there', different⟩
        exact absurd (there'.unique there) (different items)
    | none =>
      have different (items : List Value) : target ≠ .array items := by
        rintro rfl
        cases content
      refine {
        found := fun value => ⟨nofun, ?_⟩
        missing := ⟨nofun, fun nowhere => absurd nowhere present⟩
        wrong := fun cause => ⟨?_, ?_⟩ }
      · rintro ⟨items, results, there', -, -⟩
        exact absurd (there.unique there') (different items)
      · intro wrong
        exact ⟨(Except.error.inj wrong).symm, target, there, different⟩
      · rintro ⟨rfl, -⟩
        rfl

/-- Every path resolves as its text and its segments say, against every value; an object that is
published bare answers as the value that it is the content of. -/
theorem resolve_answers (path : String) :
    (∀ root : Value, Answers root path (resolve root path)) ∧
      ∀ fields : Object, resolve fields path = resolve (Value.object fields) path := by
  refine ⟨fun root => ?_, fun fields => ?_⟩
  · refine { plain := fun plain => ?_, unsupported := fun marked => ⟨?_, ?_⟩, projected := ?_ }
    · rw [resolve_plain plain]
      exact answersPlain_walk root (segments path)
    · intro refused
      by_contra supported
      obtain ⟨single, placed⟩ := not_or.mp supported
      obtain ⟨before, after, split⟩ := List.append_of_mem (not_not.mp placed)
      rw [resolve_projection (not_not.mp single) split] at refused
      obtain ⟨different, -⟩ :=
        ((answersProjection_resolveWildcard root path before after).wrong _).mp refused
      cases different
    · exact fun misplaced => resolve_unsupported marked misplaced root
    · intro before after single split
      rw [resolve_projection single split]
      exact answersProjection_resolveWildcard root path before after
  · have walked (parts : List String) : walk fields parts = walk (Value.object fields) parts := by
      cases parts <;> rfl
    have projected (before after : List String) : resolveWildcard fields path before after =
        resolveWildcard (Value.object fields) path before after := by
      simp only [resolveWildcard, walked]
      rfl
    simp only [resolve, lookup, walked, projected]

/-- A value that is stored and an item that lacks the field are told apart from nothing at all. -/
example :
    resolve (Value.array [.object [("v", .null)], .null]) "*.v" =
        .ok (some (.array [.null, .null])) ∧
      resolve (Value.array []) "[0]" = .ok none ∧
      resolve (Value.object [("a", .null)]) "a.*" = .error (.notIterable "a.*" "a") ∧
      resolve (Value.object [("a", .null)]) "a*" = .error (.unsupported "a*") := by
  decide +kernel

end StepGraph.Path
