import StepGraph.Proofs.Addressing

/-!
# Paths in normal form

A path is normal when its segments are written out with a dot between them. A segment is a text that
is not empty, holds no separator and does not end with a closing bracket, and every list of such
texts comes back from the dotted text. Any other spelling, with brackets, with dots that separate
nothing or with brackets that close nothing, has a normal one with the same segments.

Both spellings lead to the same answer. A path is judged by its segments and by the number of its
wildcard characters, and what is not in the segments is a separator or a closing bracket, so that
the segments alone decide. Only the text that an error quotes is another one.
-/
namespace StepGraph.Path

/-- A text that a path can have as a segment. -/
structure IsSegment (text : String) : Prop where
  /-- It is not empty. -/
  nonempty : text ≠ ""
  /-- It holds no dot. -/
  undotted : '.' ∉ text.toList
  /-- It holds no opening bracket. -/
  unopened : '[' ∉ text.toList
  /-- It does not end with a closing bracket. -/
  unclosed : text.toList.getLast? ≠ some ']'

/-! ## Segments -/

/-- A text without dots and opening brackets is one without separators. -/
theorem plain_iff {text : List Char} :
    (∀ character ∈ text, isSeparator character = false) ↔ '.' ∉ text ∧ '[' ∉ text := by
  constructor
  · intro plain
    constructor
    · intro dotted
      cases plain '.' dotted
    · intro opened
      cases plain '[' opened
  · rintro ⟨undotted, unopened⟩ character inside
    have noDot : character ≠ '.' := fun same => undotted (same ▸ inside)
    have noBracket : character ≠ '[' := fun same => unopened (same ▸ inside)
    simp [isSeparator, noDot, noBracket]

/-- A text can be a segment exactly when it is the only segment of itself. -/
theorem isSegment_iff {text : String} : IsSegment text ↔ segments text = [text] := by
  have nonempty : text.toList ≠ [] ↔ text ≠ "" := not_congr String.toList_eq_nil_iff
  rw [segments_eq_singleton_iff, plain_iff, nonempty]
  constructor
  · intro part
    exact ⟨part.nonempty, ⟨part.undotted, part.unopened⟩, part.unclosed⟩
  · rintro ⟨full, ⟨undotted, unopened⟩, unclosed⟩
    exact ⟨full, undotted, unopened, unclosed⟩

/-- Every segment of a path is a text that can be one. -/
theorem isSegment_of_mem {path part : String} (member : part ∈ segments path) : IsSegment part :=
  isSegment_iff.mpr (segments_eq_singleton_iff.mpr (plain_of_mem member))

/-! ## Dotted texts -/

/-- The segments of two paths with a dot between them are those of both. -/
theorem segments_append_dot (left right : String) :
    segments (left ++ "." ++ right) = segments left ++ segments right := by
  have spelled : (left ++ "." ++ right).toList = left.toList ++ '.' :: right.toList := by
    simp only [String.toList_append, List.append_assoc]
    rfl
  simp only [segments, spelled, Text.pieces_append (rfl : isSeparator '.' = true),
    List.map_append, List.filter_append]

/-- The segments of a dotted text are those of its parts. -/
theorem segments_dotted (parts : List String) :
    segments (dotted parts) = parts.flatMap segments := by
  induction parts with
  | nil => rfl
  | cons part rest ih =>
    cases rest with
    | nil => rw [dotted, String.intercalate_singleton, List.flatMap_singleton]
    | cons next others =>
      have written : dotted (part :: next :: others) = part ++ "." ++ dotted (next :: others) :=
        String.intercalate_cons_cons
      rw [written, segments_append_dot, ih]
      rfl

/-- A dotted text has its parts for segments exactly when each of them can be a segment. -/
theorem segments_dotted_eq_iff {parts : List String} :
    segments (dotted parts) = parts ↔ ∀ part ∈ parts, IsSegment part := by
  constructor
  · intro same part member
    rw [← same] at member
    exact isSegment_of_mem member
  · intro normal
    calc
      segments (dotted parts) = parts.flatMap segments := segments_dotted parts
      _ = parts.flatMap fun part => [part] :=
        List.flatMap_congr fun part member => isSegment_iff.mp (normal part member)
      _ = parts := List.flatMap_singleton' parts

/-- A path and its normal form have the same segments. -/
theorem segments_dotted_segments (path : String) :
    segments (dotted (segments path)) = segments path :=
  segments_dotted_eq_iff.mpr fun _ => isSegment_of_mem

/-! ## Wildcard characters -/

/-- Nothing but closing brackets is dropped from a piece. -/
theorem count_unbracketed {character : Char} (kept : character ≠ ']') (piece : List Char) :
    (unbracketed piece).count character = piece.count character := by
  have dropped : (piece.rtakeWhile (· = ']')).count character = 0 := by
    apply List.count_eq_zero.mpr
    intro inside
    have bracket := List.mem_rtakeWhile_imp inside
    exact kept (of_decide_eq_true bracket)
  have whole : piece.rdropWhile (· = ']') ++ piece.rtakeWhile (· = ']') = piece :=
    List.rdropWhile_append_rtakeWhile
  calc
    (unbracketed piece).count character
      = (piece.rdropWhile (· = ']') ++ piece.rtakeWhile (· = ']')).count character := by
        rw [List.count_append, dropped, Nat.add_zero, unbracketed_eq]
    _ = piece.count character := by rw [whole]

/-- A character that neither separates nor closes stands as often in the segments of a path as in
the path. -/
theorem count_segments {character : Char} (plain : isSeparator character = false)
    (kept : character ≠ ']') (path : String) :
    ((segments path).map String.toList).flatten.count character =
      path.toList.count character := by
  have counted (pieces : List (List Char)) :
      (pieces.map unbracketed).flatten.count character = pieces.flatten.count character := by
    simp only [List.count_flatten, List.map_map]
    exact congrArg List.sum (List.map_congr_left fun piece _ => count_unbracketed kept piece)
  rw [map_toList_segments, List.flatten_filter_ne_nil, counted, Text.flatten_pieces,
    List.count_filter (by rw [plain]; rfl)]

/-- Paths with the same segments have the same number of wildcard characters. -/
theorem count_wildcard_eq {path other : String} (same : segments other = segments path) :
    other.toList.count '*' = path.toList.count '*' := by
  -- The wildcard character is counted in the text, but all of its occurrences are in the segments.
  have counted := count_segments (by decide : isSeparator '*' = false) (by decide)
  rw [← counted other, same, counted path]

end StepGraph.Path

/-! ## Answers -/

namespace StepGraph

/-- The same error in another path. -/
def PathError.about (path : String) : PathError → PathError
  | .unsupported _ => .unsupported path
  | .notIterable _ target => .notIterable path target

namespace Path

variable {ρ : Type} [Addressable ρ]

/-- A projection depends on the text of its path in the error only. -/
theorem resolveWildcard_about (root : ρ) (path other : String) (before after : List String) :
    resolveWildcard root other before after =
      (resolveWildcard root path before after).mapError (PathError.about other) := by
  dsimp only [resolveWildcard]
  split
  · cases Addressable.items? root <;> rfl
  · cases walk root before with
    | none => rfl
    | some target =>
      dsimp only
      cases target.items? <;> rfl

/-- Paths with the same segments lead to the same answer, but for the path that an error is
about. -/
theorem resolve_about {path other : String} (same : segments other = segments path) (root : ρ) :
    resolve root other = (resolve root path).mapError (PathError.about other) := by
  have counted := count_wildcard_eq same
  have marked_iff : '*' ∈ other.toList ↔ '*' ∈ path.toList := by
    rw [← List.count_pos_iff, counted, List.count_pos_iff]
  by_cases marked : '*' ∈ path.toList
  · by_cases misplaced : path.toList.count '*' ≠ 1 ∨ wildcard ∉ segments path
    · rw [resolve_unsupported marked misplaced,
        resolve_unsupported (marked_iff.mpr marked) (by rwa [counted, same])]
      rfl
    · obtain ⟨single, present⟩ := not_or.mp misplaced
      obtain ⟨before, after, split⟩ := List.append_of_mem (not_not.mp present)
      rw [resolve_projection (not_not.mp single) split,
        resolve_projection (counted.trans (not_not.mp single)) (same.trans split)]
      exact resolveWildcard_about root path other before after
  · rw [resolve_plain marked, resolve_plain (mt marked_iff.mp marked), same]
    rfl

/-- Every path has a normal form. Its segments are texts that can be segments, and a list of texts
is what its dotted text is split into exactly when they all are. The normal form of a path, its
segments with a dot between them, has the same wildcard target and leads from every root to the same
answer: the same value, nothing, or the same error with the same target about the other text. -/
theorem normal_form_interchangeable :
    (∀ path, ∀ part ∈ segments path, IsSegment part) ∧
    (∀ parts, segments (dotted parts) = parts ↔ ∀ part ∈ parts, IsSegment part) ∧
    ∀ path, wildcardTarget? (dotted (segments path)) = wildcardTarget? path ∧
      ∀ (ρ : Type) [Addressable ρ] (root : ρ),
        resolve root (dotted (segments path)) =
          (resolve root path).mapError (PathError.about (dotted (segments path))) := by
  refine ⟨fun path part => isSegment_of_mem, fun parts => segments_dotted_eq_iff,
    fun path => ⟨?_, fun ρ _ root => ?_⟩⟩
  · rw [wildcardTarget?, wildcardTarget?, segments_dotted_segments]
  · exact resolve_about (segments_dotted_segments path) root

/-- Rows under a name. -/
def namedRows (rows : Value) : Value := .object [("rows", rows)]

/-- A path with crooked brackets is straightened. It projects over rows as before, and complains of
rows that are no array under its new name. -/
theorem crooked_path_straightened :
    segments "rows]].[*].v[" = ["rows", "*", "v"] ∧
      segments "rows.*.v" = ["rows", "*", "v"] ∧
      wildcardTarget? "rows.*.v" = some "rows" ∧
      resolve (namedRows (.array [.object [("v", .bool true)]])) "rows.*.v" =
        .ok (some (.array [.bool true])) ∧
      resolve (namedRows .null) "rows.*.v" = .error (.notIterable "rows.*.v" "rows") := by
  have cut : segments "rows]].[*].v[" = ["rows", "*", "v"] := by decide +kernel
  have written : dotted (segments "rows]].[*].v[") = "rows.*.v" := by rw [cut]; decide +kernel
  obtain ⟨parts, splits, straightens⟩ := normal_form_interchangeable
  have normal : ∀ part ∈ ["rows", "*", "v"], IsSegment part :=
    fun part member => parts "rows]].[*].v[" part (cut ▸ member)
  obtain ⟨target, answers⟩ := straightens "rows]].[*].v["
  rw [written] at target answers
  refine ⟨cut, ?_, ?_, ?_, ?_⟩
  · rw [← written, cut]
    exact (splits _).mpr normal
  · rw [target]
    decide +kernel
  · exact (answers Value (namedRows _)).trans (by decide +kernel)
  · exact (answers Value (namedRows _)).trans (by decide +kernel)

end Path

end StepGraph
