import Mathlib.Data.List.DropRight
import StepGraph.Evaluation.Resolution

/-!
# Paths into published values

A path into an object reads one field of it, the one that the head of the path names. What a path
resolves to is therefore settled by what is stored under its head. Whatever else is looked up on
behalf of a path, its head and what is left of it inside the inputs, is a part of its text.
-/
namespace StepGraph

/-- What is left after some characters stands behind them. -/
theorem eq_append_of_charactersAfter? {wanted text rest : List Char}
    (after : charactersAfter? wanted text = some rest) : text = wanted ++ rest := by
  induction wanted generalizing text with
  | nil => exact Option.some.inj after
  | cons first others ih =>
    cases text with
    | nil => cases after
    | cons character text =>
      rw [charactersAfter?] at after
      split at after
      · rename_i same
        rw [ih after, same, List.cons_append]
      · cases after

/-- A path into the inputs is their name and a dot in front of the rest. -/
theorem toList_of_insideInputs? {path rest : String} (within : insideInputs? path = some rest) :
    path.toList = inputsKey.toList ++ '.' :: rest.toList := by
  obtain ⟨text, after, rfl⟩ := Option.map_eq_some_iff.mp within
  have spelled : (String.ofList text).toList = text := String.toList_ofList
  rw [eq_append_of_charactersAfter? after, String.toList_append, List.append_assoc, spelled]
  rfl

/-- The rest of a path into the inputs is shorter. -/
theorem length_lt_of_insideInputs? {path rest : String} (within : insideInputs? path = some rest) :
    rest.length < path.length := by
  have whole := congrArg List.length (toList_of_insideInputs? within)
  rw [List.length_append, List.length_cons] at whole
  rw [← String.length_toList, ← String.length_toList]
  omega

/-- The rest of a path into the inputs stands at its end. -/
theorem isSuffix_of_insideInputs? {path rest : String} (within : insideInputs? path = some rest) :
    rest.toList <:+ path.toList := by
  rw [toList_of_insideInputs? within]
  exact (List.suffix_cons '.' _).trans (List.suffix_append _ _)

namespace Path

/-- A piece loses the closing brackets at its end. -/
theorem unbracketed_eq (piece : List Char) : unbracketed piece = piece.rdropWhile (· = ']') := rfl

/-- A piece without the closing brackets at its end begins the piece. -/
theorem unbracketed_isPrefix (piece : List Char) : unbracketed piece <+: piece :=
  List.rdropWhile_prefix _ piece

/-- A piece loses nothing exactly when it does not end with a closing bracket. -/
theorem unbracketed_eq_self_iff {piece : List Char} :
    unbracketed piece = piece ↔ piece.getLast? ≠ some ']' := by
  rw [unbracketed_eq, List.rdropWhile_eq_self_iff]
  by_cases empty : piece = []
  · simp [empty]
  · simp [List.getLast?_eq_some_getLast empty, empty]

/-- What is left of a piece does not end with a closing bracket. -/
theorem getLast?_unbracketed (piece : List Char) : (unbracketed piece).getLast? ≠ some ']' := by
  apply unbracketed_eq_self_iff.mp
  rw [unbracketed_eq, unbracketed_eq, List.rdropWhile_idempotent]

/-- The segments of a path are what is left of its pieces, as long as something is. -/
theorem map_toList_segments (path : String) :
    (segments path).map String.toList =
      ((Text.pieces isSeparator path.toList).map unbracketed).filter (· ≠ []) := by
  rw [segments, List.map_map]
  exact List.map_id'' (fun piece => String.toList_ofList) _

/-- A segment of a path is what is left of one of its pieces. -/
theorem exists_piece_of_mem {path part : String} (member : part ∈ segments path) :
    part.toList ≠ [] ∧
      ∃ piece ∈ Text.pieces isSeparator path.toList, part.toList = unbracketed piece := by
  have within := List.mem_map_of_mem (f := String.toList) member
  rw [map_toList_segments] at within
  obtain ⟨cut, full⟩ := List.mem_filter.mp within
  obtain ⟨piece, there, left⟩ := List.mem_map.mp cut
  exact ⟨of_decide_eq_true full, piece, there, left.symm⟩

/-- A segment of a path is not empty, no character of it ends a segment, and it does not end with a
closing bracket. -/
theorem plain_of_mem {path part : String} (member : part ∈ segments path) :
    part.toList ≠ [] ∧ (∀ character ∈ part.toList, isSeparator character = false) ∧
      part.toList.getLast? ≠ some ']' := by
  obtain ⟨full, piece, there, left⟩ := exists_piece_of_mem member
  refine ⟨full, fun character inside => ?_, left ▸ getLast?_unbracketed piece⟩
  rw [left] at inside
  exact Text.separates_of_mem_pieces there ((unbracketed_isPrefix piece).subset inside)

/-- A name is a single segment exactly when it is not empty, no character of it ends a segment, and
it does not end with a closing bracket. -/
theorem segments_eq_singleton_iff {name : String} :
    segments name = [name] ↔ name.toList ≠ [] ∧
      (∀ character ∈ name.toList, isSeparator character = false) ∧
        name.toList.getLast? ≠ some ']' := by
  constructor
  · intro single
    exact plain_of_mem (single ▸ List.mem_singleton_self name)
  · rintro ⟨full, plain, unended⟩
    rw [segments, Text.pieces_of_plain plain, List.map_singleton,
      unbracketed_eq_self_iff.mpr unended, List.filter_cons, if_pos (decide_eq_true full)]
    exact congrArg (fun text => [text]) String.ofList_toList

/-- The name that a path starts from stands in the path. -/
theorem head_isInfix (path : String) : (head path).toList <:+: path.toList := by
  cases first : (segments path).head? with
  | none =>
    rw [head, first]
    exact List.infix_rfl
  | some segment =>
    obtain ⟨-, piece, there, left⟩ := exists_piece_of_mem (List.mem_of_mem_head? first)
    rw [head, first, Option.getD_some, left]
    exact (unbracketed_isPrefix piece).isInfix.trans (Text.isInfix_of_mem_pieces there)

/-- A path into the inputs has their name in front of the segments of the rest. -/
theorem segments_of_insideInputs? {path rest : String} (within : insideInputs? path = some rest) :
    segments path = inputsKey :: segments rest := by
  have plain : ∀ character ∈ inputsKey.toList, isSeparator character = false := by
    simp [inputsKey, isSeparator]
  have cut : Text.pieces isSeparator path.toList =
      inputsKey.toList :: Text.pieces isSeparator rest.toList := by
    rw [toList_of_insideInputs? within, Text.pieces_append rfl, Text.pieces_of_plain plain]
    rfl
  rw [segments, cut]
  rfl

/-- A path into the inputs starts from their name. -/
theorem head_of_insideInputs? {path rest : String} (within : insideInputs? path = some rest) :
    head path = inputsKey := by
  rw [head, segments_of_insideInputs? within]
  rfl

/-- A walk into an object depends on the field of its first segment alone. -/
theorem walk_congr {left right : Object} {segment : String} {rest : List String}
    (same : Dictionary.find? left segment = Dictionary.find? right segment) :
    walk left (segment :: rest) = walk right (segment :: rest) := by
  show (Dictionary.find? left segment).bind _ = (Dictionary.find? right segment).bind _
  rw [same]

/-- What stands in front of a wildcard begins with the first segment. -/
theorem splitWildcard_cons {segment : String} {rest before after : List String}
    (split : splitWildcard (segment :: rest) = some (before, after)) :
    before = [] ∨ ∃ others, before = segment :: others := by
  rw [splitWildcard] at split
  split at split
  · exact .inl (Prod.mk.inj (Option.some.inj split)).1.symm
  · obtain ⟨⟨others, behind⟩, -, same⟩ := Option.map_eq_some_iff.mp split
    exact .inr ⟨others, (Prod.mk.inj same).1.symm⟩

/-- A path resolves alike in objects that store the same under its head. -/
theorem resolve_congr {left right : Object} {path : String}
    (same : Dictionary.find? left (head path) = Dictionary.find? right (head path)) :
    resolve left path = resolve right path := by
  unfold head at same
  unfold resolve lookup
  cases parts : segments path with
  | nil => rfl
  | cons segment rest =>
    rw [parts, List.head?_cons, Option.getD_some] at same
    rw [walk_congr same]
    cases split : splitWildcard (segment :: rest) with
    | none => rfl
    | some pair =>
      obtain ⟨before, after⟩ := pair
      rcases splitWildcard_cons split with rfl | ⟨others, rfl⟩
      · rfl
      · dsimp only [resolveWildcard]
        rw [walk_congr same]
        rfl

/-- Nothing is found in an empty object. -/
theorem walk_nil (parts : List String) : walk ([] : Object) parts = none := by
  cases parts with
  | nil => rfl
  | cons segment rest => rfl

/-- In an empty object nothing is found at a path, unless the path itself is wrong, whatever is
stored. -/
theorem resolve_nil (path : String) :
    resolve ([] : Object) path = .ok none ∨
      ∃ cause, ∀ fields : Object, resolve fields path = .error cause := by
  unfold resolve lookup
  rw [walk_nil]
  split
  · exact .inl rfl
  · split
    · exact .inr ⟨_, fun _ => rfl⟩
    · cases splitWildcard (segments path) with
      | none => exact .inr ⟨_, fun _ => rfl⟩
      | some pair =>
        obtain ⟨before, after⟩ := pair
        dsimp only [resolveWildcard]
        rw [walk_nil]
        cases before.isEmpty with
        | true => exact .inr ⟨_, fun _ => rfl⟩
        | false => exact .inl rfl

/-- A path that resolves to a value has something stored under its head. -/
theorem exists_of_resolve_eq_some {fields : Object} {path : String} {value : Value}
    (resolved : resolve fields path = .ok (some value)) :
    ∃ stored, Dictionary.find? fields (head path) = some stored := by
  cases stored : Dictionary.find? fields (head path) with
  | some held => exact ⟨held, rfl⟩
  | none =>
    have empty := resolve_congr (stored.trans (Dictionary.find?_nil _).symm)
    rcases resolve_nil path with nothing | ⟨cause, wrong⟩
    · rw [empty, nothing] at resolved
      cases resolved
    · rw [wrong] at resolved
      cases resolved

/-- A path of two segments finds something in an object that holds another one under the first of
them, with the second one among its keys, unless the path itself is wrong. -/
theorem resolve_ne_none {root fields : Object} {path outer key : String}
    (parts : segments path = [outer, key])
    (stored : Dictionary.find? root outer = some (.object fields))
    (member : key ∈ Dictionary.keys fields) : resolve root path ≠ .ok none := by
  obtain ⟨value, held⟩ := Option.isSome_iff_exists.mp (Dictionary.mem_keys_iff.mp member)
  have first : walk root [outer] = some (.object fields) := by
    show (Dictionary.find? root outer).bind _ = _
    rw [stored]
    rfl
  have both : walk root [outer, key] = some value := by
    show (Dictionary.find? root outer).bind _ = _
    rw [stored]
    show (Dictionary.find? fields key).bind _ = _
    rw [held]
    rfl
  unfold resolve lookup
  rw [parts, both]
  split
  · nofun
  · split
    · nofun
    · cases split : splitWildcard [outer, key] with
      | none => nofun
      | some pair =>
        -- The wildcard stands over an object, which has no items, wherever it stands.
        obtain ⟨before, after⟩ := pair
        rcases splitWildcard_cons split with rfl | ⟨others, rfl⟩
        · nofun
        · rw [splitWildcard] at split
          split at split
          · cases split
          · rw [splitWildcard] at split
            split at split
            · cases split
              dsimp only [resolveWildcard]
              rw [first]
              nofun
            · cases split

end Path

end StepGraph
