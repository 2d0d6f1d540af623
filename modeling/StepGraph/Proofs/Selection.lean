import Mathlib.Data.List.Find
import StepGraph.Proofs.Flattening
import StepGraph.Proofs.Path

/-!
# Selections from a collection

Three functions select from a flattened collection: the items that match, the items that do not, and
the first item that has a field of a value. The first two share one test and split the collection
between them. Flattening leaves no arrays, so that a selection is a collection of the same items and
selecting from it once more changes nothing.

The third reads a field by its name where the others follow a path. Both find the same in items that
are no arrays, as long as the name is a single segment of a path: it is read as one name and not as
several, and it keeps its last character.
-/
namespace StepGraph.Path

/-- In an item that is no array a name that is a single segment leads to the field of that name. -/
theorem lookup_eq_field? {item : Value} (plain : item.items? = none) {name : String}
    (single : segments name = [name]) : lookup item name = item.field? name := by
  rw [lookup, single]
  cases item with
  | array items => cases plain
  | object fields =>
    show (Dictionary.find? fields name).bind some = Dictionary.find? fields name
    exact Option.bind_fun_some _
  | _ => rfl

end StepGraph.Path

namespace StepGraph.Collections

open Parameters

/-- A list is put together from two others: each of its positions holds the next item of exactly one
of them, until both are used up. -/
inductive Interleaves {α : Type} : List α → List α → List α → Prop where
  /-- Nothing is put together from nothing. -/
  | nil : Interleaves [] [] []
  /-- The next item is one of the first list. -/
  | left (item : α) {first second whole : List α} (rest : Interleaves first second whole) :
      Interleaves (item :: first) second (item :: whole)
  /-- The next item is one of the second list. -/
  | right (item : α) {first second whole : List α} (rest : Interleaves first second whole) :
      Interleaves first (item :: second) (item :: whole)

namespace Interleaves

variable {α : Type} {first second whole : List α}

/-- The first list stands in the whole in its order. -/
theorem sublist_left (parts : Interleaves first second whole) : first.Sublist whole := by
  induction parts with
  | nil => exact .slnil
  | left item _ ih => exact ih.cons_cons item
  | right item _ ih => exact ih.cons item

/-- The second list stands in the whole in its order. -/
theorem sublist_right (parts : Interleaves first second whole) : second.Sublist whole := by
  induction parts with
  | nil => exact .slnil
  | left item _ ih => exact ih.cons item
  | right item _ ih => exact ih.cons_cons item

/-- The lengths of the two lists add up to that of the whole. -/
theorem length_add_length (parts : Interleaves first second whole) :
    first.length + second.length = whole.length := by
  induction parts with
  | nil => rfl
  | left item _ ih =>
    rw [List.length_cons, List.length_cons]
    omega
  | right item _ ih =>
    rw [List.length_cons, List.length_cons]
    omega

/-- The items that pass a test and those that fail it make up the whole. -/
theorem filter_filter_not (test : α → Bool) (items : List α) :
    Interleaves (items.filter test) (items.filter fun item => !test item) items := by
  induction items with
  | nil => exact .nil
  | cons item rest ih =>
    rw [List.filter_cons, List.filter_cons]
    cases test item with
    | true => exact .left item ih
    | false => exact .right item ih

end Interleaves

/-! ## What the functions answer -/

/-- What parameters say about a selection: the collection, the path that is followed in its items,
and what is expected there, if that is given. -/
structure Selects (params collection : Value) (path : String) (expected : Option Value) : Prop where
  /-- The collection is that of the parameters, null when they have none. -/
  collection : value params "collection" = collection
  /-- The path is a string. -/
  path : value params "path" = .string path
  /-- What is expected may be absent, which differs from an expected null. -/
  expected : params.field? "value" = expected

/-- A selection keeps operands by their test. -/
theorem Selects.selected_eq {params collection : Value} {path : String} {expected : Option Value}
    (selects : Selects params collection path expected) (keep : Bool → Bool) :
    selected keep params =
      .ok (.array ((operands collection).filter fun item =>
        keep (matchesAt path expected item))) := by
  have read : string params "path" = .ok path := by
    rw [string, selects.path]
    rfl
  rw [selected, read, selects.expected, selects.collection]
  rfl

/-- Items that a selection has kept are all kept when it is made from them. -/
theorem Selects.selected_again {params collection : Value} {path : String}
    {expected : Option Value} {keep : Bool → Bool} {items : List Value}
    (kept : items = (operands collection).filter fun item => keep (matchesAt path expected item))
    (selects : Selects params (.array items) path expected) :
    selected keep params = .ok (.array items) := by
  subst kept
  have plain : ∀ item ∈ (operands collection).filter fun item =>
      keep (matchesAt path expected item), item.items? = none :=
    fun item member => items?_of_mem_operands item (List.mem_filter.mp member).1
  rw [selects.selected_eq, operands_array plain, List.filter_filter]
  simp only [Bool.and_self]

/-- Without a path a selection fails, whatever it is to keep. -/
theorem selected_eq_error {params : Value}
    (unnamed : ∀ path, value params "path" ≠ .string path) (keep : Bool → Bool) :
    selected keep params =
      .error (.invalidParam "path" .string (value params "path").kind) := by
  have read : string params "path" =
      .error (.invalidParam "path" .string (value params "path").kind) := by
    rw [string]
    cases given : value params "path" with
    | string path => exact absurd given (unnamed path)
    | _ => rfl
  rw [selected, read]
  rfl

/-- The first operand with a field of the expected value is found. -/
theorem find_eq {params : Value} {name : String} (named : value params "propName" = .string name) :
    find params = .ok (((operands (value params "collection")).find?
      (hasField name (value params "propValue"))).getD .null) := by
  have read : string params "propName" = .ok name := by
    rw [string, named]
    rfl
  rw [find, read]
  rfl

/-- An item that is no array has a field of the expected value exactly when it matches at the name
of the field, as long as that is a single segment. -/
theorem hasField_eq_matchesAt {item : Value} (plain : item.items? = none) {name : String}
    (single : Path.segments name = [name]) (expected : Value) :
    hasField name expected item = matchesAt name (some expected) item := by
  rw [hasField, matchesAt, Path.lookup_eq_field? plain single]
  rfl

/-- Selections from a collection agree with each other. With a path the items that match and those
that do not split the flattened collection: either stand in it in their order, each of its positions
goes to one of the two, and their numbers add up. Selecting from either result in the same way
changes nothing. Without a path both selections fail with the same fault. The item that is found by
the name of a field, when that is a single segment, is the first of those that are selected at the
name with the value that is sought, and null when there are none. -/
theorem selections_agree (params : Value) :
    (∀ collection path expected, Selects params collection path expected →
      ∃ kept dropped : List Value,
        filter params = .ok (.array kept) ∧ filterNot params = .ok (.array dropped) ∧
        Interleaves kept dropped (operands collection) ∧
        kept.Sublist (operands collection) ∧ dropped.Sublist (operands collection) ∧
        kept.length + dropped.length = (operands collection).length ∧
        (∀ item ∈ kept, matchesAt path expected item = true) ∧
        (∀ item ∈ dropped, matchesAt path expected item = false) ∧
        (∀ again, Selects again (.array kept) path expected →
          filter again = .ok (.array kept)) ∧
        ∀ again, Selects again (.array dropped) path expected →
          filterNot again = .ok (.array dropped)) ∧
    ((∀ path, value params "path" ≠ .string path) →
      ∃ fault, filter params = .error fault ∧ filterNot params = .error fault) ∧
    ∀ name, value params "propName" = .string name → Path.segments name = [name] →
      ∀ sought, Selects sought (value params "collection") name (some (value params "propValue")) →
        ∃ kept, filter sought = .ok (.array kept) ∧ find params = .ok (kept.head?.getD .null) := by
  refine ⟨fun collection path expected selects => ?_, fun unnamed => ?_,
    fun name named single sought selects => ?_⟩
  · have parts := Interleaves.filter_filter_not (matchesAt path expected) (operands collection)
    refine ⟨_, _, selects.selected_eq id, selects.selected_eq not, parts, parts.sublist_left,
      parts.sublist_right, parts.length_add_length, fun item member => ?_, fun item member => ?_,
      fun again selects_again => selects_again.selected_again rfl,
      fun again selects_again => selects_again.selected_again rfl⟩
    · exact (List.mem_filter.mp member).2
    · exact Bool.not_eq_true' _ |>.mp (List.mem_filter.mp member).2
  · exact ⟨_, selected_eq_error unnamed id, selected_eq_error unnamed not⟩
  · refine ⟨_, selects.selected_eq id, ?_⟩
    rw [find_eq named, List.head?_filter]
    have same : (operands (value params "collection")).find?
        (hasField name (value params "propValue")) =
          (operands (value params "collection")).find? fun item =>
            matchesAt name (some (value params "propValue")) item :=
      List.find?_congr fun item member =>
        hasField_eq_matchesAt (items?_of_mem_operands item member) single _
    rw [same]
    rfl

/-- A washer of a size. -/
def washer (size : Int) : Value := .object [("size", .ofInt size)]

/-- Parameters that select washers of a size from two boxes, one of which holds something else. -/
def washers : Value :=
  .object [("collection", .object [("first", .array [washer 4, .null, washer 6]),
      ("second", washer 6)]),
    ("path", .string "size"), ("propName", .string "size"), ("propValue", .ofInt 6),
    ("value", .ofInt 6)]

/-- Two of the four items are selected, and the first of them is found. -/
theorem washers_agree :
    Interleaves [washer 6, washer 6] [washer 4, .null] [washer 4, .null, washer 6, washer 6] ∧
      filter washers = .ok (.array [washer 6, washer 6]) ∧
      filterNot washers = .ok (.array [washer 4, .null]) ∧ find washers = .ok (washer 6) := by
  have selects : Selects washers (value washers "collection") "size" (some (.ofInt 6)) :=
    ⟨rfl, rfl, rfl⟩
  obtain ⟨splits, -, finds⟩ := selections_agree washers
  obtain ⟨kept, dropped, keeps, drops, parts, -⟩ := splits _ _ _ selects
  have single : Path.segments "size" = ["size"] :=
    Path.segments_eq_singleton_iff.mpr (by simp [Path.isSeparator])
  obtain ⟨found, finds_kept, first⟩ := finds "size" rfl single washers selects
  have kept_eq : filter washers = .ok (.array [washer 6, washer 6]) := by decide +kernel
  have dropped_eq : filterNot washers = .ok (.array [washer 4, .null]) := by decide +kernel
  rw [kept_eq] at keeps finds_kept
  rw [dropped_eq] at drops
  cases keeps
  cases drops
  cases finds_kept
  exact ⟨parts, kept_eq, dropped_eq, first⟩

end StepGraph.Collections
