import StepGraph.Proofs.Double.Nearest
import StepGraph.Proofs.Renumbering
import StepGraph.Value.Equality

/-!
# Loose equality by normal form

Loosely equal values become the same value when every number in them is replaced by the units of
its double: `inUnits` is a normal form of loose equality. So loose equality is an equivalence,
and since paths do not see numbers, they lead in loosely equal values to loosely equal ones.

Of two objects the check compares the sizes and looks up each key of the left one in the right
one only. A dictionary holds no key twice, so that this makes the keys the same.
-/
namespace StepGraph

/-- The double of a stored number is finite. -/
theorem Number.isFinite_toDouble {stored : Number} (canonical : (Value.number stored).Canonical) :
    Double.isFinite stored.toDouble = true := by
  cases stored with
  | integer number => exact Double.isFinite_ofInt canonical
  | double number => exact canonical

/-- Keys that are all among as many others are the same keys. -/
theorem Dictionary.keys_subset_of_length_le {α β : Type} {left : Dictionary α}
    {right : Dictionary β} (sorted : Sorted left) (covered : keys left ⊆ keys right)
    (lengths : right.length ≤ left.length) : keys right ⊆ keys left := by
  have fewer : (keys right).length ≤ (keys left).length := by simpa [keys] using lengths
  exact ((List.subperm_of_subset (nodup_keys sorted) covered).perm_of_length_le fewer).symm.subset

/-- A change of the values keeps the order of the keys. -/
theorem Dictionary.sorted_map {α β : Type} {change : α → β} {entries : Dictionary α}
    (sorted : Sorted entries) : Sorted (entries.map fun entry => (entry.1, change entry.2)) :=
  List.pairwise_map.mpr sorted

namespace Value

/-- A value with every number replaced by the units of its double. -/
def inUnits (value : Value) : Value :=
  value.mapNumbers fun stored => .integer (Double.value stored.toDouble)

/-- Fields are loosely equal to others when each finds a loosely equal one of its key. -/
theorem looselyEqualFields_iff {left right : Object} :
    looselyEqualFields left right = true ↔ ∀ entry ∈ left, ∃ found,
      Dictionary.find? right entry.1 = some found ∧ entry.2.looselyEqual found = true := by
  induction left with
  | nil => exact ⟨fun _ => nofun, fun _ => rfl⟩
  | cons entry rest ih =>
    rw [looselyEqualFields, Bool.and_eq_true, ih, List.forall_mem_cons]
    refine and_congr_left fun _ => ?_
    cases Dictionary.find? right entry.1 <;> simp

/-- Canonical numbers are loosely equal when their doubles have the same units. -/
theorem looselyEqual_number {left right : Number} (leftCanonical : (Value.number left).Canonical)
    (rightCanonical : (Value.number right).Canonical) :
    (Value.number left).looselyEqual (.number right) = true ↔
      Double.value left.toDouble = Double.value right.toDouble := by
  rw [looselyEqual]
  exact Double.beq_iff (Number.isFinite_toDouble leftCanonical)
    (Number.isFinite_toDouble rightCanonical)

/-- Lists are loosely equal when their normal forms are the same, if this holds of their items. -/
theorem looselyEqualItems_iff {left right : List Value}
    (each : ∀ item ∈ left, ∀ other ∈ right,
      (item.looselyEqual other = true ↔ item.inUnits = other.inUnits)) :
    looselyEqualItems left right = true ↔ left.map inUnits = right.map inUnits := by
  induction left generalizing right with
  | nil => cases right <;> simp [looselyEqualItems]
  | cons item rest ih =>
    cases right with
    | nil => simp [looselyEqualItems]
    | cons other others =>
      have here := each item List.mem_cons_self other List.mem_cons_self
      have later := ih fun item member other member' =>
        each item (List.mem_cons_of_mem _ member) other (List.mem_cons_of_mem _ member')
      rw [looselyEqualItems, Bool.and_eq_true, here, later, List.map_cons, List.map_cons,
        List.cons.injEq]

/-- Objects are loosely equal when their normal forms are the same, if this holds of the values
under their common keys. -/
theorem looselyEqual_object {left right : Object} (leftSorted : Dictionary.Sorted left)
    (rightSorted : Dictionary.Sorted right)
    (each : ∀ key child other, Dictionary.find? left key = some child →
      Dictionary.find? right key = some other →
        (child.looselyEqual other = true ↔ child.inUnits = other.inUnits)) :
    (Value.object left).looselyEqual (.object right) = true ↔
      (Value.object left).inUnits = (Value.object right).inUnits := by
  rw [looselyEqual, Bool.and_eq_true, beq_iff_eq, looselyEqualFields_iff, inUnits, inUnits,
    mapNumbers_object, mapNumbers_object, object.injEq]
  constructor
  · rintro ⟨lengths, covered⟩
    have included : Dictionary.keys left ⊆ Dictionary.keys right := fun key member => by
      obtain ⟨entry, held, rfl⟩ := List.mem_map.mp member
      obtain ⟨other, stored, -⟩ := covered entry held
      exact Dictionary.mem_keys_iff.mpr (Option.isSome_of_eq_some stored)
    have same := Dictionary.keys_subset_of_length_le leftSorted included lengths.ge
    refine Dictionary.eq_of_find?_eq (Dictionary.sorted_map leftSorted)
      (Dictionary.sorted_map rightSorted) fun key => ?_
    rw [Dictionary.find?_map, Dictionary.find?_map]
    cases found : Dictionary.find? left key with
    | none =>
      have absent : key ∉ Dictionary.keys right := fun member =>
        Dictionary.find?_eq_none_iff.mp found (same member)
      rw [Dictionary.find?_eq_none_iff.mpr absent]
    | some child =>
      obtain ⟨other, stored, equal⟩ := covered _ (Dictionary.mem_of_find?_eq_some found)
      rw [stored, Option.map_some, Option.map_some]
      exact congrArg some ((each key child other found stored).mp equal)
  · intro same
    refine ⟨by simpa using congrArg List.length same, fun entry member => ?_⟩
    have found := (Dictionary.find?_eq_some_iff leftSorted).mpr member
    have image := congrArg (Dictionary.find? · entry.1) same
    simp only [Dictionary.find?_map, found, Option.map_some] at image
    obtain ⟨other, stored, equal⟩ := Option.map_eq_some_iff.mp image.symm
    exact ⟨other, stored, (each entry.1 entry.2 other found stored).mpr equal.symm⟩

/-- Canonical values are loosely equal when their normal forms are the same. -/
theorem looselyEqual_iff {left right : Value} (leftCanonical : left.Canonical)
    (rightCanonical : right.Canonical) :
    left.looselyEqual right = true ↔ left.inUnits = right.inUnits := by
  induction left using members_induction generalizing right with
  | scalar left plain =>
    cases left with
    | array _ | object _ => exact plain.elim
    | number stored =>
      cases right with
      | number other =>
        rw [looselyEqual_number leftCanonical rightCanonical]
        simp [inUnits, mapNumbers]
      | _ => simp [looselyEqual, inUnits, mapNumbers]
    | _ => cases right <;> simp [looselyEqual, inUnits, mapNumbers]
  | array items ih =>
    cases right with
    | array others =>
      have inside := canonicalItems_iff.mp leftCanonical
      have inside' := canonicalItems_iff.mp rightCanonical
      rw [looselyEqual, looselyEqualItems_iff fun item member other member' =>
        ih item member (inside item member) (inside' other member')]
      simp only [inUnits, mapNumbers_array, array.injEq]
      rfl
    | _ => simp [looselyEqual, inUnits, mapNumbers]
  | object fields ih =>
    cases right with
    | object others =>
      exact looselyEqual_object leftCanonical.1 rightCanonical.1
        fun key child other found stored => ih (key, child) (Dictionary.mem_of_find?_eq_some found)
          (leftCanonical.of_find? found) (rightCanonical.of_find? stored)
    | _ => simp [looselyEqual, inUnits, mapNumbers]

end Value

namespace Path

/-- What segments reach in a canonical value is canonical. -/
theorem Reaches.canonical {value result : Value} {parts : List String}
    (reached : Reaches value parts result) (canonical : value.Canonical) : result.Canonical := by
  induction reached with
  | here value => exact canonical
  | field stored _ ih => exact ih (canonical.of_find? stored)
  | item _ stored _ ih => exact ih (canonical.of_getElem? stored)

/-- What a canonical item contributes to a projection is canonical. -/
theorem Contributes.canonical {after : List String} {item result : Value}
    (contributed : Contributes after item result) (canonical : item.Canonical) :
    result.Canonical := by
  cases contributed with
  | found reached => exact reached.canonical canonical
  | missing _ => trivial

/-- What a path leads to in a canonical value is canonical. -/
theorem canonical_of_resolve {value result : Value} {path : String}
    (found : resolve value path = .ok (some result)) (canonical : value.Canonical) :
    result.Canonical := by
  rcases resolve_cases path with walked | refused | ⟨before, after, projected⟩
  · rw [walked, Except.ok.injEq, walk_eq_some_iff] at found
    exact found.2.canonical canonical
  · rw [refused] at found
    cases found
  · rw [projected, resolveWildcard_eq] at found
    cases reached : descend value before with
    | none => simp [reached] at found
    | some target =>
      have inner := (descend_eq_some_iff.mp reached).canonical canonical
      cases target with
      | array items =>
        simp only [reached, Value.items?, Except.ok.injEq, Option.some.injEq] at found
        subst found
        refine Value.canonicalItems_iff.mpr (List.forall_mem_map.mpr fun item member => ?_)
        exact (project_eq_iff.mp rfl).canonical (Value.canonicalItems_iff.mp inner item member)
      | _ => simp [reached, Value.items?] at found

/-- Two answers to one path that cannot be told apart by loose equality: nothing in both, the same
error in both, or loosely equal values. -/
inductive AnswersAlike :
    Except PathError (Option Value) → Except PathError (Option Value) → Prop where
  /-- Neither finds anything. -/
  | missing : AnswersAlike (.ok none) (.ok none)
  /-- Both fail with one error. -/
  | failed (cause : PathError) : AnswersAlike (.error cause) (.error cause)
  /-- Both find a value. -/
  | found {left right : Value} (equal : left.looselyEqual right = true) :
      AnswersAlike (.ok (some left)) (.ok (some right))

/-- A path leads in loosely equal values to answers alike. -/
theorem resolve_alike {left right : Value} (leftCanonical : left.Canonical)
    (rightCanonical : right.Canonical) (equal : left.looselyEqual right = true) (path : String) :
    AnswersAlike (resolve left path) (resolve right path) := by
  have forms := (Value.looselyEqual_iff leftCanonical rightCanonical).mp equal
  have answers := congrArg (resolve · path) forms
  simp only [Value.inUnits, resolve_mapNumbers] at answers
  match first : resolve left path, second : resolve right path with
  | .error cause, .error other =>
    simp only [first, second, Except.map, Except.error.injEq] at answers
    exact answers ▸ .failed cause
  | .ok none, .ok none => exact .missing
  | .ok (some result), .ok (some other) =>
    simp only [first, second, Except.map, Except.ok.injEq, Option.map_some,
      Option.some.injEq] at answers
    exact .found ((Value.looselyEqual_iff (canonical_of_resolve first leftCanonical)
      (canonical_of_resolve second rightCanonical)).mpr answers)
  | .error _, .ok _ => simp [first, second, Except.map] at answers
  | .ok _, .error _ => simp [first, second, Except.map] at answers
  | .ok none, .ok (some _) => simp [first, second, Except.map] at answers
  | .ok (some _), .ok none => simp [first, second, Except.map] at answers

end Path

namespace Value

/-- Loose equality is a congruence for paths: on canonical values it is an equivalence, and a path
finds in loosely equal values loosely equal ones, or nothing in both, or fails in both with the
same error. -/
theorem looselyEqual_congruence :
    Equivalence (fun left right : {value : Value // value.Canonical} =>
      left.1.looselyEqual right.1 = true) ∧
    ∀ left right : {value : Value // value.Canonical}, left.1.looselyEqual right.1 = true →
      ∀ path, Path.AnswersAlike (Path.resolve left.1 path) (Path.resolve right.1 path) := by
  have form (left right : {value : Value // value.Canonical}) :
      left.1.looselyEqual right.1 = true ↔ left.1.inUnits = right.1.inUnits :=
    looselyEqual_iff left.2 right.2
  refine ⟨⟨?_, ?_, ?_⟩,
    fun left right equal path => Path.resolve_alike left.2 right.2 equal path⟩
  · exact fun value => (form value value).mpr rfl
  · exact fun {left right} equal => (form right left).mpr ((form left right).mp equal).symm
  · intro first second third ahead next
    exact (form first third).mpr
      (((form first second).mp ahead).trans ((form second third).mp next))

/-- Two rows, a number in one of them. -/
def rowsOf (stored : Number) : Value :=
  .object [("rows", .array [.object [("count", .number stored)], .null])]

/-- Rows with a whole number and rows with the same number stored as a double project alike. -/
theorem rows_project_alike :
    (rowsOf (.integer 1)).Canonical ∧ (rowsOf (.double 1.0)).Canonical ∧
      (rowsOf (.integer 1)).looselyEqual (rowsOf (.double 1.0)) = true ∧
      Path.AnswersAlike (Path.resolve (rowsOf (.integer 1)) "rows.*.count")
        (Path.resolve (rowsOf (.double 1.0)) "rows.*.count") := by
  have whole : (rowsOf (.integer 1)).Canonical := by
    simp only [rowsOf, Canonical, CanonicalFields, CanonicalItems, Dictionary.Sorted]
    decide
  have double : (rowsOf (.double 1.0)).Canonical := by
    simp only [rowsOf, Canonical, CanonicalFields, CanonicalItems, Dictionary.Sorted]
    decide +kernel
  have equal : (rowsOf (.integer 1)).looselyEqual (rowsOf (.double 1.0)) = true := by
    decide +kernel
  exact ⟨whole, double, equal,
    looselyEqual_congruence.2 ⟨_, whole⟩ ⟨_, double⟩ equal "rows.*.count"⟩

end Value

end StepGraph
