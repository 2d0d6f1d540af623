import StepGraph.Evaluation.Steps
import StepGraph.Proofs.LooseEquality
import StepGraph.Transform.Collections
import StepGraph.Transform.Logic

/-!
# How integers compare

Integers compare through the doubles nearest to them: as if each were rounded to 53 binary digits
first. Up to two to the power 53 in either direction this is the comparison of the integers
themselves, and so it is wherever no two different ones share their nearest double. Beyond, loose
equality, and with it all that tests for it, takes two integers that do for the same.
-/
namespace StepGraph

/-- An integer is replaced by the whole number of its nearest double. -/
def Number.rounded : Number → Number
  | .integer whole => .integer (Double.nearestInt whole)
  | .double value => .double value

/-- An integer as so many units. -/
def Number.toUnits : Number → Number
  | .integer whole => .integer (whole * Double.unitsPerOne)
  | .double value => .double value

/-- So many units as an integer. -/
def Number.ofUnits : Number → Number
  | .integer units => .integer (units / Double.unitsPerOne)
  | .double value => .double value

/-- A stored integer that fits its word and is an allowed one. -/
def Number.IsInteger (allowed : Int → Prop) (stored : Number) : Prop :=
  ∃ whole, stored = .integer whole ∧ Number.fitsWord whole = true ∧ allowed whole

/-- An integer that is stored as one fits its word. -/
theorem Number.IsInteger.fits {allowed : Int → Prop} {whole : Int}
    (integer : (Number.integer whole).IsInteger allowed) : Number.fitsWord whole = true := by
  obtain ⟨same, equal, fits, -⟩ := integer
  exact Number.integer.inj equal ▸ fits

namespace Value

/-- The value with every integer replaced by the whole number of its nearest double. -/
def rounded (value : Value) : Value := value.mapNumbers Number.rounded

/-- Canonical values whose numbers are all integers, and allowed ones. -/
structure Integral (allowed : Int → Prop) (value : Value) : Prop where
  /-- Keys ascend in every object. -/
  canonical : value.Canonical
  /-- There are no doubles. -/
  integers : value.EveryNumber (Number.IsInteger allowed)

variable {allowed : Int → Prop}

/-! ## Parts of values of integers -/

/-- An array is integral when its items are. -/
theorem integral_array {items : List Value} :
    (Value.array items).Integral allowed ↔ ∀ item ∈ items, item.Integral allowed := by
  constructor
  · rintro ⟨canonical, integers⟩ item member
    exact ⟨canonicalItems_iff.mp canonical item member, everyNumber_array.mp integers item member⟩
  · intro each
    exact ⟨canonicalItems_iff.mpr fun item member => (each item member).canonical,
      everyNumber_array.mpr fun item member => (each item member).integers⟩

/-- The values in an integral object are integral. -/
theorem Integral.of_mem {fields : Object} (integral : (Value.object fields).Integral allowed)
    {entry : String × Value} (member : entry ∈ fields) : entry.2.Integral allowed :=
  ⟨canonicalFields_iff.mp integral.canonical.2 entry member,
    everyNumber_object.mp integral.integers entry member⟩

/-- A field of an integral value is integral. -/
theorem Integral.of_field? {value child : Value} (integral : value.Integral allowed) {key : String}
    (found : value.field? key = some child) : child.Integral allowed := by
  cases value with
  | object fields => exact integral.of_mem (Dictionary.mem_of_find?_eq_some found)
  | _ => simp [field?, fields?] at found

/-- An allowed integer is an integral value. -/
theorem integral_number {stored : Number} (integer : stored.IsInteger allowed) :
    (Value.number stored).Integral allowed := by
  refine ⟨?_, integer⟩
  obtain ⟨whole, rfl, fits, -⟩ := integer
  exact fits

/-- Null has no numbers. -/
theorem integral_null : Value.null.Integral allowed := ⟨trivial, trivial⟩

/-- A parameter of an integral value is integral. -/
theorem Integral.parameter {params : Value} (integral : params.Integral allowed) (name : String) :
    (Parameters.value params name).Integral allowed := by
  rw [Parameters.value]
  cases found : params.field? name with
  | none => exact integral_null
  | some child => exact integral.of_field? found

/-- What segments reach in an integral value is integral. -/
theorem Integral.of_reaches {value result : Value} (integral : value.Integral allowed)
    {parts : List String} (reached : Path.Reaches value parts result) :
    result.Integral allowed := by
  induction reached with
  | here value => exact integral
  | field stored _ ih => exact ih (integral.of_mem (Dictionary.mem_of_find?_eq_some stored))
  | item _ stored _ ih => exact ih (integral_array.mp integral _ (List.mem_of_getElem? stored))

/-- The operands in an integral collection are integral. -/
theorem Integral.of_mem_operands {collection : Value} (integral : collection.Integral allowed) :
    ∀ item ∈ Parameters.operands collection, item.Integral allowed := by
  have inFields (fields : Object) (held : (Value.object fields).Integral allowed) :
      ∀ value ∈ Dictionary.values fields, value.Integral allowed := by
    intro value inside
    obtain ⟨entry, stored, rfl⟩ := List.mem_map.mp inside
    exact held.of_mem stored
  intro item member
  exact (Parameters.forall_mem_operands (motive := fun value => value.Integral allowed)
    (fun items => integral_array.mp) inFields integral item member).2

/-! ## Loose equality of values of integers -/

/-- The units of an integral value are those of its rounded numbers. -/
theorem Integral.inUnits_eq {value : Value} (integral : value.Integral allowed) :
    value.inUnits = value.rounded.mapNumbers Number.toUnits := by
  rw [inUnits, rounded, mapNumbers_mapNumbers]
  refine mapNumbers_congr (fun stored integer => ?_) value integral.integers
  obtain ⟨whole, rfl, fits, -⟩ := integer
  exact congrArg Number.integer (Double.value_ofInt fits)

/-- The rounded numbers of an integral value can be read off its units. -/
theorem Integral.rounded_eq {value : Value} (integral : value.Integral allowed) :
    value.rounded = value.inUnits.mapNumbers Number.ofUnits := by
  rw [inUnits, rounded, mapNumbers_mapNumbers]
  refine mapNumbers_congr (fun stored integer => ?_) value integral.integers
  obtain ⟨whole, rfl, fits, -⟩ := integer
  refine congrArg Number.integer ?_
  rw [Number.toDouble, Double.value_ofInt fits]
  exact (Int.mul_ediv_cancel _ (Int.natCast_ne_zero.mpr (Double.powerOfTwo_pos 1074).ne')).symm

/-- Integral values are loosely equal when they are the same after rounding. -/
theorem looselyEqual_iff_rounded {left right : Value} (leftIntegral : left.Integral allowed)
    (rightIntegral : right.Integral allowed) :
    left.looselyEqual right = true ↔ left.rounded = right.rounded := by
  rw [looselyEqual_iff leftIntegral.canonical rightIntegral.canonical]
  constructor
  · intro same
    rw [leftIntegral.rounded_eq, rightIntegral.rounded_eq, same]
  · intro same
    rw [leftIntegral.inUnits_eq, rightIntegral.inUnits_eq, same]

/-- No two different ones of the allowed integers have the same nearest double. -/
def KeptApart (allowed : Int → Prop) : Prop :=
  ∀ first second : Number, first.IsInteger allowed → second.IsInteger allowed →
    first.rounded = second.rounded → first = second

/-- Where no two different integers share their double, integral values are loosely equal when they
are the same. -/
theorem looselyEqual_iff_eq (apart : KeptApart allowed) {left right : Value}
    (leftIntegral : left.Integral allowed) (rightIntegral : right.Integral allowed) :
    left.looselyEqual right = true ↔ left = right := by
  rw [looselyEqual_iff_rounded leftIntegral rightIntegral]
  exact ⟨eq_of_mapNumbers_eq apart leftIntegral.integers rightIntegral.integers,
    congrArg rounded⟩

end Value

open Parameters

/-- The functions that test for equality test by this. -/
structure TestsBy (same : Value → Value → Bool) (params : Value) : Prop where
  /-- `eq` tests its two operands. -/
  eq : Logic.eq params = .ok (.bool (same (value params "a") (value params "b")))
  /-- `includes` tests the items of an array. -/
  includes (items : List Value) : value params "isIncludedIn" = .array items →
    Logic.includes params = .ok (.bool (items.any fun item => same item (value params "item")))
  /-- `filter` and `filterNot` test what stands at a path. -/
  selected (keep : Bool → Bool) (path : String) : string params "path" = .ok path →
    Collections.selected keep params =
      .ok (.array ((operands (value params "collection")).filter fun item =>
        keep ((Path.lookup item path).any fun found =>
          same found ((params.field? "value").getD (.bool true)))))
  /-- `find` tests a field. -/
  find (key : String) : string params "propName" = .ok key →
    Collections.find params =
      .ok (((operands (value params "collection")).find? fun item =>
        (item.field? key).any fun found => same found (value params "propValue")).getD .null)

/-- The comparisons of two operands are those of these integers. -/
structure OrdersAs (left right : Int) (params : Value) : Prop where
  /-- `gt` is greater. -/
  gt : Logic.gt params = .ok (.bool (decide (right < left)))
  /-- `lt` is less. -/
  lt : Logic.lt params = .ok (.bool (decide (left < right)))
  /-- `gte` is greater or equal. -/
  gte : Logic.gte params = .ok (.bool (decide (right ≤ left)))
  /-- `lte` is less or equal. -/
  lte : Logic.lte params = .ok (.bool (decide (left ≤ right)))

variable {allowed : Int → Prop}

section Agreement

variable {same : Value → Value → Bool}
  (agree : ∀ left right : Value, left.Integral allowed → right.Integral allowed →
    left.looselyEqual right = same left right)
include agree

/-- What is found in an integral value is tested by what agrees with loose equality. -/
theorem any_agree {found : Option Value} {expected : Value}
    (inside : ∀ value, found = some value → value.Integral allowed)
    (integral : expected.Integral allowed) :
    (found.any fun value => value.looselyEqual expected) =
      found.any fun value => same value expected := by
  cases found with
  | none => rfl
  | some value => exact agree value expected (inside value rfl) integral

/-- On parameters of integers the functions test by what agrees there with loose equality. -/
theorem testsBy_of_agree {params : Value} (integral : params.Integral allowed) :
    TestsBy same params where
  eq := by rw [Logic.eq, agree _ _ (integral.parameter "a") (integral.parameter "b")]
  includes items given := by
    have inside := given ▸ integral.parameter "isIncludedIn"
    have tests : items.map (fun item => item.looselyEqual (value params "item")) =
        items.map fun item => same item (value params "item") :=
      List.map_congr_left fun item member =>
        agree _ _ (Value.integral_array.mp inside item member) (integral.parameter "item")
    have anyOf := congrArg (List.any · id) tests
    simp only [List.any_map, Function.id_comp] at anyOf
    simp only [Logic.includes, given]
    exact congrArg (fun flag => Except.ok (Value.bool flag)) anyOf
  selected keep path given := by
    have expected : ((params.field? "value").getD (.bool true)).Integral allowed := by
      cases found : params.field? "value" with
      | none => exact ⟨trivial, trivial⟩
      | some value => exact integral.of_field? found
    rw [Collections.selected, given]
    refine congrArg (fun items => Except.ok (Value.array items))
      (List.filter_congr fun item member => congrArg keep (any_agree agree ?_ expected))
    intro value found
    have inside := (integral.parameter "collection").of_mem_operands item member
    exact inside.of_reaches (Path.walk_eq_some_iff.mp found).2
  find key given := by
    rw [Collections.find, given]
    refine congrArg (fun found => Except.ok (Option.getD found Value.null))
      (List.find?_congr fun item member => any_agree agree ?_ (integral.parameter "propValue"))
    have inside := (integral.parameter "collection").of_mem_operands item member
    exact fun value found => inside.of_field? found

/-- The case that integral values select is chosen by what agrees there with loose equality. -/
theorem selectedCase?_of_agree {cases : List Value} {tested : Value}
    (each : ∀ case ∈ cases, case.Integral allowed) (integral : tested.Integral allowed) :
    selectedCase? cases tested =
      (cases.findIdx? fun case => same case tested).or (cases.findIdx? isDefaultCase) := by
  have tests : cases.map (fun case => case.looselyEqual tested) =
      cases.map fun case => same case tested :=
    List.map_congr_left fun case member => agree case tested (each case member) integral
  have first := congrArg (List.findIdx? id) tests
  simp only [List.findIdx?_map, Function.id_comp] at first
  rw [selectedCase?, first]

end Agreement

/-! ## The order of integers -/

/-- Finite doubles are ordered as their values. -/
theorem Logic.orderOfDoubles_eq {left right : Float} (leftFinite : Double.isFinite left = true)
    (rightFinite : Double.isFinite right = true) :
    Logic.orderOfDoubles left right =
      some (compare (Double.value left) (Double.value right)) := by
  simp only [Logic.orderOfDoubles, Double.lt_iff leftFinite rightFinite,
    Double.lt_iff rightFinite leftFinite, Double.beq_iff leftFinite rightFinite,
    Int.compare_eq_ite_lt]
  split
  · rfl
  · split
    · rfl
    · rw [if_pos (by omega)]

/-- A comparison of two integers that fit their words accepts the order of their nearest doubles. -/
theorem Logic.compared_integers {left right : Int} {params : Value}
    (leftFits : Number.fitsWord left = true) (rightFits : Number.fitsWord right = true)
    (first : value params "a" = .ofInt left) (second : value params "b" = .ofInt right)
    (accept : Ordering → Bool) : Logic.compared accept params =
      .ok (.bool (accept (compare (Double.nearestInt left) (Double.nearestInt right)))) := by
  have scaled : compare (Double.nearestInt left * Double.unitsPerOne)
      (Double.nearestInt right * Double.unitsPerOne) =
        compare (Double.nearestInt left) (Double.nearestInt right) := by
    have positive : (0 : Int) < Double.unitsPerOne :=
      Int.natCast_pos.mpr (Double.powerOfTwo_pos 1074)
    rw [Int.compare_eq_ite_lt, Int.compare_eq_ite_lt]
    simp only [Int.mul_lt_mul_right positive]
  rw [Logic.compared, first, second]
  change Except.ok (Value.bool ((Logic.orderOfDoubles (Double.ofInt left) (Double.ofInt right)).any
    accept)) = _
  rw [Logic.orderOfDoubles_eq (Double.isFinite_ofInt leftFits) (Double.isFinite_ofInt rightFits),
    Double.value_ofInt leftFits, Double.value_ofInt rightFits, scaled, Option.any_some]

/-- Comparisons that accept the order of two integers are those of the integers. -/
theorem ordersAs_of_compared {left right : Int} {params : Value}
    (accepted : ∀ accept,
      Logic.compared accept params = .ok (.bool (accept (compare left right)))) :
    OrdersAs left right params where
  gt := by
    rw [Logic.gt, accepted, Bool.eq_iff_iff.mpr (Ordering.isGT_iff_eq_gt.trans
      (Int.compare_eq_gt.trans decide_eq_true_iff.symm))]
  lt := by
    rw [Logic.lt, accepted, Bool.eq_iff_iff.mpr (Ordering.isLT_iff_eq_lt.trans
      (Int.compare_eq_lt.trans decide_eq_true_iff.symm))]
  gte := by
    rw [Logic.gte, accepted, Bool.eq_iff_iff.mpr (Ordering.isGE_iff_ne_lt.trans
      (Int.compare_ne_lt.trans decide_eq_true_iff.symm))]
  lte := by
    rw [Logic.lte, accepted, Bool.eq_iff_iff.mpr (Ordering.isLE_iff_ne_gt.trans
      (Int.compare_ne_gt.trans decide_eq_true_iff.symm))]

/-- Where no two different integers share their double, rounding keeps the order of two of them. -/
theorem nearestInt_lt_iff {left right : Int} (apart : Value.KeptApart allowed)
    (leftHeld : (Number.integer left).IsInteger allowed)
    (rightHeld : (Number.integer right).IsInteger allowed) :
    Double.nearestInt left < Double.nearestInt right ↔ left < right := by
  constructor
  · intro less
    by_contra notLess
    exact absurd (Double.nearestInt_mono (not_lt.mp notLess)) (not_le.mpr less)
  · intro less
    refine lt_of_le_of_ne (Double.nearestInt_mono less.le) fun same => less.ne ?_
    exact Number.integer.inj (apart _ _ leftHeld rightHeld (congrArg Number.integer same))

/-- Up to two to the power 53 in either direction no two integers share their double. -/
theorem keptApart_of_small (small : ∀ whole, allowed whole → whole.natAbs ≤ Double.powerOfTwo 53) :
    Value.KeptApart allowed := by
  rintro _ _ ⟨first, rfl, -, held⟩ ⟨second, rfl, -, held'⟩ same
  have equal := Number.integer.inj same
  rw [Double.nearestInt_of_small (small first held),
    Double.nearestInt_of_small (small second held')] at equal
  exact congrArg Number.integer equal

/-- Values of allowed integers compare, wherever they are compared, as what they are brought to, and
integers are ordered as the places they are given. -/
structure ComparesThrough (allowed : Int → Prop) (form : Value → Value) (place : Int → Int) :
    Prop where
  /-- Loose equality is equality of what the values are brought to. -/
  equal (left right : Value) : left.Integral allowed → right.Integral allowed →
    (left.looselyEqual right = true ↔ form left = form right)
  /-- So it is where a function tests for it. -/
  tests (params : Value) : params.Integral allowed →
    TestsBy (fun left right => decide (form left = form right)) params
  /-- A branch takes the first case that is brought to the same as the tested value. -/
  case (cases : List Value) (tested : Value) : (∀ case ∈ cases, case.Integral allowed) →
    tested.Integral allowed → selectedCase? cases tested =
      (cases.findIdx? fun case => decide (form case = form tested)).or
        (cases.findIdx? isDefaultCase)
  /-- The comparisons of two integers are those of their places. -/
  orders (left right : Int) (params : Value) : (Number.integer left).IsInteger allowed →
    (Number.integer right).IsInteger allowed → value params "a" = .ofInt left →
      value params "b" = .ofInt right → OrdersAs (place left) (place right) params

/-- Loose equality and order are all that the comparisons of integers come from. -/
theorem comparesThrough {form : Value → Value} {place : Int → Int}
    (equal : ∀ left right : Value, left.Integral allowed → right.Integral allowed →
      (left.looselyEqual right = true ↔ form left = form right))
    (less : ∀ left right : Int, (Number.integer left).IsInteger allowed →
      (Number.integer right).IsInteger allowed →
        (Double.nearestInt left < Double.nearestInt right ↔ place left < place right)) :
    ComparesThrough allowed form place := by
  have agree (left right : Value) (leftIntegral : left.Integral allowed)
      (rightIntegral : right.Integral allowed) :
      left.looselyEqual right = decide (form left = form right) := by
    rw [Bool.eq_iff_iff, decide_eq_true_iff]
    exact equal left right leftIntegral rightIntegral
  refine ⟨equal, fun params => testsBy_of_agree agree,
    fun cases tested => selectedCase?_of_agree agree, ?_⟩
  intro left right params leftHeld rightHeld first second
  have order : compare (Double.nearestInt left) (Double.nearestInt right) =
      compare (place left) (place right) := by
    simp only [Int.compare_eq_ite_lt, less left right leftHeld rightHeld,
      less right left rightHeld leftHeld]
  refine ordersAs_of_compared fun accept => ?_
  rw [Logic.compared_integers leftHeld.fits rightHeld.fits first second, order]

/-- Integers compare through their nearest doubles, whichever are allowed. Values of integers are
loosely equal when they are the same after rounding, and two integers are ordered as their nearest
doubles, which never turns their order round. Exactly where no two different integers share their
nearest double the integers themselves are compared, in every function that compares, and so they
are up to two to the power 53 in either direction. -/
theorem integers_compare_through_doubles (allowed : Int → Prop) :
    ComparesThrough allowed Value.rounded Double.nearestInt ∧
      Monotone Double.nearestInt ∧
      (ComparesThrough allowed id id ↔ Value.KeptApart allowed) ∧
      ((∀ whole, allowed whole → whole.natAbs ≤ Double.powerOfTwo 53) →
        Value.KeptApart allowed) := by
  refine ⟨comparesThrough (fun left right => Value.looselyEqual_iff_rounded)
    (fun _ _ _ _ => Iff.rfl), Double.nearestInt_mono, ⟨?_, fun apart => ?_⟩,
    keptApart_of_small⟩
  · intro compares first second firstHeld secondHeld same
    have firstIntegral := Value.integral_number firstHeld
    have secondIntegral := Value.integral_number secondHeld
    have equal := (Value.looselyEqual_iff_rounded firstIntegral secondIntegral).mpr
      (congrArg Value.number same)
    exact Value.number.inj ((compares.equal _ _ firstIntegral secondIntegral).mp equal)
  · exact comparesThrough (fun left right => Value.looselyEqual_iff_eq apart)
      (fun left right => nearestInt_lt_iff apart)

/-- Two integers beyond two to the power 53 that differ by two are told apart. -/
theorem distant_integers_ordered :
    Logic.gt (.object [("a", .ofInt 9007199254740995), ("b", .ofInt 9007199254740993)]) =
      .ok (.bool true) := by
  have compares := (integers_compare_through_doubles fun _ => True).1
  have orders := compares.orders 9007199254740995 9007199254740993
    (.object [("a", .ofInt 9007199254740995), ("b", .ofInt 9007199254740993)])
    ⟨_, rfl, by decide, trivial⟩ ⟨_, rfl, by decide, trivial⟩ rfl rfl
  exact orders.gt.trans (congrArg (fun flag => Except.ok (Value.bool flag)) (by decide))

/-- Two to the power 53 and the integer after it are not: they are loosely equal, and neither is
greater. -/
theorem neighbours_confused :
    Value.ofInt 9007199254740993 ≠ .ofInt 9007199254740992 ∧
      Logic.eq (.object [("a", .ofInt 9007199254740993), ("b", .ofInt 9007199254740992)]) =
        .ok (.bool true) ∧
      Logic.gt (.object [("a", .ofInt 9007199254740993), ("b", .ofInt 9007199254740992)]) =
        .ok (.bool false) ∧
      ¬ComparesThrough (fun _ => True) id id := by
  have equal : (Value.ofInt 9007199254740993).looselyEqual (.ofInt 9007199254740992) = true := by
    decide +kernel
  have different : Value.ofInt 9007199254740993 ≠ .ofInt 9007199254740992 := by decide
  refine ⟨different, congrArg (fun flag => Except.ok (Value.bool flag)) equal, ?_, ?_⟩
  · refine (Logic.compared_integers (by decide : Number.fitsWord 9007199254740993 = true)
      (by decide : Number.fitsWord 9007199254740992 = true) rfl rfl Ordering.isGT).trans ?_
    exact congrArg (fun flag => Except.ok (Value.bool flag)) (by decide)
  · intro exactly
    exact different ((exactly.equal _ _ (Value.integral_number ⟨_, rfl, by decide, trivial⟩)
      (Value.integral_number ⟨_, rfl, by decide, trivial⟩)).mp equal)

end StepGraph
