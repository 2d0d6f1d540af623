import StepGraph.Evaluation.Steps
import StepGraph.Json.Printer
import StepGraph.Proofs.Addressing
import StepGraph.Proofs.Contents

/-!
# Keys and segments

A value is entered in two ways. A path enters it by a segment, which is a text; a key is a value of
its own, a string or a number, and for an array a number is taken as the position that it is, with
no text in between. Both ways lead to the same entry. The digits of a natural number are read
back as that number, and they fit a word exactly when the number does. No other number is read as a
position: a negative integer has its sign in front, and a double has a point or an exponent.
-/
namespace StepGraph

/-! ## Numbers read back from their text -/

namespace Path

/-- What writes a position consists of digits and a plus sign. -/
theorem Writes.isDigit_of_mem {text : String} {position : Nat} (written : Writes text position)
    {character : Char} (inside : character ∈ text.toList) :
    character = '+' ∨ character.isDigit = true := by
  obtain ⟨digits, plain | signed, -, digital, -⟩ := written
  · rw [plain] at inside
    exact .inr (digital character inside)
  · rw [signed] at inside
    rcases List.mem_cons.mp inside with sign | later
    · exact .inl sign
    · exact .inr (digital character later)

/-- A text with a character that is neither a digit nor a plus sign writes no position. -/
theorem position?_eq_none_of_mem {text : String} {character : Char}
    (inside : character ∈ text.toList) (unsigned : character ≠ '+')
    (other : character.isDigit = false) : position? text = none := by
  rw [Option.eq_none_iff_forall_ne_some]
  intro position named
  rcases (position?_eq_some_iff.mp named).isDigit_of_mem inside with sign | digit
  · exact unsigned sign
  · rw [other] at digit
    cases digit

/-- The digits of a natural number write that number, as long as it fits a word. -/
theorem writes_toString_iff {value position : Nat} :
    Writes (toString value) position ↔ value = position ∧ value < Number.wordCount := by
  have spelled : (toString value).toList = Nat.toDigits 10 value := Nat.toList_repr
  have digital : ∀ digit ∈ Nat.toDigits 10 value, digit.isDigit = true :=
    fun digit member => Nat.isDigit_of_mem_toDigits (by decide) (by decide) member
  have read : Nat.ofDigitChars 10 (Nat.toDigits 10 value) 0 = value :=
    Nat.ofDigitChars_toDigits (by decide) (by decide)
  constructor
  · rintro ⟨digits, plain | signed, -, -, named, fits⟩
    · rw [← plain, spelled, read] at named
      exact ⟨named, named ▸ fits⟩
    · have sign := digital '+' (by rw [← spelled, signed]; exact List.mem_cons_self)
      cases sign
  · rintro ⟨rfl, fits⟩
    exact ⟨_, .inl spelled, Nat.toDigits_ne_nil, digital, read, fits⟩

end Path

namespace Double

/-- A numeral is written with a point or an exponent. -/
theorem Numeral.point_or_exponent_mem_text (written : Numeral) :
    '.' ∈ written.text.toList ∨ 'e' ∈ written.text.toList := by
  rw [Numeral.text]
  -- Inside the plain range there is a point, on either side of one, and outside an exponent.
  split
  · left
    split <;> simp
  · right
    simp

/-- A double is written with a point or an exponent. -/
theorem point_or_exponent_mem_text (double : Float) :
    '.' ∈ (text double).toList ∨ 'e' ∈ (text double).toList := by
  rw [text, String.toList_append]
  by_cases zero : units double = 0
  · rw [if_pos zero]
    exact .inl (List.mem_append_right _ (by decide))
  · rw [if_neg zero]
    rcases (numeral double).point_or_exponent_mem_text with point | exponent
    · exact .inl (List.mem_append_right _ point)
    · exact .inr (List.mem_append_right _ exponent)

end Double

/-- The text of a number is read as the position that the number names. -/
theorem Number.position?_text (number : Number) :
    Path.position? number.text = number.position? := by
  cases number with
  | integer value =>
    cases value with
    | ofNat value =>
      apply Option.ext
      intro position
      have digits : Path.position? (toString value) = some position ↔
          value = position ∧ value < wordCount :=
        Path.position?_eq_some_iff.trans Path.writes_toString_iff
      show Path.position? (toString value) = some position ↔ _
      rw [digits, position?]
      simp [and_comm]
    | negSucc value =>
      -- A plus sign would be passed over, but a minus sign is no digit.
      have sign : '-' ∈ (text (.integer (.negSucc value))).toList := by
        show '-' ∈ ("-" ++ toString (value + 1)).toList
        simp
      exact Path.position?_eq_none_of_mem sign (by decide) (by decide)
  | double value =>
    rcases Double.point_or_exponent_mem_text value with point | exponent
    · exact Path.position?_eq_none_of_mem point (by decide) (by decide)
    · exact Path.position?_eq_none_of_mem exponent (by decide) (by decide)

/-- A number names a position when it is the integer of that position and fits a word. -/
theorem Number.position?_eq_some_iff {number : Number} {position : Nat} :
    number.position? = some position ↔
      number = .integer position ∧ position < wordCount := by
  constructor
  · intro named
    unfold position? at named
    split at named
    · rename_i value
      by_cases fits : value < wordCount
      · rw [if_pos fits] at named
        obtain rfl := Option.some.inj named
        exact ⟨rfl, fits⟩
      · rw [if_neg fits] at named
        cases named
    · cases named
  · rintro ⟨rfl, fits⟩
    exact if_pos fits

/-! ## Entries -/

/-- The text of a key: a string itself, and a number as it is written. Nothing else is a key. -/
def Value.keyText? : Value → Option String
  | .string text => some text
  | .number stored => some (Json.compact (.number stored))
  | _ => none

/-- A number leads into an array as the position that it names. -/
theorem Path.child?_array_text (items : List Value) (number : Number) :
    Path.Addressable.child? (Value.array items) number.text =
      number.position?.bind fun position => items[position]? := by
  show (position? number.text).bind _ = _
  rw [number.position?_text]

/-- A number leads to an item of an array when it is the integer of the position of the item. -/
theorem Path.child?_array_eq_some_iff {items : List Value} {number : Number} {entry : Value} :
    Path.Addressable.child? (Value.array items) number.text = some entry ↔
      ∃ position : Nat, number = .integer position ∧ position < Number.wordCount ∧
        items[position]? = some entry := by
  rw [child?_array_text, Option.bind_eq_some_iff]
  simp only [Number.position?_eq_some_iff, and_assoc]

/-- A key selects from an object or an array what its text leads to, and null when that is
nothing. -/
theorem entryAt_of_keyText? (step : String) {holder key : Value} {text : String}
    (entered : ¬holder.IsScalar) (named : key.keyText? = some text) :
    entryAt step holder key = .ok ((Path.Addressable.child? holder text).getD .null) := by
  cases holder with
  | object fields =>
    cases key <;> cases named <;> rfl
  | array items =>
    cases key with
    | string name =>
      cases named
      rfl
    | number stored =>
      cases named
      have same := Path.child?_array_text items stored
      exact congrArg (fun entry => Except.ok (entry.getD .null)) same.symm
    | _ => cases named
  | _ => exact absurd trivial entered

/-- Nothing is selected from a value that holds no others, or by a value that is no key. -/
theorem entryAt_of_mismatch (step : String) {holder key : Value}
    (mismatch : holder.IsScalar ∨ key.keyText? = none) :
    entryAt step holder key = .error (.typeMismatch step (.index holder.kind key.kind)) := by
  rcases mismatch with scalar | unnamed
  · cases holder with
    | object fields => exact scalar.elim
    | array items => exact scalar.elim
    | _ => rfl
  · cases key with
    | string name => cases unnamed
    | number stored => cases unnamed
    | _ => cases holder <;> rfl

/-- Selecting by a key agrees with entering by a segment. It fails exactly when the value holds no
others or the key is neither a string nor a number, always with the kinds of the two. Otherwise the
answer is what the text of the key leads to in one step, or null. The text of a number leads to an
item of an array exactly when the number is the integer of the position of the item: no other
integer does so, and no double. -/
theorem entryAt_agrees (step : String) (holder key : Value) :
    (entryAt step holder key = .error (.typeMismatch step (.index holder.kind key.kind)) ↔
      holder.IsScalar ∨ key.keyText? = none) ∧
    (∀ text, ¬holder.IsScalar → key.keyText? = some text →
      entryAt step holder key = .ok ((Path.Addressable.child? holder text).getD .null)) ∧
    ∀ items number entry,
      Path.Addressable.child? (Value.array items) (Json.compact (.number number)) = some entry ↔
        ∃ position : Nat, number = .integer position ∧ position < Number.wordCount ∧
          items[position]? = some entry := by
  refine ⟨⟨fun failed => ?_, entryAt_of_mismatch step⟩,
    fun text entered named => entryAt_of_keyText? step entered named,
    fun items number entry => Path.child?_array_eq_some_iff⟩
  by_contra sound
  obtain ⟨entered, named⟩ := not_or.mp sound
  obtain ⟨text, spelled⟩ := Option.ne_none_iff_exists'.mp named
  rw [entryAt_of_keyText? step entered spelled] at failed
  cases failed

/-- The integer of a position selects from an array. The double of the same position does not, nor
does a negative integer. -/
theorem whole_key_selects :
    entryAt "pick" (.array [.bool true, .bool false]) (.ofInt 1) = .ok (.bool false) ∧
      entryAt "pick" (.array [.bool true, .bool false]) (.number (.double 1.0)) = .ok .null ∧
      entryAt "pick" (.array [.bool true, .bool false]) (.ofInt (-1)) = .ok .null := by
  have selects (key : Value) (text : String) (named : key.keyText? = some text) :=
    (entryAt_agrees "pick" (.array [.bool true, .bool false]) key).2.1 text not_false named
  refine ⟨?_, ?_, ?_⟩
  · exact (selects (.ofInt 1) "1" (by decide +kernel)).trans (by decide +kernel)
  · exact (selects (.number (.double 1.0)) "1.0" (by decide +kernel)).trans (by decide +kernel)
  · exact (selects (.ofInt (-1)) "-1" (by decide +kernel)).trans (by decide +kernel)

end StepGraph
