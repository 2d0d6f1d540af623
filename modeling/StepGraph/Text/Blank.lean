/-!
# Blank characters

The characters that Unicode counts as white space, and texts made of nothing else.
-/
namespace StepGraph.Text

/-- The code points of white space, as inclusive ranges. -/
def blankRanges : List (Nat × Nat) :=
  [(0x09, 0x0D), (0x20, 0x20), (0x85, 0x85), (0xA0, 0xA0), (0x1680, 0x1680), (0x2000, 0x200A),
    (0x2028, 0x2029), (0x202F, 0x202F), (0x205F, 0x205F), (0x3000, 0x3000)]

/-- Whether a character is white space. -/
def isBlankCharacter (character : Char) : Bool :=
  blankRanges.any fun range => range.1 ≤ character.toNat && character.toNat ≤ range.2

/-- Whether a text has no character but white space. -/
def isBlank (text : String) : Bool := text.toList.all isBlankCharacter

/-- Every character that core counts as white space is blank. -/
theorem isBlankCharacter_of_isWhitespace {character : Char}
    (white : character.isWhitespace = true) : isBlankCharacter character = true := by
  simp only [Char.isWhitespace, Bool.or_eq_true, decide_eq_true_eq] at white
  rcases white with ((rfl | rfl) | rfl) | rfl <;> decide

end StepGraph.Text
