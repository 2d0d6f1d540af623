import StepGraph.Text.Invisible

/-!
# Quoted texts

A text between quotes, on one line and with nothing invisible in it: quotes and backslashes are
escaped, the common controls by a letter, and everything else without a shape of its own by its
code point in braces.
-/
namespace StepGraph.Text

/-- A code point in hexadecimal between braces. -/
def codePoint (character : Char) : String :=
  "\\u\x7b" ++ String.ofList (Nat.toDigits 16 character.toNat) ++ "\x7d"

/-- One character of a quoted text. -/
def quotedCharacter (character : Char) : String :=
  match character with
  | '\x00' => "\\0"
  | '\t' => "\\t"
  | '\n' => "\\n"
  | '\r' => "\\r"
  | '"' => "\\\""
  | '\\' => "\\\\"
  | other => if isInvisible other then codePoint other else other.toString

/-- A text between quotes. -/
def quoted (text : String) : String :=
  text.foldl (fun written character => written ++ quotedCharacter character) "\"" ++ "\""

/-- Texts between quotes in a bracketed list. -/
def quotedList (texts : List String) : String :=
  "[" ++ ", ".intercalate (texts.map quoted) ++ "]"

end StepGraph.Text
