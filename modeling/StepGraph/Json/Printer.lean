import StepGraph.Value.Basic

/-!
# Writing JSON text

A value has one compact text, without blanks, and one indented text, with two blanks for each
level and empty arrays and objects closed at once. Fields stand in the order of the object. In
strings only the quote, the backslash and the control characters below the blank are escaped.
-/
namespace StepGraph.Json

/-- A lower-case hexadecimal digit. -/
def hexDigit (value : Nat) : Char :=
  Nat.digitChar (value % 16)

/-- One character of a string as it is written. -/
def escaped (character : Char) : String :=
  match character with
  | '"' => "\\\""
  | '\\' => "\\\\"
  | '\x08' => "\\b"
  | '\t' => "\\t"
  | '\n' => "\\n"
  | '\x0c' => "\\f"
  | '\r' => "\\r"
  | other =>
    if other.toNat < 32 then
      "\\u00" ++ String.ofList [hexDigit (other.toNat / 16), hexDigit other.toNat]
    else other.toString

/-- A string between quotes. -/
def quoted (text : String) : String :=
  text.foldl (fun written character => written ++ escaped character) "\"" ++ "\""

mutual
/-- The text of a value without blanks. -/
def compact : Value → String
  | .null => "null"
  | .bool flag => if flag then "true" else "false"
  | .number stored => stored.text
  | .string text => quoted text
  | .array items => "[" ++ ",".intercalate (compactItems items) ++ "]"
  | .object fields => "\x7b" ++ ",".intercalate (compactFields fields) ++ "\x7d"

/-- The compact texts of items. -/
def compactItems : List Value → List String
  | [] => []
  | item :: rest => compact item :: compactItems rest

/-- The compact texts of fields, each with its key. -/
def compactFields : List (String × Value) → List String
  | [] => []
  | (key, value) :: rest => (quoted key ++ ":" ++ compact value) :: compactFields rest
end

/-- The start of a line at an indentation level. -/
def lineStart (level : Nat) : String :=
  "\n" ++ String.ofList (List.replicate (2 * level) ' ')

/-- Parts on lines of their own between two brackets, which close at once around nothing. -/
def block (level : Nat) (opening closing : String) (parts : List String) : String :=
  if parts.isEmpty then opening ++ closing
  else
    opening ++ lineStart (level + 1) ++ ("," ++ lineStart (level + 1)).intercalate parts ++
      lineStart level ++ closing

mutual
/-- The indented text of a value whose first line stands at a level. -/
def indented (level : Nat) : Value → String
  | .array items => block level "[" "]" (indentedItems (level + 1) items)
  | .object fields => block level "\x7b" "\x7d" (indentedFields (level + 1) fields)
  | .null => compact .null
  | .bool flag => compact (.bool flag)
  | .number stored => compact (.number stored)
  | .string text => compact (.string text)

/-- The indented texts of items. -/
def indentedItems (level : Nat) : List Value → List String
  | [] => []
  | item :: rest => indented level item :: indentedItems level rest

/-- The indented texts of fields, each with its key. -/
def indentedFields (level : Nat) : List (String × Value) → List String
  | [] => []
  | (key, value) :: rest =>
    (quoted key ++ ": " ++ indented level value) :: indentedFields level rest
end

/-- The indented text of a value. -/
def pretty (value : Value) : String := indented 0 value

end StepGraph.Json
