import StepGraph.Value.Basic

/-!
# Reading JSON text

A reader of the strict grammar: no blanks but space, tab and line ends, no leading zeros, no
control characters or lone surrogates in strings, nothing after the value. Of a key given twice
the last value counts. A number without fraction and exponent that fits a 64-bit word is an
integer; any other is the double nearest to it, and one too large for every double is refused.
Arrays and objects nest up to a limit.

Each function takes the characters left and returns those after what it read. The readers of
values call each other on a budget; every second call uses up a character, so twice the length
of the text is enough.
-/
namespace StepGraph.Json

/-- The characters left after blanks. -/
def skipBlanks (text : List Char) : List Char :=
  text.dropWhile fun character =>
    character = ' ' || character = '\t' || character = '\n' || character = '\r'

/-- The characters after a fixed word. -/
def skipWord : List Char → List Char → Option (List Char)
  | [], text => some text
  | wanted :: word, character :: text =>
    if wanted = character then skipWord word text else none
  | _ :: _, [] => none

/-- The digits in front and what follows them. -/
def splitDigits (text : List Char) : List Char × List Char :=
  text.span Char.isDigit

/-- The natural number that decimal digits write. -/
def digitsValue (digits : List Char) : Nat := Nat.ofDigitChars 10 digits 0

/-- The digits of the integer part: a single zero, or digits that start with another one. -/
def readWhole (text : List Char) : Option (List Char × List Char) :=
  match splitDigits text with
  | ([], _) => none
  | (['0'], rest) => some (['0'], rest)
  | ('0' :: _ :: _, _) => none
  | (digits, rest) => some (digits, rest)

/-- The digits of a fraction, if there is one. -/
def readFraction : List Char → Option (Option (List Char) × List Char)
  | '.' :: text =>
    match splitDigits text with
    | ([], _) => none
    | (digits, rest) => some (some digits, rest)
  | text => some (none, text)

/-- The digits of an exponent, with an optional sign in front. -/
def readExponentDigits (text : List Char) : Option (Int × List Char) :=
  let (negative, text) :=
    match text with
    | '-' :: rest => (true, rest)
    | '+' :: rest => (false, rest)
    | _ => (false, text)
  match splitDigits text with
  | ([], _) => none
  | (digits, rest) =>
    let magnitude : Int := digitsValue digits
    some (if negative then -magnitude else magnitude, rest)

/-- An exponent, if there is one. -/
def readExponent : List Char → Option (Option Int × List Char)
  | 'e' :: text => (readExponentDigits text).map fun (exponent, rest) => (some exponent, rest)
  | 'E' :: text => (readExponentDigits text).map fun (exponent, rest) => (some exponent, rest)
  | text => some (none, text)

/-- The number of its written parts. -/
def numberOf (negative : Bool) (whole : List Char) (fraction : Option (List Char))
    (exponent : Option Int) : Option Number :=
  let magnitude := digitsValue whole
  let integer : Int := if negative then -magnitude else magnitude
  if fraction.isNone ∧ exponent.isNone ∧ Number.fitsWord integer ∧ ¬(negative ∧ magnitude = 0)
  then some (.integer integer)
  else
    let places := fraction.getD []
    let digits := whole ++ places
    (Double.ofDecimal? negative (digitsValue digits) (exponent.getD 0 - places.length)
      digits.length).map .double

/-- A number. -/
def readNumber (text : List Char) : Option (Number × List Char) := do
  let (negative, text) :=
    match text with
    | '-' :: rest => (true, rest)
    | _ => (false, text)
  let (whole, text) ← readWhole text
  let (fraction, text) ← readFraction text
  let (exponent, text) ← readExponent text
  let number ← numberOf negative whole fraction exponent
  some (number, text)

/-- The value of a hexadecimal digit of either case. -/
def hexValue? (character : Char) : Option Nat :=
  if '0' ≤ character ∧ character ≤ '9' then some (character.toNat - '0'.toNat)
  else if 'a' ≤ character ∧ character ≤ 'f' then some (character.toNat - 'a'.toNat + 10)
  else if 'A' ≤ character ∧ character ≤ 'F' then some (character.toNat - 'A'.toNat + 10)
  else none

/-- Four hexadecimal digits. -/
def readUnit : List Char → Option (Nat × List Char)
  | first :: second :: third :: fourth :: rest => do
    let a ← hexValue? first
    let b ← hexValue? second
    let c ← hexValue? third
    let d ← hexValue? fourth
    some (((a * 16 + b) * 16 + c) * 16 + d, rest)
  | _ => none

/-- The character of an escape after its `u`: one unit, or two that form a surrogate pair. -/
def readUnicode (text : List Char) : Option (Char × List Char) := do
  let (unit, rest) ← readUnit text
  if 0xD800 ≤ unit ∧ unit < 0xDC00 then
    match rest with
    | '\\' :: 'u' :: rest => do
      let (low, rest) ← readUnit rest
      if 0xDC00 ≤ low ∧ low < 0xE000 then
        some (Char.ofNat (0x10000 + (unit - 0xD800) * 0x400 + (low - 0xDC00)), rest)
      else none
    | _ => none
  else if 0xDC00 ≤ unit ∧ unit < 0xE000 then none
  else some (Char.ofNat unit, rest)

/-- The character of an escape after its backslash. -/
def readEscape : List Char → Option (Char × List Char)
  | '"' :: rest => some ('"', rest)
  | '\\' :: rest => some ('\\', rest)
  | '/' :: rest => some ('/', rest)
  | 'b' :: rest => some ('\x08', rest)
  | 'f' :: rest => some ('\x0c', rest)
  | 'n' :: rest => some ('\n', rest)
  | 'r' :: rest => some ('\r', rest)
  | 't' :: rest => some ('\t', rest)
  | 'u' :: rest => readUnicode rest
  | _ => none

/-- The rest of a string after its opening quote, the characters read so far in reverse. -/
def readCharacters : Nat → List Char → List Char → Option (String × List Char)
  | 0, _, _ => none
  | budget + 1, text, reversed =>
    match text with
    | [] => none
    | '"' :: rest => some (String.ofList reversed.reverse, rest)
    | '\\' :: rest =>
      match readEscape rest with
      | none => none
      | some (character, rest) => readCharacters budget rest (character :: reversed)
    | character :: rest =>
      if character.toNat < 32 then none
      else readCharacters budget rest (character :: reversed)

/-- A string. -/
def readString : List Char → Option (String × List Char)
  | '"' :: rest => readCharacters (rest.length + 1) rest []
  | _ => none

mutual
/-- A value whose first character is not a blank; `limit` counts how many arrays and objects may
still be opened inside each other. -/
def readValue : Nat → Nat → List Char → Option (Value × List Char)
  | 0, _, _ => none
  | budget + 1, limit, text =>
    match text with
    | 'n' :: _ => (skipWord "null".toList text).map fun rest => (.null, rest)
    | 't' :: _ => (skipWord "true".toList text).map fun rest => (.bool true, rest)
    | 'f' :: _ => (skipWord "false".toList text).map fun rest => (.bool false, rest)
    | '"' :: _ => (readString text).map fun (content, rest) => (.string content, rest)
    | '[' :: rest =>
      match limit with
      | 0 => none
      | limit + 1 =>
        match skipBlanks rest with
        | ']' :: rest => some (.array [], rest)
        | text => (readItems budget limit text []).map fun (items, rest) => (.array items, rest)
    | '\x7b' :: rest =>
      match limit with
      | 0 => none
      | limit + 1 =>
        match skipBlanks rest with
        | '\x7d' :: rest => some (.object [], rest)
        | text =>
          (readFields budget limit text []).map fun (fields, rest) => (.object fields, rest)
    | _ => (readNumber text).map fun (number, rest) => (.number number, rest)

/-- The items from the next one to the closing bracket, those read so far in reverse. -/
def readItems : Nat → Nat → List Char → List Value → Option (List Value × List Char)
  | 0, _, _, _ => none
  | budget + 1, limit, text, reversed =>
    match readValue budget limit text with
    | none => none
    | some (item, rest) =>
      match skipBlanks rest with
      | ',' :: rest => readItems budget limit (skipBlanks rest) (item :: reversed)
      | ']' :: rest => some ((item :: reversed).reverse, rest)
      | _ => none

/-- The fields from the next one to the closing brace, stored with those read so far. -/
def readFields : Nat → Nat → List Char → Object → Option (Object × List Char)
  | 0, _, _, _ => none
  | budget + 1, limit, text, fields =>
    match readString text with
    | none => none
    | some (key, rest) =>
      match skipBlanks rest with
      | ':' :: rest =>
        match readValue budget limit (skipBlanks rest) with
        | none => none
        | some (value, rest) =>
          let fields := Dictionary.insert fields key value
          match skipBlanks rest with
          | ',' :: rest => readFields budget limit (skipBlanks rest) fields
          | '\x7d' :: rest => some (fields, rest)
          | _ => none
      | _ => none
end

/-- How many arrays and objects a document may open inside each other. -/
def documentNesting : Nat := 127

/-- The value that a whole text writes, arrays and objects nested up to a limit. -/
def readNested? (limit : Nat) (text : String) : Option Value :=
  let characters := text.toList
  match readValue (2 * characters.length + 2) limit (skipBlanks characters) with
  | none => none
  | some (value, rest) => if (skipBlanks rest).isEmpty then some value else none

/-- The value that a document writes. -/
def read? (text : String) : Option Value := readNested? documentNesting text

end StepGraph.Json
