import StepGraph.Text.Pieces
import StepGraph.Value.Basic

/-!
# Paths

A path addresses a value inside another: `a.b.c` walks by keys, a numeric segment indexes an
array, and `a[0].b` is a spelling of `a.0.b`. A path may hold one segment that is the wildcard
`*`; it projects over the array in front of it, `rows.*.v` to the list of the values at `v`.

A path is resolved against a root, which is a value or a bare object. Nothing stored there is
not an error and differs from a stored null; a wildcard in the wrong place, or one over
something that is no array, is.
-/
namespace StepGraph

/-- Why a path with a wildcard cannot be resolved. -/
inductive PathError where
  /-- The path has several wildcards, or one that is not a segment of its own. -/
  | unsupported (path : String)
  /-- The value in front of the wildcard, at the target, is not an array. -/
  | notIterable (path : String) (target : String)
deriving DecidableEq, Repr

/-- The message of a path error. -/
def PathError.message : PathError → String
  | .unsupported path =>
    "unsupported path syntax '" ++ path ++
      "': only a single standalone `*` segment can be iterated over"
  | .notIterable path target =>
    "type mismatch: wildcard target '" ++ target ++ "' in path '" ++ path ++
      "' is not an iterable"

namespace Path

/-- The segment that projects over an array. -/
def wildcard : String := "*"

/-- Whether a character ends a segment. -/
def isSeparator (character : Char) : Bool := character = '.' || character = '['

/-- A piece without the closing brackets at its end. -/
def unbracketed (piece : List Char) : List Char :=
  (piece.reverse.dropWhile (· = ']')).reverse

/-- The segments of a path: its pieces without closing brackets, empty ones dropped. -/
def segments (path : String) : List String :=
  (((Text.pieces isSeparator path.toList).map unbracketed).filter (· ≠ [])).map String.ofList

/-- The name that a path starts from: its first segment, or the whole text when it has none. -/
def head (path : String) : String := (segments path).head?.getD path

/-- Segments written as one dotted text. -/
def dotted (parts : List String) : String := ".".intercalate parts

/-- The position that a text names in an array: decimal digits after an optional plus sign, for
an unsigned 64-bit word. -/
def position? (text : String) : Option Nat :=
  let digits :=
    match text.toList with
    | '+' :: rest => rest
    | characters => characters
  if digits.isEmpty ∨ !digits.all Char.isDigit then none
  else
    let value := Nat.ofDigitChars 10 digits 0
    if value < Number.wordCount then some value else none

/-- A root that paths are resolved against. -/
class Addressable (ρ : Type) where
  /-- The value under one segment. -/
  child? : ρ → String → Option Value
  /-- The items, when the root is an array. -/
  items? : ρ → Option (List Value)

/-- One step into a value: a field of an object or an item of an array. -/
def childOfValue? (value : Value) (segment : String) : Option Value :=
  match value with
  | .object fields => Dictionary.find? fields segment
  | .array items => (position? segment).bind fun position => items[position]?
  | _ => none

instance : Addressable Value where
  child? := childOfValue?
  items? := Value.items?

instance : Addressable Object where
  child? fields segment := Dictionary.find? fields segment
  items? _ := none

/-- The value at the end of segments walked one by one. -/
def descend (value : Value) : List String → Option Value
  | [] => some value
  | segment :: rest => (childOfValue? value segment).bind fun child => descend child rest

/-- The value that segments lead to from a root; no segments lead nowhere. -/
def walk {ρ : Type} [Addressable ρ] (root : ρ) : List String → Option Value
  | [] => none
  | segment :: rest => (Addressable.child? root segment).bind fun child => descend child rest

/-- The value at a path, the wildcard taken as a plain key. -/
def lookup {ρ : Type} [Addressable ρ] (root : ρ) (path : String) : Option Value :=
  walk root (segments path)

/-- The segments in front of the first wildcard and those after it. -/
def splitWildcard : List String → Option (List String × List String)
  | [] => none
  | segment :: rest =>
    if segment = wildcard then some ([], rest)
    else (splitWildcard rest).map fun (before, after) => (segment :: before, after)

/-- Whether the wildcard character occurs in a path. -/
def hasWildcard (path : String) : Bool := path.toList.contains '*'

/-- The dotted text in front of the wildcard segment of a path, if it has one. -/
def wildcardTarget? (path : String) : Option String :=
  (splitWildcard (segments path)).map fun (before, _) => dotted before

/-- What one item contributes to a projection: the item itself, or what is found in it, null
when nothing is. -/
def project (after : List String) (item : Value) : Value :=
  if after.isEmpty then item else (walk item after).getD .null

/-- The value at a path with a wildcard, its segments split there. -/
def resolveWildcard {ρ : Type} [Addressable ρ] (root : ρ) (path : String)
    (before after : List String) : Except PathError (Option Value) :=
  let overItems (items : Option (List Value)) : Except PathError (Option Value) :=
    match items with
    | some items => .ok (some (.array (items.map (project after))))
    | none => .error (.notIterable path (dotted before))
  if before.isEmpty then overItems (Addressable.items? root)
  else
    match walk root before with
    | none => .ok none
    | some target => overItems target.items?

/-- The value at a path, or nothing when nothing is stored there. -/
def resolve {ρ : Type} [Addressable ρ] (root : ρ) (path : String) :
    Except PathError (Option Value) :=
  if !hasWildcard path then .ok (lookup root path)
  else if path.toList.count '*' ≠ 1 then .error (.unsupported path)
  else
    match splitWildcard (segments path) with
    | none => .error (.unsupported path)
    | some (before, after) => resolveWildcard root path before after

end Path

end StepGraph
