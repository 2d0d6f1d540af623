import StepGraph.Text.Pieces

/-!
# Names of files

A name is a walk along the pieces between its slashes. Slashes in a row, a slash at the end and
a dot between slashes lead nowhere else, so names that differ only in them are spellings of one
name. A dot in front is kept apart: `./-` is a file, while `-/.` is a spelling of the dash.
-/
namespace StepGraph.CommandLine

/-- The pieces of a name between its slashes. -/
def namePieces (name : String) : List (List Char) := Text.pieces (· = '/') name.toList

/-- Whether a piece of a name leads nowhere else: it is empty or a dot. -/
def staysInPlace (piece : List Char) : Bool := piece = [] || piece = ['.']

/-- Whether a name stands for standard input: it is a spelling of the dash. -/
def standsForInput (name : String) : Bool :=
  match namePieces name with
  | first :: rest => first = ['-'] && rest.all staysInPlace
  | [] => false

/-- A dash behind a step that stays in place is the name of a file. -/
example : standsForInput "-/." = true ∧ standsForInput "./-" = false := by decide +kernel

end StepGraph.CommandLine
