import StepGraph.CommandLine.Program

/-!
# Entry point

Reads files and standard input, prints, and exits.
-/
open StepGraph StepGraph.CommandLine

namespace StepGraph.CommandLine

/-- Files and standard input of the system. A text that is not well-formed cannot be read. -/
def systemConsole : Console IO where
  fileText name := do
    match ← (IO.FS.readBinFile name).toBaseIO with
    | .ok bytes => pure (String.fromUTF8? bytes)
    | .error _ => pure none
  inputText := do
    match ← (do (← IO.getStdin).readToEnd : IO String).toBaseIO with
    | .ok text => pure (some text)
    | .error _ => pure none

/-- A log line as text. -/
def LogLine.text (line : LogLine) : String :=
  line.level.name ++ " " ++ line.message ++
    String.join (line.fields.map fun field => " " ++ field.1 ++ "=" ++ Json.compact field.2)

/-- Write a response to the outside. -/
def Response.write (response : Response) (debug : Bool) : IO Unit := do
  for line in response.log do
    if debug || line.level != .debug then IO.eprintln (LogLine.text line)
  IO.print response.printed
  IO.eprint response.hint
  match response.complaint with
  | none => pure ()
  | some complaint => do
    IO.eprintln ("Error: " ++ complaint.message)
    match complaint.cause? with
    | none => pure ()
    | some cause => IO.eprintln ("\nCaused by:\n    " ++ cause)

/-- Whether the arguments ask for details. -/
def asksForDetails (arguments : List String) : Bool :=
  match Request.ofArguments arguments with
  | .command _ given => given.debug
  | _ => false

end StepGraph.CommandLine

/-- Run the program on its arguments. -/
def main (arguments : List String) : IO UInt32 := do
  let response ← respond systemConsole arguments
  response.write (asksForDetails arguments)
  pure (UInt32.ofNat response.code)
