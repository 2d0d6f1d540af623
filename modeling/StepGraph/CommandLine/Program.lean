import StepGraph.CommandLine.FileName
import StepGraph.CommandLine.Help
import StepGraph.Evaluation.Activation
import StepGraph.Json.Reader
import StepGraph.Transform.Standard

/-!
# The program

The program reads the settings, then the graph, then the inputs, each from a file or from
standard input, and ends in a response: an exit code, what it prints, what it complains about
and what it logs. How files are read is given from outside.
-/
namespace StepGraph.CommandLine

/-- How the program reads. -/
structure Console (m : Type → Type) where
  /-- The text of a file, if it can be read. -/
  fileText : String → m (Option String)
  /-- The rest of standard input, if it can be read. -/
  inputText : m (Option String)

/-- Why the program gives up. -/
inductive Complaint where
  /-- A file cannot be read. -/
  | unreadable (file : String)
  /-- Standard input cannot be read. -/
  | unreadableInput
  /-- A text is not JSON. -/
  | notJson (file : String)
  /-- A value stores no settings. -/
  | invalidConfig (file : String)
  /-- A graph cannot be loaded. -/
  | invalidGraph (file : String) (cause : GraphError)
  /-- A run fails. -/
  | failedRun (file : String) (cause : Failure)
  /-- A run was cut off. -/
  | endless (file : String)

/-- The message of a complaint. -/
def Complaint.message : Complaint → String
  | .unreadable file => "failed to read " ++ file
  | .unreadableInput => "failed to read standard input"
  | .notJson file => file ++ " is not valid JSON"
  | .invalidConfig file => "invalid engine config " ++ file
  | .invalidGraph file _ => "invalid graph " ++ file
  | .failedRun file _ => "failed to execute " ++ file
  | .endless file => "failed to execute " ++ file

/-- What is known of the cause of a complaint. -/
def Complaint.cause? : Complaint → Option String
  | .invalidGraph _ cause => some cause.message
  | .failedRun _ cause => some cause.message
  | _ => none

/-- What the program ends in. -/
structure Response where
  /-- The exit code. -/
  code : Nat
  /-- What is printed. -/
  printed : String := ""
  /-- What the program complains about. -/
  complaint : Option Complaint := none
  /-- A hint on arguments that make no sense. -/
  hint : String := ""
  /-- What is logged. -/
  log : List LogLine := []

/-- The response to arguments that make no sense. -/
def Response.misuse : Response := { code := 2, hint := misuseText }

/-- The response of a program that gives up. -/
def Response.complaining (complaint : Complaint) : Response :=
  { code := 1, complaint := some complaint }

section Reading

variable {m : Type → Type} [Monad m] (console : Console m)

/-- The value in a file or on standard input. -/
def readJson (file : String) : ExceptT Complaint m Value := do
  let text ←
    if standsForInput file then do
      match ← console.inputText with
      | some text => pure text
      | none => throw .unreadableInput
    else do
      match ← console.fileText file with
      | some text => pure text
      | none => throw (.unreadable file)
  match Json.read? text with
  | some value => pure value
  | none => throw (.notJson file)

/-- The settings: those of the file, if there is one, and over them what the arguments say. -/
def readConfig (given : Given) : ExceptT Complaint m Config := do
  let config ←
    match given.config with
    | none => pure ({} : Config)
    | some file => do
      match Config.decode? (← readJson console file) with
      | some config => pure config
      | none => throw (.invalidConfig file)
  pure { trace := config.trace || given.debug, maxDepth := given.maxDepth.getD config.maxDepth }

/-- Run a graph and print its output. -/
def runGraph (config : Config) (given : Given) (file : String) :
    ExceptT Complaint m Response := do
  let stored ← readJson console file
  let inputs ←
    match given.inputs with
    | none => pure (Value.object [])
    | some file => readJson console file
  let settings : Settings Unit := ⟨.standard, config⟩
  match Run.document settings stored inputs (State.start ()) with
  | .done output state =>
    let text := if given.pretty then Json.pretty (.object output) else Json.compact (.object output)
    pure { code := 0, printed := text ++ "\n", log := state.events.map Event.line }
  | .failed failure state =>
    pure { code := 1, complaint := some (.failedRun file failure),
           log := state.events.map Event.line }
  | .stuck _ => throw (.endless file)

/-- Load a graph and say so. -/
def checkGraph (file : String) : ExceptT Complaint m Response := do
  match Document.load (← readJson console file) with
  | .error cause => throw (.invalidGraph file cause)
  | .ok document =>
    let steps := document.data.length
    pure { code := 0
           printed := document.label ++ ": ok (" ++ toString steps ++ " steps)\n"
           log := [⟨.info, "graph is valid",
             [("graph", .string document.label), ("steps", .ofInt steps)]⟩] }

/-- Print the names of the functions. -/
def listFunctions : Response :=
  let names := (Registry.standard : Registry Unit).names
  { code := 0, printed := String.join (names.map (· ++ "\n")) }

/-- Carry out a command. -/
def perform (command : Scope) (given : Given) : ExceptT Complaint m Response := do
  let config ← readConfig console given
  match command, given.graph with
  | .run, some file => runGraph console config given file
  | .check, some file => checkGraph console file
  | .functions, _ => pure listFunctions
  | _, _ => pure .misuse

/-- The response to arguments. -/
def respond (arguments : List String) : m Response := do
  match Request.ofArguments arguments with
  | .misuse => pure .misuse
  | .help scope => pure { code := 0, printed := helpText scope }
  | .version => pure { code := 0, printed := versionText }
  | .command command given => do
    match ← (perform console command given).run with
    | .ok response => pure response
    | .error complaint => pure (.complaining complaint)

end Reading

end StepGraph.CommandLine
