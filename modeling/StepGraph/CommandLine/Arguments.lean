import StepGraph.Path

/-!
# Arguments of the command line

The arguments are options, which begin with a dash, and other words. The first word names the
command; options in front of it are read at the top, those after it at the command. Settings
may be given at both, and then what follows the command counts, but nothing may be given twice
at one of them. An option takes its value from the rest of its own argument or from the next
one, unless that begins with a dash; a dash alone is a word. After two dashes everything is a
word.
-/
namespace StepGraph.CommandLine

/-- Where options are read. -/
inductive Scope where
  /-- In front of the command. -/
  | top
  /-- After the command that runs a graph. -/
  | run
  /-- After the command that checks a graph. -/
  | check
  /-- After the command that lists the functions. -/
  | functions
deriving DecidableEq, Repr

/-- The word that names a command. -/
def Scope.word : Scope → String
  | .top => "dgraph"
  | .run => "run"
  | .check => "check"
  | .functions => "functions"

/-- The commands. -/
def commands : List Scope := [.run, .check, .functions]

/-- The command that a word names. -/
def command? (word : String) : Option Scope := commands.find? fun scope => scope.word == word

/-- The word that asks for help on a command. -/
def helpWord : String := "help"

/-- The options. -/
inductive Switch where
  /-- The file of the settings. -/
  | config
  /-- Log every step. -/
  | debug
  /-- How deeply activations may nest. -/
  | maxDepth
  /-- The file of the inputs. -/
  | inputs
  /-- Print the output with indentation. -/
  | pretty
  /-- Print help. -/
  | help
  /-- Print the version. -/
  | version
deriving DecidableEq, Repr

namespace Switch

/-- All options. -/
def all : List Switch := [.config, .debug, .maxDepth, .inputs, .pretty, .help, .version]

/-- The long name of an option. -/
def longName : Switch → String
  | .config => "config"
  | .debug => "debug"
  | .maxDepth => "max-depth"
  | .inputs => "inputs"
  | .pretty => "pretty"
  | .help => "help"
  | .version => "version"

/-- The letter of an option, if it has one. -/
def letter? : Switch → Option Char
  | .config => some 'c'
  | .debug => some 'd'
  | .maxDepth => none
  | .inputs => some 'i'
  | .pretty => none
  | .help => some 'h'
  | .version => some 'V'

/-- Whether an option has a value. -/
def takesValue : Switch → Bool
  | .config => true
  | .maxDepth => true
  | .inputs => true
  | .debug => false
  | .pretty => false
  | .help => false
  | .version => false

/-- Whether an option is known at a place. -/
def isKnown (scope : Scope) : Switch → Bool
  | .config => true
  | .debug => true
  | .maxDepth => true
  | .help => true
  | .inputs => scope == .run
  | .pretty => scope == .run
  | .version => scope == .top

/-- The option of a long name at a place. -/
def ofLongName? (scope : Scope) (name : String) : Option Switch :=
  all.find? fun switch => switch.isKnown scope && switch.longName == name

/-- The option of a letter at a place. -/
def ofLetter? (scope : Scope) (letter : Char) : Option Switch :=
  all.find? fun switch => switch.isKnown scope && switch.letter? == some letter

end Switch

/-- What has been given at one place. -/
structure Given where
  /-- The file of the settings. -/
  config : Option String := none
  /-- Whether every step is logged. -/
  debug : Bool := false
  /-- How deeply activations may nest. -/
  maxDepth : Option Nat := none
  /-- The file of the inputs. -/
  inputs : Option String := none
  /-- Whether the output is printed with indentation. -/
  pretty : Bool := false
  /-- The file of the graph. -/
  graph : Option String := none
deriving DecidableEq, Repr

/-- What the arguments ask for. -/
inductive Request where
  /-- A command, on what has been given for it. -/
  | command (command : Scope) (given : Given)
  /-- Help on a command, or on all of them. -/
  | help (scope : Scope)
  /-- The version. -/
  | version
  /-- Nothing that makes sense. -/
  | misuse
deriving DecidableEq, Repr

namespace Given

/-- Fill in what may be given once; a file has a name that is not empty. -/
def file (held : Option String) (name : String) : Option String :=
  if held.isSome || name.isEmpty then none else some name

/-- Give an option a value, unless it has one or the value makes no sense for it. -/
def setValue (given : Given) (switch : Switch) (text : String) : Option Given :=
  match switch with
  | .config => (file given.config text).map fun name => { given with config := some name }
  | .inputs => (file given.inputs text).map fun name => { given with inputs := some name }
  | .maxDepth =>
    if given.maxDepth.isSome then none
    else (Path.position? text).map fun depth => { given with maxDepth := some depth }
  | _ => none

/-- Turn an option on, unless it is on already. -/
def turnOn (given : Given) (switch : Switch) : Option Given :=
  match switch with
  | .debug => if given.debug then none else some { given with debug := true }
  | .pretty => if given.pretty then none else some { given with pretty := true }
  | _ => none

/-- Take a word that is no option as the file of the graph, which one command does without. -/
def setWord (given : Given) (scope : Scope) (word : String) : Option Given :=
  if scope == .run || scope == .check then
    (file given.graph word).map fun name => { given with graph := some name }
  else none

/-- What has been given after the command, completed by the settings given in front of it. -/
def under (given top : Given) : Given :=
  { given with
    config := given.config.or top.config
    debug := given.debug || top.debug
    maxDepth := given.maxDepth.or top.maxDepth }

end Given

/-- Where reading an option leads. -/
inductive Progress where
  /-- On, with what has been given so far. -/
  | onward (given : Given)
  /-- To the next argument, for the value of the option. -/
  | wanting (switch : Switch) (given : Given)
  /-- To an end. -/
  | ended (request : Request)

/-- Go on with what has been given, or end in misuse. -/
def Progress.ofGiven? (given : Option Given) : Progress :=
  match given with
  | some given => .onward given
  | none => .ended .misuse

/-- Read an option without a value. -/
def readFlag (scope : Scope) (given : Given) (switch : Switch) : Progress :=
  match switch with
  | .help => .ended (.help scope)
  | .version => .ended .version
  | switch => .ofGiven? (given.turnOn switch)

/-- Read an option by its long name, after its dashes. -/
def readLong (scope : Scope) (given : Given) (text : List Char) : Progress :=
  let name := String.ofList (text.takeWhile (· ≠ '='))
  let value := text.dropWhile (· ≠ '=')
  match Switch.ofLongName? scope name with
  | none => .ended .misuse
  | some switch =>
    match switch.takesValue, value with
    | true, [] => .wanting switch given
    | true, _ :: value => .ofGiven? (given.setValue switch (String.ofList value))
    | false, [] => readFlag scope given switch
    | false, _ :: _ => .ended .misuse

/-- The value that follows the letter of an option in its argument. -/
def attachedValue : List Char → List Char
  | '=' :: value => value
  | value => value

/-- Read options by their letters, after the dash. -/
def readLetters (scope : Scope) (given : Given) : List Char → Progress
  | [] => .onward given
  | letter :: rest =>
    match Switch.ofLetter? scope letter with
    | none => .ended .misuse
    | some switch =>
      if switch.takesValue then
        if rest.isEmpty then .wanting switch given
        else .ofGiven? (given.setValue switch (String.ofList (attachedValue rest)))
      else
        match readFlag scope given switch with
        | .onward given => readLetters scope given rest
        | other => other

/-- Whether an argument is an option. -/
def isOption (argument : String) : Bool :=
  match argument.toList with
  | '-' :: _ :: _ => true
  | _ => false

/-- Read one option. -/
def readOption (scope : Scope) (given : Given) (argument : String) : Progress :=
  match argument.toList with
  | '-' :: '-' :: name => readLong scope given name
  | '-' :: letters => readLetters scope given letters
  | _ => .ended .misuse

/-- What comes of the end of the arguments. -/
def finish (scope : Scope) (top given : Given) : Request :=
  match scope with
  | .top => .misuse
  | .functions => .command .functions (given.under top)
  | command => if given.graph.isSome then .command command (given.under top) else .misuse

/-- Read words that follow two dashes. -/
def readWords (scope : Scope) (top given : Given) : List String → Request
  | [] => finish scope top given
  | word :: rest =>
    match given.setWord scope word with
    | some given => readWords scope top given rest
    | none => .misuse

/-- Read what follows the word that asks for help. -/
def readTopic : List String → Request
  | [] => .help .top
  | [word] =>
    match command? word with
    | some command => .help command
    | none => .misuse
  | _ => .misuse

/-- Read arguments at a place, given what was read in front of the command. -/
def readArguments (scope : Scope) (top given : Given) (arguments : List String) : Request :=
  match arguments with
  | [] => finish scope top given
  | argument :: rest =>
    if argument = "--" then readWords scope top given rest
    else if isOption argument then
      match readOption scope given argument with
      | .ended request => request
      | .onward given => readArguments scope top given rest
      | .wanting switch given =>
        match rest with
        | [] => .misuse
        | value :: rest =>
          if isOption value then .misuse
          else
            match given.setValue switch value with
            | some given => readArguments scope top given rest
            | none => .misuse
    else if scope = .top then
      if argument = helpWord then readTopic rest
      else
        match command? argument with
        | some command => readArguments command given {} rest
        | none => .misuse
    else
      match given.setWord scope argument with
      | some given => readArguments scope top given rest
      | none => .misuse
termination_by arguments.length

/-- What the arguments of the program ask for. -/
def Request.ofArguments (arguments : List String) : Request := readArguments .top {} {} arguments

end StepGraph.CommandLine
