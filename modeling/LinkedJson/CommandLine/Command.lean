import LinkedJson.CommandLine.Switch
import LinkedJson.Notice
import LinkedJson.Variant

/-!
The commands and their options.
-/

namespace LinkedJson.CommandLine

/-- What both commands are given. -/
structure Common where
  input : String
  inputFormat : Option String := none
  config : Option String := none
  logLevel : Option String := none
  preferPrefixed : Bool := false
  sortTriples : Bool := false
  deriving DecidableEq, Repr

/-- What is given to write a document. -/
structure Conversion where
  common : Common
  variant : String
  output : Option String := none
  base : Option String := none
  context : Option String := none
  contextSubstitution : Option String := none
  frame : Option String := none
  deriving DecidableEq, Repr

inductive Command where
  /-- Writes the document of a file. -/
  | convert (c : Conversion)
  /-- Prints the context that is derived from a file. -/
  | context (c : Common)
  deriving DecidableEq, Repr

/-! ### Options -/

def helpSwitch : Switch := ⟨["-h", "--help"], .help⟩

def logLevels : List String :=
  [Level.debug, .info, .warning, .error, .critical].map Level.name

def commonSwitches : List Switch := [
  helpSwitch,
  ⟨["--input-format"], .value []⟩,
  ⟨["--config"], .value []⟩,
  ⟨["--log-level"], .value logLevels⟩,
  ⟨["--prefer-prefixed"], .flag⟩,
  ⟨["--sort-triples"], .flag⟩]

def conversionSwitches : List Switch := commonSwitches ++ [
  ⟨["--variant", "-v"], .value []⟩,
  ⟨["--output", "-o"], .value []⟩,
  ⟨["--base"], .value []⟩,
  ⟨["--context"], .value []⟩,
  ⟨["--context-substitution"], .value []⟩,
  ⟨["--frame"], .value []⟩,
  ⟨["--progress"], .flag⟩]

namespace Line

/-- The argument that was given last to an option. -/
def value? (l : Line) (name : String) : Option String :=
  (l.given.reverse.find? (·.switch.names.contains name)).bind (·.argument)

def has (l : Line) (name : String) : Bool := l.given.any (·.switch.names.contains name)

def common (l : Line) (input : String) : Common where
  input
  inputFormat := l.value? "--input-format"
  config := l.value? "--config"
  logLevel := l.value? "--log-level"
  preferPrefixed := l.has "--prefer-prefixed"
  sortTriples := l.has "--sort-triples"

def conversion (l : Line) (input : String) : Conversion where
  common := l.common input
  variant := (l.value? "--variant").getD (Variant.name ⟨.compact, true⟩)
  output := l.value? "--output"
  base := l.value? "--base"
  context := l.value? "--context"
  contextSubstitution := l.value? "--context-substitution"
  frame := l.value? "--frame"

end Line

/-! ### Reading a command line -/

inductive Verb where
  | convert
  | context
  deriving DecidableEq, Repr

namespace Verb

def all : List Verb := [.convert, .context]

def name : Verb → String
  | .convert => "convert"
  | .context => "context"

def ofName? (s : String) : Option Verb := all.find? (·.name = s)

def switches : Verb → List Switch
  | .convert => conversionSwitches
  | .context => commonSwitches

def command (v : Verb) (l : Line) (input : String) : Command :=
  match v with
  | .convert => .convert (l.conversion input)
  | .context => .context (l.common input)

end Verb

def program : String := "rdf-jsonld"

/-- How a command line reads. -/
inductive Reading where
  | command (c : Command)
  /-- There is no command. -/
  | nothing
  /-- Help is asked for. -/
  | help
  /-- Refused by the program or one of its commands. -/
  | refused (by_ message : String)
  deriving DecidableEq, Repr

/-- The line that is printed when a command line is refused. -/
def refusal (by_ message : String) : String := by_ ++ ": error: " ++ message

def Stop.reading (by_ : String) : Stop → Reading
  | .help => .help
  | .refused message => .refused by_ message

def refuseStrays (strays : List String) (otherwise : Reading) : Reading :=
  if strays = [] then otherwise
  else .refused program ("unrecognized arguments: " ++ " ".intercalate strays)

/-- Reads the words of a command. Words that have no place are refused by the program, together with
those before the command. -/
def readCommand (v : Verb) (strays : List String) (words : List String) : Reading :=
  let by_ := program ++ " " ++ v.name
  match readWords v.switches words with
  | .error message => .refused by_ message
  | .ok words =>
    match Line.gather v.switches {} words with
    | .error stop => stop.reading by_
    | .ok l =>
      match l.operand with
      | none => .refused by_ "the following arguments are required: input"
      | some input => refuseStrays (strays ++ l.strays) (.command (v.command l input))

def unknownCommand (name : String) : String :=
  "argument command: " ++ invalidChoice name (Verb.all.map Verb.name)

/-- How the words of a command line read. -/
def read (words : List String) : Reading :=
  match readWords [helpSwitch] words with
  | .error message => .refused program message
  | .ok read =>
    match Line.gatherCommand [helpSwitch] {} read with
    | .error stop => stop.reading program
    | .ok (l, rest) =>
      match l.operand with
      | none => refuseStrays l.strays .nothing
      | some name =>
        match Verb.ofName? name with
        | none => .refused program (unknownCommand name)
        | some v => readCommand v l.strays rest

end LinkedJson.CommandLine
