import LinkedJson.CommandLine.Command
import LinkedJson.CommandLine.World
import LinkedJson.Document
import LinkedJson.Files.JsonFile
import LinkedJson.Rdf.Input

/-!
Running a command.

A command first gets its settings together, then reads its input, and only then does its work. It
ends with a code that says how far it came; only accidents leave it without one.

Texts nest no deeper than there is room to follow them, and all texts are made of characters, with
no lone surrogates among them.
-/

namespace LinkedJson.CommandLine

open LinkedJson.Files LinkedJson.Rdf

inductive ExitCode where
  | success
  | settings
  | input
  | transformation
  | output
  deriving DecidableEq, Repr

def ExitCode.number : ExitCode → Nat
  | .success => 0
  | .settings => 1
  | .input => 2
  | .transformation => 3
  | .output => 4

inductive Ending where
  | code (c : ExitCode)
  | crash (a : Accident)
  deriving DecidableEq, Repr

/-- Why a command has no settings. -/
inductive Fault where
  | file (e : JsonFile.Fault)
  | failure (f : Failure)
  deriving DecidableEq

/-- What is said of a fault; of an accident only if there is a text for it. -/
def Fault.report : Fault → Except Accident String
  | .file (.refused e) => .error (.refusedPath e)
  | .file e => .ok e.message
  | .failure (.configuration e) => .ok e.message
  | .failure (.transform e) => .ok e.text
  | .failure (.accident a) =>
    match a.text? with
    | some text => .ok text
    | none => .error a

/-- A step that may fail and changes the world in either case. -/
abbrev Act (α : Type) := ExceptT Fault (StateM World) α

namespace Act

def ofExcept (e : Except Fault α) : Act α :=
  match e with
  | .ok a => pure a
  | .error f => throw f

def ofFile (e : Except JsonFile.Fault α) : Act α := ofExcept (e.mapError .file)

def ofFailure (e : Except Failure α) : Act α := ofExcept (e.mapError .failure)

def ofAccident (e : Except Accident α) : Act α := ofFailure (e.mapError .accident)

end Act

/-- An argument of any length but none. -/
def filled (s : Option String) : Option String := s.filter (· ≠ "")

/-! ### The configuration and the log -/

/-- The configuration that is named, else an empty one. -/
def configuration (d : Disk) (c : Common) : Except JsonFile.Fault Json.Object :=
  match filled c.config with
  | none => .ok []
  | some path => JsonFile.loadConfiguration d path

/-- The name of the log level: that of the command line goes before that of the configuration. -/
def levelName (c : Common) (config : Json.Object) : Except Accident String :=
  match filled c.logLevel, (Entries.find? config "log_level").getD (.str Level.warning.name) with
  | some name, _ => .ok name
  | none, .str name => .ok name
  | none, _ => .error .levelKind

/-- The path of the log that the configuration asks for, if any. -/
def logPath (config : Json.Object) : Except Accident String :=
  match (Entries.find? config "log_file").getD .null with
  | .str path => .ok path
  | v => if v.truthy then .error .logFileKind else .ok ""

/-- Opens the log and gives the path of its file. The file is there before a level is refused. -/
def openLog (level path : String) : Act (Option String) := do
  let w ← get
  let opened := Log.openFile w.shelters w.disk path
  set { w with disk := opened.disk, messages := w.messages ++ opened.messages }
  let file ← Act.ofAccident opened.path
  let threshold ← Act.ofAccident (Log.levelOfName level)
  modify fun w => { w with threshold, logFile := file.map w.disk.absolute }
  match file with
  | some path => modify (·.keep (.info ("Logging to: " ++ path)))
  | none => pure ()
  return file

def setUpLog (c : Common) (config : Json.Object) : Act (Option String) := do
  let level ← Act.ofAccident (levelName c config)
  let path ← Act.ofAccident (logPath config)
  openLog level path

/-! ### Settings -/

/-- A field that a file gives. -/
def fileField (d : Disk) (f : Settings.Field) (description : String) (path : Option String) :
    Except Fault (List (Settings.Field × Json)) :=
  match filled path with
  | none => .ok []
  | some path => do return [(f, ← (JsonFile.load d path description).mapError .file)]

/-- A field that a JSON text gives. -/
def textField (f : Settings.Field) (text : Option String) :
    Except Fault (List (Settings.Field × Json)) :=
  match filled text with
  | none => .ok []
  | some text => do return [(f, ← (Settings.parseText f.name text).mapError .failure)]

def flagField (f : Settings.Field) (given : Bool) : List (Settings.Field × Json) :=
  if given then [(f, .bool true)] else []

/-- The fields that the command line gives. -/
def givenFields (d : Disk) (c : Conversion) : Except Fault (List (Settings.Field × Json)) := do
  let base := (filled c.base).toList.map fun s => (Settings.Field.baseIri, Json.str s)
  let context ← fileField d .context "context file" c.context
  let substitution ← textField .contextSubstitution c.contextSubstitution
  let frame ← fileField d .frame "frame file" c.frame
  return base ++ context ++ substitution ++ frame ++
    flagField .preferPrefixed c.common.preferPrefixed ++
    flagField .sortTriples c.common.sortTriples

/-- Settings with fields replaced. -/
def setFields (s : Settings) (fields : List (Settings.Field × Json)) : Settings :=
  fields.foldl (fun s f => s.set f.1 f.2) s

/-- The settings of a command: those of the configuration, and over them those of the command
line. -/
def settingsOf (config : Json.Object) (c : Conversion) : Act Settings := do
  let (notices, settings) :=
    Settings.ofMapping ((Entries.find? config "serialization").getD .null)
  modify (·.keepAll notices)
  let settings ← Act.ofFailure settings
  let fields ← Act.ofExcept (givenFields (← get).disk c)
  if fields.isEmpty then return settings
  else
    let settings := setFields settings fields
    modify (·.keepAll settings.notices)
    return settings

/-- What the command that only prints a context leaves open. -/
def Common.conversion (c : Common) : Conversion :=
  { common := c, variant := Variant.name ⟨.compact, true⟩ }

/-- The configuration and the settings of a command. -/
def prepare (c : Conversion) : Act (Json.Object × Settings) := do
  let config ← Act.ofFile (configuration (← get).disk c.common)
  let _ ← setUpLog c.common config
  let settings ← settingsOf config c
  return (config, settings)

/-- A limit for the time that fetching a context may take, in seconds. -/
def timeLimit (v : Json) : Except Accident Double :=
  match v with
  | .bool b => .ok (Double.ofFraction false b.toNat 1)
  | .int n =>
    match Double.ofFraction (n < 0) n.natAbs 1 with
    | .infinite _ => .error .timeLimitSize
    | x => .ok x
  | .double x => .ok x
  | .str s =>
    match Double.ofText? s with
    | some x => .ok x
    | none => .error (.timeLimitText s)
  | _ => .error .timeLimitKind

/-- The settings and the variant of a document. -/
def prepareDocument (c : Conversion) : Act (Settings × Variant) := do
  let (config, settings) ← prepare c
  match Entries.find? config "remote_context_timeout" with
  | some v => discard <| Act.ofAccident (timeLimit v)
  | none => pure ()
  let variant ← Act.ofFailure ((Document.variantOf (.str c.variant)).mapError .configuration)
  return (settings, variant)

/-! ### Input -/

/-- Why there is no input. -/
inductive InputFault where
  | missing (path : String)
  | refused (e : FileError)
  | content (path : String) (fault : Input.Fault)
  deriving DecidableEq, Repr

/-- What is said of an input that is not there or is none. -/
def InputFault.report : InputFault → Except Accident String
  | .missing path => .ok ("File not found: " ++ path)
  | .refused e => .error (.refusedPath e)
  | .content path fault => .ok (fault.message (some (Path.name path)))

/-- The store that an input holds. -/
def inputStore (lib : Library) (d : Disk) (c : Common) : Except InputFault Store := do
  match ← (d.seek (Path.plain c.input)).mapError .refused with
  | none => throw (.missing c.input)
  | some bytes =>
    (Input.ofBytes lib bytes c.inputFormat (Path.plain c.input)).mapError (.content c.input)

/-- What is reported of an input. -/
def inputNotices : Except InputFault Store → List Notice
  | .ok s => if s.size = 0 then [.warn "Parsed graph is empty - no triples found"] else []
  | .error (.content _ (.malformed _ report)) => [.error ("Failed to parse RDF file: " ++ report)]
  | .error _ => []

def readInput (lib : Library) (c : Common) : StateM World (Except InputFault Store) := do
  let r := inputStore lib (← get).disk c
  modify (·.keepAll (inputNotices r))
  return r

/-! ### Endings -/

/-- Ends with a message. -/
def failWith (code : ExitCode) (message : String) : StateM World Ending := do
  modify (·.say ("✗ " ++ message))
  return .code code

/-- Ends without settings. -/
def refuse (f : Fault) : StateM World Ending :=
  match f.report with
  | .ok message => failWith .settings ("Configuration error: " ++ message)
  | .error a => return .crash a

/-- Ends without a document. -/
def refuseDocument : Failure → StateM World Ending
  | .configuration e => failWith .settings ("Configuration error: " ++ e.message)
  | .transform e => failWith .transformation ("JSON-LD transformation failed: " ++ e.text)
  | .accident a => return .crash a

/-- Ends without an input. -/
def refuseInput (e : InputFault) : StateM World Ending :=
  match e.report with
  | .ok message => failWith .input ("Could not read RDF input: " ++ message)
  | .error a => return .crash a

/-! ### Commands -/

/-- The document of a source, as a text. -/
def documentText (p : Processor) (v : Variant) (src : Document.Source) :
    StateM World (Except Failure String) := do
  let (r, trace) := (Document.serialize p v src).run
  modify fun w => { w.keepAll trace.notices with calls := w.calls ++ trace.calls }
  return r

/-- Writes a text to a file, or prints it. -/
def deliver (output : Option String) (text : String) : StateM World Ending := do
  match filled output with
  | none =>
    modify (·.print text)
    return .code .success
  | some path =>
    match (← get).disk.write path (Text.Utf8.encode text) with
    | .error ⟨.null, _⟩ => return .crash .nullPath
    | .error e => failWith .output ("Error writing output: " ++ e.message)
    | .ok disk =>
      modify fun w => { w with disk }.say ("✓ Saved to: " ++ path)
      return .code .success

/-- Writes the document of a file. -/
def runConversion (lib : Library) (p : Processor) (c : Conversion) : StateM World Ending := do
  match ← (prepareDocument c).run with
  | .error f => refuse f
  | .ok (settings, variant) =>
    match ← readInput lib c.common with
    | .error e => refuseInput e
    | .ok store =>
      match ← documentText p variant { store, settings } with
      | .error f => refuseDocument f
      | .ok text => deliver c.output text

/-- The text of a context that stands alone. -/
def contextText (c : Json.Object) : String :=
  String.ofList (Json.print .pretty 0 (.obj [("@context", .obj c)])) ++ "\n"

/-- Prints the context of a file. -/
def runContext (lib : Library) (c : Common) : StateM World Ending := do
  match ← (prepare c.conversion).run with
  | .error f => refuse f
  | .ok (_, settings) =>
    match ← readInput lib c with
    | .error e => refuseInput e
    | .ok store =>
      match Context.ofStore settings.contextOptions none store with
      | .error e => return .crash (.noText e.term)
      | .ok context =>
        modify (·.print (contextText context))
        return .code .success

/-- Runs a command with a library for its input and a processor for its document. -/
def Command.run (lib : Library) (p : Processor) : Command → StateM World Ending
  | .convert c => runConversion lib p c
  | .context c => runContext lib c

end LinkedJson.CommandLine
