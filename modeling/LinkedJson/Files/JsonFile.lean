import LinkedJson.Files.Disk
import LinkedJson.Json.Parser
import LinkedJson.Text.Case
import LinkedJson.Text.Lines
import LinkedJson.Text.Utf8

/-!
JSON values read from files, and configurations: objects in files whose names end in `.json`.
-/

namespace LinkedJson.Files.JsonFile

/-- Why a file gives no value. Paths are as given, or as `Path.plain` has them. -/
inductive Fault where
  | noPath
  | suffix (path : String)
  | missing (description path : String)
  /-- The path cannot even be looked for. -/
  | refused (e : FileError)
  | encoding (path : String) (fault : Text.Utf8.Fault)
  | malformed (description path report : String)
  | tooLong (digits : Nat)
  /-- A configuration that is a value of another kind. -/
  | notObject (kind : String)
  deriving DecidableEq, Repr

/-- The text with its first character in title form and the others small. -/
def capitalized (s : String) : String := String.ofList (Text.capitalize s.toList)

def Fault.message : Fault → String
  | .noPath => "config_path cannot be empty"
  | .suffix path => s!"Configuration file must have a .json extension: {path}"
  | .missing description path => s!"{capitalized description} not found: {path}"
  | .refused e => e.message
  | .encoding path fault => s!"File encoding error in {path}: {fault.message}"
  | .malformed description path report => s!"Invalid JSON in {description} {path} at {report}"
  | .tooLong digits => Json.tooLongMessage digits
  | .notObject kind => s!"Configuration file must contain a JSON object, got {kind}"

/-- The value of the text of a file. -/
def ofChars (description path : String) (cs : List Char) : Except Fault Json :=
  match Json.parseChars cs with
  | .ok v => .ok v
  | .error (.flaw what rest) => .error (.malformed description path (what.report rest cs))
  | .error (.tooLong digits) => .error (.tooLong digits)

/-- The value of the bytes of a file. Every way to end a line counts as one line feed. -/
def ofBytes (description path : String) (bytes : List UInt8) : Except Fault Json :=
  match Text.Utf8.decode bytes with
  | .error fault => .error (.encoding path fault)
  | .ok cs => ofChars description path (Text.unifyLines cs)

/-- The value of a file. The description stands for it in messages. -/
def load (d : Disk) (path description : String) : Except Fault Json := do
  match ← (d.seek (Path.plain path)).mapError .refused with
  | none => throw (.missing description path)
  | some bytes => ofBytes description (Path.plain path) bytes

/-- The name of a configuration ends in `.json`, in letters of either case. -/
def isConfigurationName (path : String) : Bool :=
  Text.lower (Path.suffix path).toList = ".json".toList

/-- The fields of a configuration. -/
def loadConfiguration (d : Disk) (path : String) : Except Fault Json.Object :=
  if path = "" then .error .noPath
  else if !isConfigurationName path then .error (.suffix path)
  else match load d path "configuration file" with
    | .error e => .error e
    | .ok (.obj fields) => .ok fields
    | .ok v => .error (.notObject v.kindName)

end LinkedJson.Files.JsonFile
