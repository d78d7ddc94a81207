import LinkedJson.Failure
import LinkedJson.Files.Disk
import LinkedJson.Notice
import LinkedJson.Text.Case

/-!
Logs: the level from which on notices are kept, and the file that keeps them.

A file that cannot be where it was asked for is put elsewhere, and if it can be nowhere there is
none; but a path with a null character ends the search. A level that has no such name is that of
warnings.
-/

namespace LinkedJson.Log

open LinkedJson.Files

/-! ### Levels -/

/-- What a name in capitals stands for. Two names of the log's own stand for no level. -/
def levelOf (capitals : String) : Except Accident Level :=
  match Level.all.find? (·.name = capitals) with
  | some l => .ok l
  | none =>
    if capitals = "WARN" then .ok .warning
    else if capitals = "FATAL" then .ok .critical
    else if capitals = "BASIC_FORMAT" then
      .error (.levelName "'%(levelname)s:%(name)s:%(message)s'")
    else if capitals = "_STYLES" then .error .levelTable
    else .ok .warning

/-- The level that a name in letters of either case stands for. -/
def levelOfName (name : String) : Except Accident Level :=
  levelOf (String.ofList (Text.asciiCapitals name.toList))

/-! ### Files -/

/-- Directories for files that cannot be where they were asked for. -/
structure Shelters where
  temporary : String
  home : String

def defaultName : String := "jsonld_writer.log"

/-- The paths that are tried for a file, in order. -/
def candidates (s : Shelters) (asked : String) : List String :=
  let name := if Path.baseName asked = "" then defaultName else Path.baseName asked
  [asked, s.temporary ++ "/" ++ name, s.home ++ "/" ++ name]

/-- Makes the directory of a path, and a file there if there is none. The disk is what is left in
either case. -/
def openAt (d : Disk) (path : String) : Except FileError Unit × Disk :=
  let (made, d) : Except FileError Unit × Disk :=
    if Path.dirName path = "" then (.ok (), d) else d.makeDirectories (Path.dirName path)
  match made with
  | .error e => (.error e, d)
  | .ok () =>
    match d.append (d.absolute path) [] with
    | .error e => (.error e, d)
    | .ok d => (.ok (), d)

/-- A file for a log, with what is said of it. -/
structure Opened where
  disk : Disk
  /-- The path of the file, if there is one. -/
  path : Except Accident (Option String)
  messages : List String

/-- Tries paths in turn for a file that was asked for. -/
def openFirst (asked : String) (d : Disk) : List String → Opened
  | [] => ⟨d, .ok none, ["Warning: Could not write log file to any location", "  Requested: " ++ asked,
      "  Logging to console only"]⟩
  | path :: rest =>
    match openAt d path with
    | (.ok (), d) =>
      ⟨d, .ok (some path),
        if path = asked then [] else ["Note: Using fallback log file: " ++ path]⟩
    | (.error ⟨.null, _⟩, d) => ⟨d, .error .nullPath, []⟩
    | (.error e, d) =>
      let o := openFirst asked d rest
      { o with messages := s!"  Could not create log at {path}: {e.message}" :: o.messages }

/-- A file for a log if one is asked for. -/
def openFile (s : Shelters) (d : Disk) (asked : String) : Opened :=
  if asked = "" then ⟨d, .ok none, []⟩ else openFirst asked d (candidates s asked)

end LinkedJson.Log
