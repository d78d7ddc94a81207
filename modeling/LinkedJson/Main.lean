import LinkedJson.CommandLine.Run
import LinkedJson.CommandLine.Usage
import LinkedJson.Processor.Script
import LinkedJson.Rdf.Reader

/-!
The program. The files that a command line names are read first, then the command runs on them as
values, and what it has changed is written.
-/

namespace LinkedJson

open LinkedJson.Files LinkedJson.CommandLine

/-- The paths that a command names. -/
def CommandLine.Command.paths : Command → List String
  | .context c => c.input :: c.config.toList
  | .convert c =>
    c.common.input :: (c.common.config.toList ++ c.output.toList ++ c.context.toList ++
      c.frame.toList)

/-- The paths where the log of a command may be. -/
def CommandLine.Command.logPaths (w : World) (c : Command) : List String :=
  let common := match c with
    | .context c => c
    | .convert c => c.common
  match configuration w.disk common with
  | .error _ => []
  | .ok config =>
    match logPath config with
    | .ok path => if path = "" then [] else Log.candidates w.shelters path
    | .error _ => []

/-- What lies at a path. -/
def lookAt (path : String) : IO (Option Node) := do
  let place := (← IO.currentDir) / path
  if ← place.isDir then return some .directory
  else if ← place.pathExists then return some (.file (← IO.FS.readBinFile place).toList)
  else return none

/-- The disk with all that lies on the way of a path. -/
def load (d : Disk) (path : String) : IO Disk := do
  let steps := Path.steps (d.absolute path)
  let mut d := d
  for n in [1:steps.length + 1] do
    let l := steps.take n
    if let some node ← lookAt (Path.join "/" l) then d := d.put l node
  return d

/-- Writes what has changed. -/
def store (before after : Disk) : IO Unit := do
  for (l, bytes) in after.changes before do
    IO.FS.createDirAll (Path.join "/" l.dropLast)
    IO.FS.writeBinFile (Path.join "/" l) (ByteArray.mk bytes.toArray)

def start : IO World := do
  let here := Path.steps (← IO.currentDir).toString
  let home := (← IO.getEnv "HOME").getD "/"
  let temporary := (← IO.getEnv "TMPDIR").getD "/tmp"
  return { disk := { root := "", here }, shelters := ⟨temporary, home⟩ }

/-- Runs a command and gives the code to end with. -/
def runCommand (c : Command) : IO UInt32 := do
  let w ← start
  let here ← load w.disk "."
  let named ← c.paths.foldlM load here
  let w := { w with disk := named }
  let w := { w with disk := ← (c.logPaths w).foldlM load w.disk }
  let (ending, after) := (c.run (Rdf.Reader.library []) (Script.processor {})).run w
  store w.disk after.disk
  for message in after.messages do IO.eprintln message
  IO.print after.output
  match ending with
  | .code code => return UInt32.ofNat code.number
  | .crash a =>
    IO.eprintln a.message
    return 1

end LinkedJson

open LinkedJson.CommandLine in
/-- Ends with 2 where the command line is refused, and with 1 where it has no command. -/
def main (args : List String) : IO UInt32 := do
  match read args with
  | .command c => LinkedJson.runCommand c
  | .nothing => IO.print usage; return 1
  | .help => IO.print usage; return 0
  | .refused by_ message => IO.eprintln (refusal by_ message); return 2
