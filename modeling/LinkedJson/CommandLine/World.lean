import LinkedJson.Log
import LinkedJson.Processor
import LinkedJson.Text.Utf8

/-!
What commands work on: a disk, two streams and a log.
-/

namespace LinkedJson.CommandLine

open LinkedJson.Files

structure World where
  disk : Disk
  shelters : Log.Shelters
  /-- What has been printed for use. -/
  output : String := ""
  /-- What has been said to the user, a message at a time. -/
  messages : List String := []
  threshold : Level := .warning
  logFile : Option String := none
  /-- What has been asked of the processor. -/
  calls : List Call := []

namespace World

def print (w : World) (text : String) : World := { w with output := w.output ++ text }

def say (w : World) (message : String) : World := { w with messages := w.messages ++ [message] }

/-- The disk with a line added to the file of the log. -/
def logged (w : World) (line : String) : Disk :=
  match w.logFile with
  | none => w.disk
  | some path =>
    match w.disk.append path (Text.Utf8.encode (line ++ "\n")) with
    | .ok d => d
    | .error _ => w.disk

/-- Keeps a notice that is grave enough: the user is told, and it goes to the log. -/
def keep (w : World) (n : Notice) : World :=
  if n.reaches w.threshold then { w.say n.line with disk := w.logged n.line } else w

def keepAll (w : World) (ns : List Notice) : World := ns.foldl keep w

end World

end LinkedJson.CommandLine
