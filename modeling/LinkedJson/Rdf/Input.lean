import LinkedJson.Rdf.Format
import LinkedJson.Rdf.Store
import LinkedJson.Text.Blank

/-!
Stores filled from RDF text.

The reading is that of a library, which is a parameter. A store starts without bindings, and the
library brings those that the text declares.
-/

namespace LinkedJson.Rdf

/-- What is used of a library for RDF. A reading fills a store or says why it cannot. -/
structure Library where
  /-- Guesses the name of a format from a path. -/
  guess : String → Option String
  readText : Format → String → Store → Except String Store
  /-- Reads a file, of which it has the path and the bytes. -/
  readFile : Format → String → List UInt8 → Store → Except String Store

namespace Input

/-- Why a text gives no store. -/
inductive Fault where
  | empty
  | unsupported (name : Format.Unsupported)
  | malformed (format : Format) (report : String)
  deriving DecidableEq, Repr

/-- What is said of a malformed text, which may be a file that has a name. -/
def malformedMessage (format : Format) (file : Option String) (report : String) : String :=
  let place := (file.map (" in " ++ ·)).getD ""
  s!"Invalid RDF syntax{place} ({format.name}): {report}"

def Fault.message (file : Option String) : Fault → String
  | .empty => "Empty RDF content provided"
  | .unsupported name => name.message
  | .malformed format report => malformedMessage format file report

def addAll (s : Store) (quads : List (Triple × Option Term)) : Store :=
  quads.foldl (fun s q => s.add q.1 q.2) s

def bindAll (s : Store) (bindings : Bindings) : Store :=
  bindings.foldl (fun s p => (s.bind? p.1 p.2).getD s) s

/-- Fills a new store in a format that is given or told from a path. -/
def fill (lib : Library) (given path : Option String)
    (read : Format → Store → Except String Store) : Except Fault Store :=
  match Format.resolveBy lib.guess given path with
  | .error e => .error (.unsupported e)
  | .ok format => (read format { kind := format.kind }).mapError (.malformed format)

/-- The store of a text. -/
def ofText (lib : Library) (text : String) (given path : Option String) : Except Fault Store :=
  if text.toList.all Text.isBlank then .error .empty
  else fill lib given path fun format => lib.readText format text

/-- The store of a file. -/
def ofBytes (lib : Library) (bytes : List UInt8) (given : Option String) (path : String) :
    Except Fault Store :=
  fill lib given (some path) fun format => lib.readFile format path bytes

end Input

end LinkedJson.Rdf
