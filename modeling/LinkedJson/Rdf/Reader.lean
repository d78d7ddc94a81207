import LinkedJson.Rdf.Input
import LinkedJson.Rdf.NQuads
import LinkedJson.Rdf.Turtle.Document
import LinkedJson.Text.Utf8

/-!
A library that reads the formats of the N-Quads and Turtle families.

It is the one that the program runs with. A text in another format counts as malformed.
-/

namespace LinkedJson.Rdf.Reader

/-- Fills a store with lines. A statement that names its graph brings some bindings with it. -/
def addLines (named : Bindings) (s : Store) (lines : List NQuads.Line) : Store :=
  let s := Input.addAll s (lines.map fun l => (l.triple, l.graph))
  if lines.any (·.graph.isSome) then Input.bindAll s named else s

def addDocument (s : Store) (doc : Turtle.Document) : Store :=
  Input.bindAll (Input.addAll s doc.quads) doc.prefixes

/-- How the text of a format is read. -/
inductive Grammar where
  | lines (style : NQuads.Style)
  | document (d : Turtle.Dialect)
  | unknown

def grammar : Format → Grammar
  | .nTriples => .lines .triples
  | .nQuads => .lines .quads
  | .turtle => .document .turtle
  | .trig => .document .trig
  | .n3 => .document .n3
  | .hexTuples | .jsonLd | .trix | .xml => .unknown

def report : String := "The text is not in the format"

def readChars (named : Bindings) (format : Format) (cs : List Char) (s : Store) :
    Except String Store :=
  let read := match grammar format with
    | .lines style => (NQuads.read? style cs).map (addLines named s)
    | .document d => (Turtle.read? d cs).map (addDocument s)
    | .unknown => none
  match read with
  | some s => .ok s
  | none => .error report

/-- A text without the mark that may start it. -/
def dropMark : List Char → List Char
  | '\uFEFF' :: rest => rest
  | cs => cs

/-- The characters of a file. A document may start with a byte order mark, lines may not. -/
def chars (format : Format) (bytes : List UInt8) : Except String (List Char) :=
  match Text.Utf8.decode bytes, grammar format with
  | .ok cs, .document _ => .ok (dropMark cs)
  | .ok cs, _ => .ok cs
  | .error _, _ => .error report

/-- The library, given the bindings that come with the name of a graph. -/
def library (named : Bindings) : Library where
  guess := Format.guess?
  readText format text := readChars named format text.toList
  readFile format _ bytes s := do readChars named format (← chars format bytes) s

end LinkedJson.Rdf.Reader
