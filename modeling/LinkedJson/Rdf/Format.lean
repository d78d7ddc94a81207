import LinkedJson.Rdf.Store
import LinkedJson.Text.Blank
import LinkedJson.Text.Case
import LinkedJson.Text.Quoted

/-!
Formats of RDF text, and which of them a name or the name of a file stands for.

A name that is given settles the format; the name of the file counts only where none is given, and
Turtle is meant where nothing else is said.
-/

namespace LinkedJson.Rdf

inductive Format where
  | hexTuples
  | jsonLd
  | n3
  | nQuads
  | nTriples
  | trig
  | trix
  | turtle
  | xml
  deriving DecidableEq, Repr

namespace Format

def name : Format → String
  | .hexTuples => "hext"
  | .jsonLd => "json-ld"
  | .n3 => "n3"
  | .nQuads => "nquads"
  | .nTriples => "nt"
  | .trig => "trig"
  | .trix => "trix"
  | .turtle => "turtle"
  | .xml => "xml"

/-- All formats, in the alphabetical order of their names. -/
def all : List Format := [.hexTuples, .jsonLd, .n3, .nQuads, .nTriples, .trig, .trix, .turtle, .xml]

def ofName? (s : String) : Option Format := all.find? (·.name = s)

/-- A text in the format may hold named graphs. -/
def hasGraphs : Format → Bool
  | .hexTuples | .jsonLd | .nQuads | .trig | .trix => true
  | .n3 | .nTriples | .turtle | .xml => false

/-- The kind of store that a text in the format fills. -/
def kind (f : Format) : Kind := if f.hasGraphs then .dataset else .graph

/-- Other names of formats. -/
def aliases : Entries Format := [
  ("ttl", .turtle),
  ("rdf", .xml), ("rdfxml", .xml), ("rdf-xml", .xml), ("owl", .xml),
  ("ntriples", .nTriples), ("n-triples", .nTriples),
  ("nq", .nQuads), ("nquad", .nQuads),
  ("jsonld", .jsonLd), ("json_ld", .jsonLd),
  ("hextuples", .hexTuples)]

/-! ### Names -/

def lower (s : String) : String := String.ofList (Text.lower s.toList)

/-- A name trimmed and in small letters, one of the other names replaced by the name itself. -/
def canonical (s : String) : String :=
  let s := lower (String.ofList (Text.trim s.toList))
  ((Entries.find? aliases s).map name).getD s

/-- The canonical form of a name that is given; an empty one is not. -/
def normalize? (given : Option String) : Option String :=
  (given.filter (· ≠ "")).map canonical

/-! ### Names of files -/

/-- The characters after the last of a kind, with it in front; none if there is none. -/
def lastFrom? (p : Char → Bool) (cs : List Char) : Option (List Char) :=
  let back := cs.reverse
  match back.dropWhile (!p ·) with
  | [] => none
  | c :: _ => some (c :: (back.takeWhile (!p ·)).reverse)

/-- The last part of a path. -/
def lastPart (path : List Char) : List Char :=
  ((lastFrom? (· = '/') path).map (·.drop 1)).getD path

/-- The last part of a name from its last point on. Points that a name starts with do not count. -/
def suffix (path : List Char) : List Char :=
  (lastFrom? (· = '.') ((lastPart path).dropWhile (· = '.'))).getD []

/-- What follows the point of the suffix, in small letters. A path that starts with a point and has
no suffix is one itself. -/
def ending (path : String) : String :=
  let cs := match suffix path.toList, path.toList with
    | [], '.' :: rest => '.' :: rest
    | s, _ => s
  String.ofList (match Text.lower cs with
    | '.' :: rest => rest
    | cs => cs)

/-- Format names by the endings of files. Not every one of them is a format here. -/
def endings : Entries String := [
  ("xml", "xml"), ("rdf", "xml"), ("owl", "xml"), ("n3", "n3"), ("ttl", "turtle"), ("nt", "nt"),
  ("trix", "trix"), ("xhtml", "rdfa"), ("html", "rdfa"), ("svg", "rdfa"), ("nq", "nquads"),
  ("nquads", "nquads"), ("trig", "trig"), ("json", "json-ld"), ("jsonld", "json-ld"),
  ("json-ld", "json-ld")]

/-- The format name that the ending of a path stands for, or else the path as a whole. -/
def guess? (path : String) : Option String :=
  (Entries.find? endings (ending path)).or (Entries.find? endings (lower path))

/-! ### Resolution -/

/-- A name that stands for no format. -/
structure Unsupported where
  name : String
  deriving DecidableEq, Repr

def Unsupported.message (u : Unsupported) : String :=
  s!"Unsupported RDF serialization format '{u.name}'. " ++
    s!"Supported formats: {Text.quotedList (all.map Format.name)}"

section Guess

variable (guess : String → Option String)

/-- The canonical name that a path comes to by a way of guessing. -/
def inferBy? (path : String) : Option String := normalize? (guess path)

/-- The name that a given name and a path come to. -/
def resolvedNameBy (given path : Option String) : String :=
  (((normalize? given).filter (· ≠ "")).or
    ((path.bind (inferBy? guess)).filter (· ≠ ""))).getD turtle.name

/-- The format of a given name, or else of a path. A failure names what was given. -/
def resolveBy (given path : Option String) : Except Unsupported Format :=
  match ofName? (resolvedNameBy guess given path) with
  | some f => .ok f
  | none => .error ⟨(given.filter (· ≠ "")).getD (resolvedNameBy guess given path)⟩

end Guess

def infer? (path : String) : Option String := inferBy? guess? path

/-- The format of a given name, or else of the ending of a path. -/
def resolve (given path : Option String) : Except Unsupported Format := resolveBy guess? given path

end Format

end LinkedJson.Rdf
