import LinkedJson.Rdf.Turtle.Term

/-!
Turtle documents: directives, statements and, in TriG, graphs in braces.

The triples come in the order in which they are written, each with the name of the graph that it
stands in. A prefix may be declared again; it then stands for another namespace from there on.
-/

namespace LinkedJson.Rdf.Turtle

/-- Where a document has been read to. -/
inductive Place where
  | outside
  /-- Inside the braces of a graph, the default graph if it has no name. -/
  | inside (graph : Option Term)
  deriving DecidableEq, Repr

def Place.graph : Place → Option Term
  | .outside => none
  | .inside graph => graph

/-- What has been read of a document. -/
structure Document where
  prefixes : Bindings := []
  quads : List (Triple × Option Term) := []
  place : Place := .outside

namespace Document

def addTriples (doc : Document) (ts : List Triple) : Document :=
  { doc with quads := doc.quads ++ ts.map (·, doc.place.graph) }

def declare (doc : Document) (p ns : String) : Document :=
  { doc with prefixes := Entries.put doc.prefixes p ns }

/-! ### Directives -/

/-- A prefix, the colon after it, and its namespace. -/
def declaration? (doc : Document) (cs : List Char) : Option (Document × List Char) := do
  let ((p, _), rest) ← name? (skipBlanks cs)
  let (ns, rest) ← iri? doc.prefixes rest
  return (doc.declare p ns, rest)

/-- The text after the sign that a prefix is declared. -/
def declarationSign? (cs : List Char) : Option (List Char) :=
  match cs with
  | '@' :: _ =>
    let rest := cs.drop "@prefix".length
    if "@prefix".toList.isPrefixOf cs ∧ rest.head?.any fun c => endsName c ∨ c = '.' ∨ c = ':' then
      some rest
    else none
  | _ => none

/-- The text after the end of a statement: a point, which the closing brace of a graph makes up
for. -/
def finish? (cs : List Char) : Option (List Char) :=
  match skipBlanks cs with
  | '.' :: rest => some rest
  | '\x7d' :: rest => some ('\x7d' :: rest)
  | _ => none

/-! ### Statements -/

/-- The objects that come next, with commas between them. -/
def objects? (d : Dialect) (prefixes : Bindings) :
    Nat → List Char → Option (List Term × List Char)
  | 0, _ => none
  | fuel + 1, cs => do
    let (t, rest) ← term? d prefixes cs
    match skipBlanks rest with
    | ',' :: rest => do
      let (more, rest) ← objects? d prefixes fuel rest
      return (t :: more, rest)
    | rest => return ([t], rest)

/-- A predicate: a term, or the word for `rdf:type`. -/
def predicate? (d : Dialect) (prefixes : Bindings) (cs : List Char) :
    Option (Term × List Char) :=
  ((word? "a" cs).map fun rest => (.iri rdfType, rest)).or (term? d prefixes cs)

def skipSemicolons : Nat → List Char → List Char
  | 0, cs => cs
  | fuel + 1, cs =>
    match skipBlanks cs with
    | ';' :: rest => skipSemicolons fuel rest
    | cs => cs

/-- The triples of a subject. Semicolons part the predicates and may be repeated or come last. -/
def properties? (d : Dialect) (prefixes : Bindings) (subject : Term) :
    Nat → List Char → Option (List Triple × List Char)
  | 0, _ => none
  | fuel + 1, cs => do
    let cs := skipSemicolons (cs.length + 1) cs
    if cs.isEmpty ∨ [':', '-'].isPrefixOf cs then none
    else match predicate? d prefixes cs with
      | none => return ([], cs)
      | some (predicate, rest) => do
        let (objects, rest) ← objects? d prefixes (rest.length + 1) rest
        let triples := objects.map fun object => (⟨subject, predicate, object⟩ : Triple)
        match skipBlanks rest with
        | ';' :: rest => do
          let (more, rest) ← properties? d prefixes subject fuel rest
          return (triples ++ more, rest)
        | rest => return (triples, rest)

/-- A subject and its properties. -/
def statement? (d : Dialect) (doc : Document) (cs : List Char) :
    Option (Document × List Char) := do
  let (subject, rest) ← term? d doc.prefixes cs
  let (triples, rest) ← properties? d doc.prefixes subject (rest.length + 1) rest
  return (doc.addTriples triples, rest)

/-! ### Graphs -/

/-- The name of a graph. After the word for it there must be one. -/
def graphName? (prefixes : Bindings) (cs : List Char) : Option (Option Term × List Char) :=
  match directive? "graph" cs with
  | some rest => (iri? prefixes rest).map fun (iri, rest) => (some (.iri iri), rest)
  | none =>
    match iri? prefixes cs with
    | some (iri, rest) => some (some (.iri iri), rest)
    | none => some (none, cs)

/-- The opening of a graph: perhaps a name and an equals sign, and a brace. -/
def opening? (prefixes : Bindings) (cs : List Char) : Option (Option Term × List Char) := do
  let (graph, rest) ← graphName? prefixes cs
  let rest := match skipBlanks rest with
    | '=' :: rest => skipBlanks rest
    | rest => rest
  match rest with
  | '\x7b' :: rest => some (graph, rest)
  | _ => none

/-! ### Documents -/

/-- A directive that stands without a sign and needs no point after it. -/
def plainDeclaration? (d : Dialect) (doc : Document) (cs : List Char) :
    Option (Document × List Char) :=
  if d = .n3 then none
  else match directive? "prefix" cs with
    | some rest => declaration? doc rest
    | none => none

/-- What comes next in a document: a declaration or a statement. -/
def entry (d : Dialect) (doc : Document) (cs : List Char) : Option (Document × List Char) :=
  (plainDeclaration? d doc cs).or do
    let (doc, rest) ← match declarationSign? cs with
      | some rest => declaration? doc rest
      | none => statement? d doc cs
    return (doc, ← finish? rest)

/-- Reads on to the end of a text. Graphs are closed there, and none stands in another. -/
def continue? (d : Dialect) : Nat → Document → List Char → Option Document
  | 0, _, _ => none
  | fuel + 1, doc, cs =>
    match skipBlanks cs, doc.place with
    | [], .outside => some doc
    | [], .inside _ => none
    | '\x7d' :: rest, .inside _ => continue? d fuel { doc with place := .outside } rest
    | cs, place =>
      match if d = .trig then opening? doc.prefixes cs else none, place with
      | some (graph, rest), .outside => continue? d fuel { doc with place := .inside graph } rest
      | some _, .inside _ => none
      | none, _ =>
        match entry d doc cs with
        | some (doc, rest) => continue? d fuel doc rest
        | none => none

end Document

/-- The document that a text is. -/
def read? (d : Dialect) (cs : List Char) : Option Document :=
  Document.continue? d (cs.length + 1) {} cs

end LinkedJson.Rdf.Turtle
