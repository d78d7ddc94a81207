import LinkedJson.Rdf.Term
import LinkedJson.Text.Blank
import LinkedJson.Text.Escape
import LinkedJson.Text.Lines

/-!
Text with one statement on each line: N-Triples, and N-Quads, in which a statement may name its
graph.

Each function gives what stands at the head of a text and the text after it, or nothing where the
text does not start with it.
-/

namespace LinkedJson.Rdf.NQuads

/-- How strictly lines are read. -/
inductive Style where
  /-- Terms must be parted by blanks, and no statement names a graph. -/
  | triples
  | quads
  deriving DecidableEq, Repr

/-- A statement and the graph that it names. -/
structure Line where
  triple : Triple
  graph : Option Term
  deriving DecidableEq, Repr

def isBlank (c : Char) : Bool := c = ' ' || c = '\t'

def skipBlanks (cs : List Char) : List Char := cs.dropWhile isBlank

/-- What a letter after a backslash stands for. -/
def shortEscape? : Char → Option Char
  | 't' => some '\t'
  | 'b' => some '\x08'
  | 'n' => some '\n'
  | 'r' => some '\r'
  | 'f' => some '\x0c'
  | '"' => some '"'
  | '\'' => some '\''
  | '\\' => some '\\'
  | _ => none

/-- The text that an escaped one writes. -/
def unescaped? (cs : List Char) : Option String :=
  (Text.unescape? shortEscape? cs).map String.ofList

/-- A character that may stand in an IRI after its first colon. -/
def inIri (c : Char) : Bool := !Text.isBlank c && c ≠ '"' && c ≠ '<' && c ≠ '>'

/-- An IRI in angle brackets. It has a colon, with something before it. -/
def iri? : List Char → Option (String × List Char)
  | '<' :: cs =>
    match cs.takeWhile (· ≠ ':'), cs.dropWhile (· ≠ ':') with
    | scheme@(_ :: _), ':' :: rest =>
      match rest.dropWhile inIri with
      | '>' :: after =>
        (unescaped? (scheme ++ ':' :: rest.takeWhile inIri)).map fun s => (s, after)
      | _ => none
    | _, _ => none
  | _ => none

/-- The text up to the quotation mark that ends it, with its escapes. -/
def quotedRest? : List Char → Option (List Char × List Char)
  | '"' :: rest => some ([], rest)
  | '\\' :: c :: rest => (quotedRest? rest).map fun (s, after) => ('\\' :: c :: s, after)
  | ['\\'] => none
  | c :: rest => (quotedRest? rest).map fun (s, after) => (c :: s, after)
  | [] => none

/-- The subtags of a language that come next, each with the hyphen before it. -/
def subtagsOf : Nat → List Char → List Char × List Char
  | fuel + 1, '-' :: cs =>
    match cs.takeWhile isLetterOrDigit with
    | [] => ([], '-' :: cs)
    | tag =>
      let (more, rest) := subtagsOf fuel (cs.dropWhile isLetterOrDigit)
      ('-' :: tag ++ more, rest)
  | _, cs => ([], cs)

/-- A language tag: letters, and subtags of letters and digits. -/
def language? (cs : List Char) : Option (String × List Char) :=
  match cs.takeWhile isLetter with
  | [] => none
  | tag =>
    let (more, rest) := subtagsOf cs.length (cs.dropWhile isLetter)
    some (String.ofList (tag ++ more), rest)

/-- A literal: a quoted text, perhaps with a language or a datatype. -/
def literal? : List Char → Option (Term × List Char)
  | '"' :: cs => do
    let (raw, rest) ← quotedRest? cs
    let lexical ← unescaped? raw
    let (datatype, language, rest) ← match rest with
      | '@' :: rest => do
        let (tag, rest) ← language? rest
        pure (none, some tag, rest)
      | '^' :: '^' :: rest => do
        let (iri, rest) ← iri? rest
        pure (some iri, none, rest)
      | rest => pure (none, none, rest)
    let term ← (Term.literal? lexical datatype language).toOption
    return (term, rest)
  | _ => none

def iriTerm? (cs : List Char) : Option (Term × List Char) :=
  (iri? cs).map fun (s, rest) => (.iri s, rest)

/-- The text after the blanks between two terms. -/
def gap? (style : Style) (cs : List Char) : Option (List Char) :=
  match style, cs with
  | .quads, cs => some (skipBlanks cs)
  | .triples, c :: rest => if isBlank c then some (skipBlanks rest) else none
  | .triples, [] => none

/-- The graph that is named, if one is and may be. -/
def graph? (style : Style) (cs : List Char) : Option Term × List Char :=
  match style, iriTerm? cs with
  | .quads, some (t, rest) => (some t, rest)
  | _, _ => (none, cs)

/-- The text is a point, and perhaps a comment. -/
def isEnd (cs : List Char) : Bool :=
  match skipBlanks cs with
  | '.' :: rest =>
    match skipBlanks rest with
    | [] => true
    | c :: _ => c = '#'
  | _ => false

/-- The statement of a line that has one. -/
def statement? (style : Style) (cs : List Char) : Option Line := do
  let (subject, rest) ← iriTerm? cs
  let rest ← gap? style rest
  let (predicate, rest) ← iriTerm? rest
  let rest ← gap? style rest
  let (object, rest) ← (iriTerm? rest).or (literal? rest)
  let (graph, rest) := graph? style (skipBlanks rest)
  if isEnd rest then some ⟨⟨subject, predicate, object⟩, graph⟩ else none

/-- The line holds no statement. -/
def isVoid (cs : List Char) : Bool :=
  match skipBlanks cs with
  | [] => true
  | c :: _ => c = '#'

/-- The statements of a text, in order. White space of any kind may be left after the last line. -/
def read? (style : Style) (cs : List Char) : Option (List Line) :=
  let (lines, last) := Text.splitLines cs
  let lines := lines ++ if last.all Text.isBlank then [] else [last]
  (lines.filter (!isVoid ·)).mapM fun line => statement? style (skipBlanks line)

end LinkedJson.Rdf.NQuads
