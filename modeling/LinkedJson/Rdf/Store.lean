import LinkedJson.Rdf.Term
import LinkedJson.Rdf.Bindings

/-!
Graphs and datasets as stores of triples.

A store lists its distinct triples in the order in which they first came into any of its graphs,
and for each graph its triples in the order in which they came into that graph. A triple that has
left all graphs is forgotten.
-/

namespace LinkedJson.Rdf

inductive Kind where
  /-- One graph. -/
  | graph
  /-- A default graph and named graphs; seen as a graph it is its default graph. -/
  | dataset
  /-- A default graph and named graphs; seen as a graph it is the union of them. -/
  | conjunctive
  deriving DecidableEq, Repr

inductive GraphName where
  | default
  | named (name : Term)
  deriving DecidableEq, Repr

/-- The IRI that names the default graph of a dataset. -/
def defaultGraphIri : String := "urn:x-rdflib:default"

/-- The graph of a store that a name, if there is one, stands for. -/
def Kind.graphName (kind : Kind) (name : Option Term) : GraphName :=
  match kind, name with
  | .graph, _ => .default
  | _, none => .default
  | .dataset, some t => if t = .iri defaultGraphIri then .default else .named t
  | .conjunctive, some t => .named t

structure Quad where
  triple : Triple
  graph : GraphName
  deriving DecidableEq, Repr

structure Store where
  kind : Kind
  bindings : Bindings := []
  /-- The distinct triples. -/
  triples : List Triple := []
  /-- Which graph holds which of them, in the order of addition. -/
  quads : List Quad := []
  deriving Repr

namespace Store

/-- The triple as the store holds it. -/
def stored (s : Store) (t : Triple) : Triple := (s.triples.find? t.same).getD t

def holds (s : Store) (q : Quad) : Bool :=
  s.quads.any fun p => p.triple.same q.triple && p.graph = q.graph

/-- Adds a triple to a graph; one that the graph holds already stays as it is. -/
def add (s : Store) (t : Triple) (graph : Option Term) : Store :=
  let q : Quad := ⟨s.stored t, s.kind.graphName graph⟩
  if s.holds q then s
  else { s with
    triples := if s.triples.any t.same then s.triples else s.triples ++ [t]
    quads := s.quads ++ [q] }

/-- Part of a triple to look for; nothing matches all terms. -/
abbrev Pattern := Option Term

def Pattern.covers (p : Pattern) (t : Term) : Bool := p.all t.same

/-- Removes from one graph the triples that match. -/
def remove (s : Store) (subject predicate object : Pattern) (graph : Option Term) : Store :=
  let name := s.kind.graphName graph
  let quads := s.quads.filter fun q =>
    !(q.graph = name && Pattern.covers subject q.triple.subject &&
      Pattern.covers predicate q.triple.predicate && Pattern.covers object q.triple.object)
  { s with
    quads
    triples := s.triples.filter fun t => quads.any fun q => q.triple.same t }

def bind? (s : Store) (p ns : String) : Option Store :=
  (s.bindings.bind? p ns).map fun bindings => { s with bindings }

/-- The number of distinct triples. -/
def size (s : Store) : Nat := s.triples.length

/-- The triples of the default graph. -/
def defaultTriples (s : Store) : List Triple :=
  (s.quads.filter (·.graph = .default)).map (·.triple)

/-- The triples of the store seen as one graph. -/
def graphTriples (s : Store) : List Triple :=
  match s.kind with
  | .conjunctive => s.triples
  | _ => s.defaultTriples

/-- Each triple with each graph that holds it. -/
def allQuads (s : Store) : List Quad :=
  s.triples.flatMap fun t => s.quads.filter fun q => q.triple.same t

end Store

end LinkedJson.Rdf
