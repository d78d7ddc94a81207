import LinkedJson.Json.Value
import LinkedJson.Rdf.Store
import LinkedJson.Text.Quoted

/-!
Datasets in the form in which a document processor takes them: statements grouped by graph.

The default graph comes first, then the named graphs as their first statements come. Terms that are
not RDF have no place in it.
-/

namespace LinkedJson.Rdf

/-- A term of a statement; blank nodes are named `_:` and their label. -/
inductive Node where
  | iri (value : String)
  | blank (name : String)
  | literal (lexical datatype : String) (language : Option String)
  deriving DecidableEq, Repr

namespace Node

def toJson : Node → Json
  | .iri value => .obj [("type", .str "IRI"), ("value", .str value)]
  | .blank name => .obj [("type", .str "blank node"), ("value", .str name)]
  | .literal lexical datatype language =>
    .obj ([("type", .str "literal"), ("value", .str lexical), ("datatype", .str datatype)] ++
      (language.map fun tag => ("language", Json.str tag)).toList)

/-- The text that names the node in a document. -/
def value : Node → String
  | .iri value => value
  | .blank name => name
  | .literal lexical _ _ => lexical

end Node

/-- The name of a blank node. -/
def blankName (label : String) : String := "_:" ++ label

/-- The datatype of a literal; an absent or empty one is that of strings. -/
def datatypeOr (d : String) : String := if d = "" then xsdString else d

/-- The node of a term that is RDF. -/
def Term.node? : Term → Option Node
  | .iri value => some (.iri value)
  | .blank label => some (.blank (blankName label))
  | .literal lexical .plain => some (.literal lexical xsdString none)
  | .literal lexical (.datatype d) => some (.literal lexical (datatypeOr d) none)
  | .literal lexical (.language tag) => some (.literal lexical rdfLangString (some tag))
  | .var _ => none
  | .formula _ => none

/-- The kind of a term that is not RDF, and the term, as messages show them. -/
def Term.described : Term → String × String
  | .var name => ("Variable", "rdflib.term.Variable(" ++ Text.quoted name ++ ")")
  | .formula name =>
    ("QuotedGraph", "<Graph identifier=" ++ name ++ " (<class 'rdflib.graph.QuotedGraph'>)>")
  | .iri value => ("URIRef", Text.quoted value)
  | .blank label => ("BNode", Text.quoted label)
  | .literal lexical _ => ("Literal", Text.quoted lexical)

structure Statement where
  subject : Node
  predicate : Node
  object : Node
  deriving DecidableEq, Repr

def Statement.toJson (s : Statement) : Json :=
  .obj [("subject", s.subject.toJson), ("predicate", s.predicate.toJson),
    ("object", s.object.toJson)]

/-- A term with no place in a dataset. -/
structure NotRdf where
  term : Term
  deriving DecidableEq, Repr

def nodeOf (t : Term) : Except NotRdf Node :=
  match t.node? with
  | some n => .ok n
  | none => .error ⟨t⟩

def Triple.statement (t : Triple) : Except NotRdf Statement := do
  let subject ← nodeOf t.subject
  let predicate ← nodeOf t.predicate
  let object ← nodeOf t.object
  return ⟨subject, predicate, object⟩

/-- Statements by graph. -/
abbrev Dataset := Entries (List Statement)

/-- The key of the default graph. -/
def defaultKey : String := "@default"

/-- The key of a graph. -/
def GraphName.key : GraphName → String
  | .default => defaultKey
  | .named (.iri value) => value
  | .named (.blank label) => blankName label
  | .named (.literal lexical _) => lexical
  | .named (.var name) => name
  | .named (.formula name) => name

namespace Dataset

def insert (d : Dataset) (key : String) (s : Statement) : Dataset :=
  Entries.put d key (((Entries.find? d key).getD []) ++ [s])

/-- The dataset that a store holds. -/
def ofStore (s : Store) : Except NotRdf Dataset :=
  s.allQuads.foldlM (fun d q => do return insert d q.graph.key (← q.triple.statement))
    [(defaultKey, [])]

def toJson (d : Dataset) : Json := .obj (d.map fun g => (g.1, .arr (g.2.map Statement.toJson)))

/-- How many statements and graphs there are. -/
def summary (d : Dataset) : String :=
  let named := d.filter (·.1 ≠ defaultKey)
  let defaults := (Entries.find? d defaultKey).getD []
  s!"{defaults.length} default-graph triples, {named.length} named graphs"

end Dataset

end LinkedJson.Rdf
