import LinkedJson.Iri
import LinkedJson.Json.Value
import LinkedJson.Rdf.Notation3
import LinkedJson.Rdf.Store

/-!
Contexts derived from the triples of a graph.

Each predicate but `rdf:type` becomes a term, defined by the first triple that can define it. The
prefixes come after the terms and never take the place of one.
-/

namespace LinkedJson.Context

open LinkedJson.Rdf

/-- How the keys are formed and in which order the triples are seen. -/
structure Options where
  /-- Use prefixed names where a prefix covers the predicate. -/
  preferPrefixed : Bool := false
  /-- See the triples in the order of their texts. -/
  sortTriples : Bool := false
  deriving DecidableEq, Repr

/-- The key of a predicate. -/
def propertyKey (preferPrefixed : Bool) (prefixes : Entries String) (iri : String) : String :=
  (if preferPrefixed then Iri.abbreviate? iri prefixes else none).getD (Iri.localName iri)

/-- A definition that coerces values to a type. -/
def coerced (iri type : String) : Json := .obj [("@id", .str iri), ("@type", .str type)]

/-- The definition of a predicate by one of its objects: the bare IRI for plain texts, a coercion
for nodes and typed literals, and none for what is not RDF. -/
def definition? (iri : String) : Term → Option Json
  | .iri _ => some (coerced iri "@id")
  | .blank _ => some (coerced iri "@id")
  | .literal _ .plain => some (.str iri)
  | .literal _ (.language _) => some (.str iri)
  | .literal _ (.datatype d) =>
    if d = xsdString ∨ d = rdfLangString then some (.str iri) else some (coerced iri d)
  | .var _ => none
  | .formula _ => none

/-- The entry that a triple offers. -/
def offer? (preferPrefixed : Bool) (prefixes : Entries String) (t : Triple) :
    Option (String × Json) :=
  match t.predicate with
  | .iri p =>
    if p = rdfType then none
    else (definition? p t.object).map (propertyKey preferPrefixed prefixes p, ·)
  | _ => none

/-- One term for each key, the first that is offered. -/
def terms (preferPrefixed : Bool) (prefixes : Entries String) (triples : List Triple) :
    Json.Object :=
  (triples.filterMap (offer? preferPrefixed prefixes)).foldl
    (fun m e => Entries.putNew m e.1 e.2) []

/-- A context with the prefixes added that are not empty. -/
def addPrefixes (context : Json.Object) (prefixes : Entries String) : Json.Object :=
  prefixes.foldl (fun m p => if p.1 = "" then m else Entries.putNew m p.1 (.str p.2)) context

/-! ### Order -/

/-- The texts by which a triple is placed: predicate, object, subject. -/
structure SortKey where
  predicate : String
  object : String
  subject : String

/-- Why there is no sorted order: a term without a text. -/
structure NoText where
  term : Term
  deriving DecidableEq, Repr

def textOf (t : Term) : Except NoText String :=
  match t.text? with
  | some s => .ok s
  | none => .error ⟨t⟩

def SortKey.of (t : Triple) : Except NoText SortKey := do
  let predicate ← textOf t.predicate
  let object ← textOf t.object
  let subject ← textOf t.subject
  return ⟨predicate, object, subject⟩

def SortKey.le (a b : SortKey) : Bool :=
  if a.predicate ≠ b.predicate then a.predicate < b.predicate
  else if a.object ≠ b.object then a.object < b.object
  else a.subject ≤ b.subject

/-- The triples in the order of their texts; those of equal texts keep their order. -/
def sorted (triples : List Triple) : Except NoText (List Triple) := do
  let keyed ← triples.mapM fun t => do return (← SortKey.of t, t)
  return (keyed.mergeSort fun a b => a.1.le b.1).map (·.2)

/-- The context of a list of triples under a map of prefixes. -/
def derive (options : Options) (prefixes : Entries String) (triples : List Triple) :
    Except NoText Json.Object := do
  let triples ← if options.sortTriples then sorted triples else pure triples
  return addPrefixes (terms options.preferPrefixed prefixes triples) prefixes

/-- The context of a store: that of its default graph, under the given prefixes or else its
bindings. -/
def ofStore (options : Options) (prefixes : Option (Entries String)) (s : Store) :
    Except NoText Json.Object :=
  derive options (prefixes.getD s.bindings) s.defaultTriples

end LinkedJson.Context
