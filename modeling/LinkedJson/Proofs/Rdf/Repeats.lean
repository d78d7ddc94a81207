import LinkedJson.Proofs.Rdf.GraphKeys

/-!
Statements that come twice.

A literal without a datatype, or with an empty one, is a string, and its node does not tell in which
way it was given. A graph holds no triple twice, but it may hold one string in several ways. So a
statement comes twice exactly if its triple is there in two of these ways.
-/

namespace LinkedJson.Rdf

/-! ### Strings written out -/

/-- The qualifier with the datatype of strings where none is given. -/
def Qualifier.writtenOut : Qualifier → Qualifier
  | .plain => .datatype xsdString
  | .datatype d => .datatype (if d = "" then xsdString else d)
  | .language tag => .language tag

def Term.writtenOut : Term → Term
  | .literal lexical qualifier => .literal lexical qualifier.writtenOut
  | t => t

def Triple.writtenOut (t : Triple) : Triple :=
  ⟨t.subject.writtenOut, t.predicate.writtenOut, t.object.writtenOut⟩

def Node.term : Node → Term
  | .iri value => .iri value
  | .blank name => .blank (String.ofList (name.toList.drop 2))
  | .literal lexical datatype none => .literal lexical (.datatype datatype)
  | .literal lexical _ (some tag) => .literal lexical (.language tag)

def Statement.triple (s : Statement) : Triple := ⟨s.subject.term, s.predicate.term, s.object.term⟩

/-- How a string is given does not matter for the node. -/
lemma node?_writtenOut (t : Term) : t.writtenOut.node? = t.node? := by
  rcases t with _ | _ | ⟨lexical, _ | d | _⟩ | _ | _ <;> try rfl
  by_cases h : d = "" <;> simp [Term.writtenOut, Qualifier.writtenOut, Term.node?, datatypeOr, h]

lemma term_of_node? {t : Term} {n : Node} (h : t.node? = some n) : n.term = t.writtenOut := by
  rcases t with _ | label | ⟨lexical, _ | d | _⟩ | _ | _ <;> cases h <;> try rfl
  -- the name of a blank node is two characters and its label
  simp [Node.term, Term.writtenOut, blankName]

lemma nodeOf_writtenOut (t : Term) : nodeOf t.writtenOut = nodeOf t := by
  rw [nodeOf, node?_writtenOut, nodeOf]
  rcases t with _ | _ | ⟨_, _ | _ | _⟩ | _ | _ <;> rfl

/-- Different triples that are one when strings are written out. -/
def Respelled (t u : Triple) : Prop := t ≠ u ∧ t.writtenOut = u.writtenOut

def one (qualifier : Qualifier) : Triple :=
  ⟨.iri "http://example.org/s", .iri "http://example.org/note", .literal "1" qualifier⟩

end LinkedJson.Rdf
