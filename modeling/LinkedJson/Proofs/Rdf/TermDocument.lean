import LinkedJson.Proofs.Rdf.Repeats

/-!
Terms read back from their documents.

The document of a term is an object, whose fields in any order tell the node of the term. The node
tells the term, but not in which way a string was given. So two terms have one document exactly if
they are equal when strings are written out.
-/

namespace LinkedJson

def Json.SameFields (v w : Json) : Prop := ∀ key, v.field? key = w.field? key

namespace Rdf

def Term.document (t : Term) : Except NotRdf Json := do return (← nodeOf t).toJson

def Node.ofJson? (v : Json) : Option Node :=
  match v.field? "type", v.field? "value", v.field? "datatype", v.field? "language" with
  | some (.str "IRI"), some (.str value), _, _ => some (.iri value)
  | some (.str "blank node"), some (.str name), _, _ => some (.blank name)
  | some (.str "literal"), some (.str lexical), some (.str datatype), none =>
    some (.literal lexical datatype none)
  | some (.str "literal"), some (.str lexical), some (.str datatype), some (.str tag) =>
    some (.literal lexical datatype (some tag))
  | _, _, _, _ => none

def Term.ofJson? (v : Json) : Option Term := (Node.ofJson? v).map Node.term

/-! ### Nodes -/

lemma ofJson?_congr {v w : Json} (h : v.SameFields w) : Node.ofJson? v = Node.ofJson? w := by
  rw [Node.ofJson?, h "type", h "value", h "datatype", h "language", Node.ofJson?]

@[simp] lemma Node.ofJson?_toJson (n : Node) : Node.ofJson? n.toJson = some n := by
  rcases n with value | name | ⟨lexical, datatype, _ | tag⟩ <;> rfl

lemma Node.eq_of_sameFields {m n : Node} (h : m.toJson.SameFields n.toJson) : m = n := by
  have hread := ofJson?_congr h
  simpa using hread

/-! ### Terms -/

variable {t : Term} {d : Json}

lemma reports_document (t : Term) : Reports [t] t.document :=
  (reports_nodeOf t).map Node.toJson

lemma document_eq_ok_iff : t.document = .ok d ↔ ∃ n, t.node? = some n ∧ n.toJson = d := by
  rw [Term.document, nodeOf]
  cases t.node? <;> simp [bind, Except.bind, pure, Except.pure]

lemma exists_document (h : t.isRdf = true) : ∃ d, t.document = .ok d := by
  have hodd : oddTerm? [t] = none := oddTerm?_eq_none_iff.mpr (by simpa using h)
  have hreport := reports_document t
  simpa only [Reports, hodd] using hreport

lemma term_eq_of_document_eq_error {e : NotRdf} (h : t.document = .error e) : e.term = t := by
  have hodd := (reports_document t).eq_error_iff.mp h
  exact List.mem_singleton.mp (List.mem_of_find?_eq_some hodd)

/-- A document gives back its term with strings written out. -/
lemma ofJson?_of_document (h : t.document = .ok d) : Term.ofJson? d = some t.writtenOut := by
  obtain ⟨n, hn, rfl⟩ := document_eq_ok_iff.mp h
  rw [Term.ofJson?, Node.ofJson?_toJson, Option.map_some, term_of_node? hn]

/-- Documents differ in more than the order of their fields. -/
lemma sameFields_iff_of_document {a b : Term} {d e : Json} (ha : a.document = .ok d)
    (hb : b.document = .ok e) : d.SameFields e ↔ d = e := by
  constructor
  · intro h
    obtain ⟨m, -, rfl⟩ := document_eq_ok_iff.mp ha
    obtain ⟨n, -, rfl⟩ := document_eq_ok_iff.mp hb
    rw [Node.eq_of_sameFields h]
  · rintro rfl key
    rfl

lemma document_writtenOut (t : Term) : t.writtenOut.document = t.document := by
  rw [Term.document, nodeOf_writtenOut, Term.document]

lemma document_eq_iff {a b : Term} : a.document = b.document ↔ a.writtenOut = b.writtenOut := by
  constructor
  · intro h
    rcases ha : a.document with e | d
    · -- a term that is not RDF is reported as it is
      rw [← term_eq_of_document_eq_error ha, term_eq_of_document_eq_error (h ▸ ha)]
    · have hread := (ofJson?_of_document ha).symm.trans (ofJson?_of_document (h ▸ ha))
      exact Option.some.inj hread
  · intro h
    rw [← document_writtenOut a, h, document_writtenOut]

/-- **A term can be read back from its document**, up to the way in which a string was given. The
documents of two terms are one, or have the same fields in another order, exactly if the terms are
equal when strings are written out. -/
theorem document_readable :
    (∀ t : Term, t.isRdf = true → ∃ d, t.document = .ok d ∧ Term.ofJson? d = some t.writtenOut) ∧
    (∀ a b : Term, a.document = b.document ↔ a.writtenOut = b.writtenOut) ∧
    (∀ (a b : Term) (d e : Json), a.document = .ok d → b.document = .ok e →
      (d.SameFields e ↔ a.writtenOut = b.writtenOut)) ∧
    (∀ label, (Term.iri (blankName label)).document ≠ (Term.blank label).document) ∧
    ∀ text q, (Term.literal text q).document ≠ (Term.iri text).document := by
  refine ⟨fun t ht => ?_, fun a b => document_eq_iff, fun a b d e ha hb => ?_, ?_, ?_⟩
  · obtain ⟨d, hd⟩ := exists_document ht
    exact ⟨d, hd, ofJson?_of_document hd⟩
  · rw [← document_eq_iff, ha, hb, Except.ok.injEq]
    exact sameFields_iff_of_document ha hb
  · intro label h
    cases document_eq_iff.mp h
  · intro text q h
    cases document_eq_iff.mp h

/-- A text whose datatype is that of texts in a language, and a text in a language. -/
theorem document_readable_langString : ∃ d e,
    (Term.literal "Paris" (.datatype rdfLangString)).document = .ok d ∧
      (Term.literal "Paris" (.language "FR")).document = .ok e ∧ ¬ d.SameFields e ∧
      Term.ofJson? e = some (.literal "Paris" (.language "FR")) := by
  obtain ⟨hread, -, hsame, -⟩ := document_readable
  obtain ⟨d, hd, -⟩ := hread (.literal "Paris" (.datatype rdfLangString)) rfl
  obtain ⟨e, he, hterm⟩ := hread (.literal "Paris" (.language "FR")) rfl
  refine ⟨d, e, hd, he, fun h => ?_, hterm⟩
  cases (hsame _ _ d e hd he).mp h

end Rdf

end LinkedJson
