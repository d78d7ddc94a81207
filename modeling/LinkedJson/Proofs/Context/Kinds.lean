import LinkedJson.Proofs.Rdf.Dataset

/-!
What a context and a dataset make of the same term.

A term is classified twice: its definition says how the values of a property are coerced, and its
node says what the value is. The two agree of every term but a literal with an empty datatype.
-/

namespace LinkedJson

def Rdf.Node.told? (n : Rdf.Node) (field : String) : Option String :=
  match n.toJson.field? field with
  | some (.str s) => some s
  | _ => none

namespace Context

open LinkedJson.Rdf

/-- The definition of a term and its node say the same of it: neither has a place for it; it is a
node; it is a text; it is of another datatype. -/
structure Alike (p : String) (o : Term) : Prop where
  none_iff : definition? p o = none ↔ ∃ e, nodeOf o = .error e
  node_iff : definition? p o = some (coerced p "@id") ↔ ∃ n, nodeOf o = .ok n ∧
    (n.told? "type" = some "IRI" ∨ n.told? "type" = some "blank node")
  bare_iff : definition? p o = some (.str p) ↔ ∃ n, nodeOf o = .ok n ∧
    n.told? "type" = some "literal" ∧
    (n.told? "datatype" = some xsdString ∨ n.told? "datatype" = some rdfLangString)
  typed_iff : ∀ d, d ≠ "@id" → (definition? p o = some (coerced p d) ↔ ∃ n, nodeOf o = .ok n ∧
    n.told? "type" = some "literal" ∧ n.told? "datatype" = some d ∧
    d ≠ xsdString ∧ d ≠ rdfLangString)

@[simp] lemma told?_iri_type (value : String) : (Node.iri value).told? "type" = some "IRI" := rfl

@[simp] lemma told?_blank_type (name : String) :
    (Node.blank name).told? "type" = some "blank node" := rfl

@[simp] lemma told?_literal_type (lexical datatype : String) (language : Option String) :
    (Node.literal lexical datatype language).told? "type" = some "literal" := rfl

@[simp] lemma told?_literal_datatype (lexical datatype : String) (language : Option String) :
    (Node.literal lexical datatype language).told? "datatype" = some datatype := rfl

section Kinds

variable {p : String} {o : Term}

lemma alike_of_odd (hd : definition? p o = none) {e : NotRdf} (hn : nodeOf o = .error e) :
    Alike p o := by
  constructor <;> simp [hd, hn]

lemma alike_of_node (hd : definition? p o = some (coerced p "@id")) {n : Node}
    (hn : nodeOf o = .ok n) (htype : n.told? "type" = some "IRI" ∨
      n.told? "type" = some "blank node") : Alike p o := by
  have hliteral : n.told? "type" ≠ some "literal" := by
    rcases htype with h | h <;> simp [h]
  constructor
  · simp [hd, hn]
  · simp [hd, hn, htype]
  · simp [hd, hn, hliteral]
  · intro d hne
    simp [hd, hn, hliteral, hne.symm]

lemma alike_of_text (hd : definition? p o = some (.str p)) {lexical d : String}
    {language : Option String} (hn : nodeOf o = .ok (.literal lexical d language))
    (htext : d = xsdString ∨ d = rdfLangString) : Alike p o := by
  have hbare (type : String) : Json.str p ≠ coerced p type := (coerced_ne_str p type p).symm
  constructor
  · simp [hd, hn]
  · simp [hd, hn, hbare]
  · simp [hd, hn, htext]
  · rintro e -
    have hother : ¬ (d = e ∧ e ≠ xsdString ∧ e ≠ rdfLangString) := by
      rintro ⟨rfl, hstring, hlang⟩
      exact htext.elim hstring hlang
    simpa [hd, hn, hbare] using hother

lemma alike_of_typed {lexical d : String} {language : Option String}
    (hd : definition? p o = some (coerced p d)) (hn : nodeOf o = .ok (.literal lexical d language))
    (hid : d ≠ "@id") (hstring : d ≠ xsdString) (hlang : d ≠ rdfLangString) : Alike p o := by
  constructor
  · simp [hd, hn]
  · simp [hd, hn, hid]
  · simp [hd, hn, hstring, hlang]
  · rintro e -
    have hother : d = e → e ≠ xsdString ∧ e ≠ rdfLangString := by
      rintro rfl
      exact ⟨hstring, hlang⟩
    simpa [hd, hn] using hother

end Kinds

/-- A literal with an empty datatype is a text for the dataset, but not for the context. -/
lemma definition?_emptyDatatype (p lexical : String) :
    definition? p (.literal lexical (.datatype "")) = some (coerced p "") ∧
      nodeOf (.literal lexical (.datatype "")) = .ok (.literal lexical xsdString none) :=
  ⟨rfl, rfl⟩

/-- **A context and a dataset classify a term alike exactly if it is no literal with an empty
datatype.** Such a literal is coerced to the empty datatype in the context, and is a text in the
dataset. -/
theorem alike_iff_datatype_ne_empty (p : String) {o : Term}
    (ho : ∀ lexical, o ≠ .literal lexical (.datatype "@id")) :
    (Alike p o ↔ ∀ lexical, o ≠ .literal lexical (.datatype "")) ∧
      ∀ lexical, o = .literal lexical (.datatype "") →
        definition? p o = some (coerced p "") ∧
          nodeOf o = .ok (.literal lexical xsdString none) := by
  refine ⟨⟨?_, fun hempty => ?_⟩, ?_⟩
  · rintro h lexical rfl
    obtain ⟨hd, hn⟩ := definition?_emptyDatatype p lexical
    have hbare := h.bare_iff.mpr ⟨_, hn, by simp, by simp⟩
    rw [hd, Option.some.injEq] at hbare
    exact coerced_ne_str p "" p hbare
  · rcases o with value | label | ⟨lexical, _ | d | tag⟩ | name | name
    · exact alike_of_node rfl rfl (.inl rfl)
    · exact alike_of_node rfl rfl (.inr rfl)
    · exact alike_of_text rfl rfl (.inl rfl)
    · have hid : d ≠ "@id" := fun h => ho lexical (by rw [h])
      have hne : d ≠ "" := fun h => hempty lexical (by rw [h])
      have hn : nodeOf (.literal lexical (.datatype d)) = .ok (.literal lexical d none) := by
        simp [nodeOf, Term.node?, datatypeOr, hne]
      by_cases htext : d = xsdString ∨ d = rdfLangString
      · exact alike_of_text (if_pos htext) hn htext
      · obtain ⟨hstring, hlang⟩ := not_or.mp htext
        exact alike_of_typed (if_neg htext) hn hid hstring hlang
    · exact alike_of_text rfl rfl (.inr rfl)
    · exact alike_of_odd rfl rfl
    · exact alike_of_odd rfl rfl
  · rintro lexical rfl
    exact definition?_emptyDatatype p lexical

/-- A date is one to both. -/
theorem alike_iff_datatype_ne_empty_date :
    let o : Term := .literal "2024-02-29" (.datatype (xsdNamespace ++ "date"))
    (∀ lexical, o ≠ .literal lexical (.datatype "@id")) ∧
      Alike "http://example.org/born" o := by
  intro o
  have ho : ∀ lexical, o ≠ .literal lexical (.datatype "@id") := by
    simp [o, xsdNamespace]
  refine ⟨ho, (alike_iff_datatype_ne_empty _ ho).1.mpr ?_⟩
  simp [o, xsdNamespace]

/-- Not all terms whose datatype is not that of nodes are classified alike. -/
theorem not_forall_alike : ¬ ∀ (p : String) (o : Term),
    (∀ lexical, o ≠ .literal lexical (.datatype "@id")) → Alike p o := by
  intro h
  have halike := h "http://example.org/p" (.literal "x" (.datatype "")) (by simp)
  have hbare := halike.bare_iff.mpr ⟨.literal "x" xsdString none, rfl, rfl, .inl rfl⟩
  cases hbare

end Context

end LinkedJson
