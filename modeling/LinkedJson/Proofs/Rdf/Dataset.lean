import LinkedJson.Rdf.Dataset
import LinkedJson.Proofs.Context.FirstSeen

/-!
Which stores have a dataset.

The first term in the order of the quads that is not RDF is the one that is reported. Where there
is none, there is a dataset.
-/

namespace LinkedJson.Rdf

def Triple.terms (t : Triple) : List Term := [t.subject, t.predicate, t.object]

def Store.terms (s : Store) : List Term := s.allQuads.flatMap (·.triple.terms)

lemma Store.mem_terms {s : Store} {x : Term} :
    x ∈ s.terms ↔ ∃ q ∈ s.allQuads, x ∈ q.triple.terms :=
  List.mem_flatMap

def oddTerm? (terms : List Term) : Option Term := terms.find? (!·.isRdf)

lemma oddTerm?_append (terms rest : List Term) :
    oddTerm? (terms ++ rest) = (oddTerm? terms).or (oddTerm? rest) :=
  List.find?_append

lemma oddTerm?_eq_none_iff {terms : List Term} :
    oddTerm? terms = none ↔ ∀ x ∈ terms, x.isRdf = true := by
  simp [oddTerm?]

/-- A result about some terms, or the report of the first of them that is not RDF. -/
def Reports {α : Type} (terms : List Term) (r : Except NotRdf α) : Prop :=
  match oddTerm? terms with
  | some x => r = .error ⟨x⟩
  | none => ∃ a, r = .ok a

section Reports

variable {α β : Type} {terms rest : List Term} {r : Except NotRdf α}

lemma reports_pure (a : α) : Reports [] (pure a : Except NotRdf α) := ⟨a, rfl⟩

/-- What comes after a result reports the terms that come after. -/
lemma Reports.bind {f : α → Except NotRdf β} (h : Reports terms r)
    (hf : ∀ a, Reports rest (f a)) : Reports (terms ++ rest) (r >>= f) := by
  rw [Reports, oddTerm?_append]
  rw [Reports] at h
  rcases hodd : oddTerm? terms with _ | x
  · simp only [hodd] at h
    obtain ⟨a, rfl⟩ := h
    exact hf a
  · simp only [hodd] at h
    rw [h]
    rfl

lemma Reports.map (f : α → β) (h : Reports terms r) : Reports terms (do return f (← r)) := by
  have hbind := h.bind fun a => reports_pure (f a)
  rwa [List.append_nil] at hbind

lemma Reports.eq_error_iff (h : Reports terms r) {e : NotRdf} :
    r = .error e ↔ oddTerm? terms = some e.term := by
  rw [Reports] at h
  rcases hodd : oddTerm? terms with _ | x
  · simp only [hodd] at h
    obtain ⟨a, rfl⟩ := h
    simp
  · simp only [hodd] at h
    rw [h, Except.error.injEq, Option.some.injEq, ← NotRdf.mk.injEq]

end Reports

lemma reports_nodeOf (t : Term) : Reports [t] (nodeOf t) := by
  cases t with
  | literal lexical qualifier => cases qualifier <;> exact ⟨_, rfl⟩
  | iri | blank => exact ⟨_, rfl⟩
  | var | formula => rfl

lemma reports_statement (t : Triple) : Reports t.terms t.statement :=
  (reports_nodeOf t.subject).bind fun _ => (reports_nodeOf t.predicate).bind fun _ =>
    (reports_nodeOf t.object).bind fun _ => reports_pure _

lemma nodeOf_eq_ok_iff {t : Term} {n : Node} : nodeOf t = .ok n ↔ t.node? = some n := by
  rw [nodeOf]
  cases t.node? <;> simp

lemma statement_eq_ok_iff {t : Triple} {st : Statement} : t.statement = .ok st ↔
    t.subject.node? = some st.subject ∧ t.predicate.node? = some st.predicate ∧
      t.object.node? = some st.object := by
  obtain ⟨s, p, o⟩ := st
  simp only [Triple.statement, ← nodeOf_eq_ok_iff]
  rcases nodeOf t.subject with _ | s' <;> rcases nodeOf t.predicate with _ | p' <;>
    rcases nodeOf t.object with _ | o' <;>
    simp [bind, Except.bind, pure, Except.pure]

/-- The dataset of a store takes up its quads one by one, as far as their terms are RDF. -/
lemma reports_ofStore (s : Store) : Reports s.terms (Dataset.ofStore s) := by
  rw [Store.terms, Dataset.ofStore]
  -- the quads that were taken up before do not matter for what the next one reports
  generalize ([(defaultKey, [])] : Dataset) = d
  induction s.allQuads generalizing d with
  | nil => exact reports_pure d
  | cons q rest ih =>
    rw [List.flatMap_cons, List.foldlM_cons]
    exact ((reports_statement q.triple).map (Dataset.insert d q.graph.key)).bind ih

lemma exists_ofStore_eq_error_iff {s : Store} : (∃ e, Dataset.ofStore s = .error e) ↔
    ∃ q ∈ s.allQuads, ∃ x ∈ q.triple.terms, x.isRdf = false := by
  have hodd : (∃ e, Dataset.ofStore s = .error e) ↔ ¬ oddTerm? s.terms = none := by
    simp only [(reports_ofStore s).eq_error_iff, Option.ne_none_iff_exists', ← ne_eq]
    exact ⟨fun ⟨e, he⟩ => ⟨_, he⟩, fun ⟨x, hx⟩ => ⟨⟨x⟩, hx⟩⟩
  rw [hodd, oddTerm?_eq_none_iff]
  simp only [Store.mem_terms, not_forall, Bool.not_eq_true]
  constructor
  · rintro ⟨x, ⟨q, hq, hx⟩, hodd⟩
    exact ⟨q, hq, x, hx, hodd⟩
  · rintro ⟨q, hq, x, hx, hodd⟩
    exact ⟨x, ⟨q, hq, hx⟩, hodd⟩

end LinkedJson.Rdf
