import LinkedJson.Processor.Script
import LinkedJson.Proofs.Processor
import LinkedJson.Proofs.Rdf.Dataset
import LinkedJson.Proofs.Rdf.Store
import Mathlib.Data.List.Forall2

/-!
The dataset of a store is its quads grouped by graph.

Each quad is one statement in the list of its graph's key. The keys stand in the order in which
their graphs first come, after that of the default graph, which is there in any case.
-/

namespace LinkedJson.Rdf

def Quad.States (q : Quad) (s : Statement) : Prop := q.triple.statement = .ok s

/-- The keys of some quads, other than that of the default graph. -/
def namedKeys (quads : List Quad) : List String :=
  (quads.map (·.graph.key)).filter (· ≠ defaultKey)

/-- The dataset holds some quads by graph, and nothing else. -/
structure Grouped (quads : List Quad) (d : Dataset) : Prop where
  /-- The default graph comes first, then each other key when it first comes. -/
  keys : Entries.keys d = defaultKey :: (namedKeys quads).eraseDups
  /-- Under each key are the statements of its quads, in order. -/
  statements : ∀ g ∈ d, List.Forall₂ Quad.States (quads.filter (·.graph.key = g.1)) g.2
  /-- There are as many statements as quads. -/
  total : (d.flatMap (·.2)).length = quads.length
  /-- Only the default graph may be empty. -/
  nonempty : ∀ g ∈ d, g.2 = [] → g.1 = defaultKey

lemma rightUnique_states : Relator.RightUnique Quad.States := fun _ _ _ h h' =>
  Except.ok.inj (h.symm.trans h')

lemma mem_namedKeys {quads : List Quad} {k : String} :
    k ∈ namedKeys quads ↔ k ≠ defaultKey ∧ ∃ q ∈ quads, q.graph.key = k := by
  simp [namedKeys, and_comm]

section Grouped

variable {quads : List Quad} {d : Dataset}

lemma Grouped.nodup_keys (h : Grouped quads d) : (Entries.keys d).Nodup := by
  rw [h.keys, List.nodup_cons, List.mem_eraseDups, mem_namedKeys]
  exact ⟨fun hdefault => hdefault.1 rfl, nodup_eraseDups _⟩

lemma Grouped.mem_keys (h : Grouped quads d) {k : String} :
    k ∈ Entries.keys d ↔ k = defaultKey ∨ ∃ q ∈ quads, q.graph.key = k := by
  rw [h.keys, List.mem_cons, List.mem_eraseDups, mem_namedKeys]
  tauto

/-! ### One quad -/

lemma grouped_nil : Grouped [] [(defaultKey, [])] where
  keys := rfl
  statements := by simp
  total := rfl
  nonempty := by simp

lemma eraseDups_concat {l : List String} {x : String} :
    (l ++ [x]).eraseDups = if x ∈ l then l.eraseDups else l.eraseDups ++ [x] := by
  rw [List.eraseDups_append]
  by_cases h : x ∈ l <;> simp [h, List.removeAll, List.eraseDups_cons]

lemma namedKeys_concat (quads : List Quad) (q : Quad) : namedKeys (quads ++ [q]) =
    namedKeys quads ++ if q.graph.key = defaultKey then [] else [q.graph.key] := by
  by_cases h : q.graph.key = defaultKey <;> simp [namedKeys, h]

lemma keys_insert (key : String) (st : Statement) : Entries.keys (Dataset.insert d key st) =
    if key ∈ Entries.keys d then Entries.keys d else Entries.keys d ++ [key] := by
  rw [Dataset.insert]
  split
  · rename_i hmem
    obtain ⟨sts, hfind⟩ := Entries.exists_find? hmem
    exact Entries.keys_put_of_find?_isSome (by rw [hfind]; rfl) _
  · rename_i hnew
    exact Entries.keys_put_of_find?_eq_none (Entries.find?_eq_none_iff.mpr hnew) _

lemma length_statements_insert (d : Dataset) (key : String) (st : Statement) :
    ((Dataset.insert d key st).flatMap (·.2)).length = (d.flatMap (·.2)).length + 1 := by
  rw [Dataset.insert]
  induction d with
  | nil => rfl
  | cons g rest ih =>
    by_cases hkey : g.1 = key
    · simp only [Entries.put, Entries.find?, hkey, if_true, Option.getD_some, List.flatMap_cons,
        List.length_append, List.length_singleton]
      omega
    · simp only [Entries.put, Entries.find?, hkey, if_false, List.flatMap_cons,
        List.length_append, ih]
      omega

/-- What was under a key are the statements of its quads, also if there were none. -/
lemma Grouped.statements_getD (h : Grouped quads d) (k : String) :
    List.Forall₂ Quad.States (quads.filter (·.graph.key = k)) ((Entries.find? d k).getD []) := by
  rcases hfind : Entries.find? d k with _ | sts
  · -- a quad of the key would have brought it into the dataset
    have hnone : quads.filter (·.graph.key = k) = [] := by
      rw [List.filter_eq_nil_iff]
      intro q hq hk
      refine Entries.find?_eq_none_iff.mp hfind (h.mem_keys.mpr (Or.inr ⟨q, hq, ?_⟩))
      simpa using hk
    rw [hnone]
    exact List.Forall₂.nil
  · exact h.statements (k, sts) (Entries.mem_of_find? hfind)

/-- **The step**: a quad is put at the end of its graph. -/
lemma Grouped.insert (h : Grouped quads d) {q : Quad} {st : Statement} (hst : q.States st) :
    Grouped (quads ++ [q]) (Dataset.insert d q.graph.key st) where
  keys := by
    rw [keys_insert, h.keys, namedKeys_concat]
    by_cases hdefault : q.graph.key = defaultKey
    · simp [hdefault]
    · rw [if_neg hdefault, eraseDups_concat]
      by_cases hmem : q.graph.key ∈ namedKeys quads
      · simp [hmem]
      · simp [hmem, hdefault]
  statements := by
    intro g hg
    rw [List.filter_append]
    rcases (Entries.mem_put_iff h.nodup_keys).mp hg with rfl | ⟨hmem, hne⟩
    · rw [List.filter_cons_of_pos (by simp), List.filter_nil]
      exact List.rel_append (h.statements_getD _) (List.Forall₂.cons hst List.Forall₂.nil)
    · rw [List.filter_cons_of_neg (by simpa using Ne.symm hne), List.filter_nil, List.append_nil]
      exact h.statements g hmem
  total := by rw [length_statements_insert, h.total, List.length_append, List.length_singleton]
  nonempty := by
    intro g hg hnil
    rcases (Entries.mem_put_iff h.nodup_keys).mp hg with rfl | ⟨hmem, -⟩
    · simp at hnil
    · exact h.nonempty g hmem hnil

/-! ### All quads -/

/-- Quads that are taken up after others come after these. -/
lemma Grouped.foldlM (h : Grouped quads d) {rest : List Quad} {d' : Dataset}
    (hd : (rest.foldlM (fun d q => do return Dataset.insert d q.graph.key (← q.triple.statement))
      d : Except NotRdf Dataset) = .ok d') : Grouped (quads ++ rest) d' := by
  -- the invariant is about the quads that were taken up so far
  induction rest generalizing quads d with
  | nil =>
    cases hd
    rwa [List.append_nil]
  | cons q rest ih =>
    rw [List.foldlM_cons] at hd
    rcases hst : q.triple.statement with e | st <;> rw [hst] at hd
    · cases hd
    · rw [List.append_cons]
      exact ih (h.insert hst) hd

lemma Grouped.unique {d' : Dataset} (h : Grouped quads d) (h' : Grouped quads d') : d = d' := by
  refine Entries.eq_of_keys_eq (h.keys.trans h'.keys.symm) fun k sts sts' hmem hmem' => ?_
  exact rightUnique_states.forall₂ (h.statements _ hmem) (h'.statements _ hmem')

lemma Grouped.exists_states (h : Grouped quads d) {q : Quad} (hq : q ∈ quads) :
    ∃ st, q.States st := by
  obtain ⟨sts, hfind⟩ := Entries.exists_find? (h.mem_keys.mpr (Or.inr ⟨q, hq, rfl⟩))
  have hstates := h.statements _ (Entries.mem_of_find? hfind)
  have hboth := hstates.imp fun p st hst => (⟨⟨st, hst⟩, hst⟩ : (∃ st, p.States st) ∧ p.States st)
  exact ((List.forall₂_and_left _ _).mp hboth).1 q (by simp [hq])

lemma Grouped.exists_quad (h : Grouped quads d) {st : Statement} (hst : st ∈ d.flatMap (·.2)) :
    ∃ q ∈ quads, q.States st := by
  obtain ⟨g, hg, hst⟩ := List.mem_flatMap.mp hst
  obtain ⟨hlength, hstates⟩ := List.forall₂_iff_get.mp (h.statements g hg)
  obtain ⟨i, rfl⟩ := List.mem_iff_get.mp hst
  have hi : i.1 < (quads.filter (·.graph.key = g.1)).length := by
    rw [hlength]
    exact i.2
  exact ⟨_, (List.mem_filter.mp (List.get_mem _ ⟨i, hi⟩)).1, hstates i hi i.2⟩

end Grouped

/-! ### All terms -/

def FirstOdd (terms : List Term) (x : Term) : Prop :=
  ∃ before after, terms = before ++ x :: after ∧ x.isRdf = false ∧ ∀ y ∈ before, y.isRdf = true

lemma oddTerm?_eq_some_iff {terms : List Term} {x : Term} :
    oddTerm? terms = some x ↔ FirstOdd terms x := by
  simp only [oddTerm?, List.find?_eq_some_iff_append, FirstOdd, Bool.not_eq_true', Bool.not_not]
  constructor
  · rintro ⟨hx, before, after, hterms, hbefore⟩
    exact ⟨before, after, hterms, hx, hbefore⟩
  · rintro ⟨before, after, hterms, hx, hbefore⟩
    exact ⟨hx, before, after, hterms, hbefore⟩

lemma ofStore_eq_error_iff {s : Store} {x : Term} :
    Dataset.ofStore s = .error ⟨x⟩ ↔ FirstOdd s.terms x := by
  rw [(reports_ofStore s).eq_error_iff, oddTerm?_eq_some_iff]

lemma exists_ofStore_eq_ok_iff {s : Store} :
    (∃ d, Dataset.ofStore s = .ok d) ↔ ∀ x ∈ s.terms, x.isRdf = true := by
  have h := reports_ofStore s
  rw [← oddTerm?_eq_none_iff]
  rw [Reports] at h
  rcases hodd : oddTerm? s.terms with _ | x <;> simp only [hodd] at h
  · simp [h]
  · simp [h]

lemma isRdf_of_states {q : Quad} {st : Statement} (h : q.States st) :
    ∀ x ∈ q.triple.terms, x.isRdf = true := by
  have hreports := reports_statement q.triple
  rw [← oddTerm?_eq_none_iff]
  by_contra hodd
  obtain ⟨x, hx⟩ := Option.ne_none_iff_exists'.mp hodd
  have herror : q.triple.statement = .error ⟨x⟩ := hreports.eq_error_iff.mpr hx
  cases h.symm.trans herror

lemma ofStore_eq_ok_iff {s : Store} {d : Dataset} :
    Dataset.ofStore s = .ok d ↔ Grouped s.allQuads d := by
  have hgrouped {d : Dataset} (h : Dataset.ofStore s = .ok d) : Grouped s.allQuads d := by
    have := grouped_nil.foldlM h
    rwa [List.nil_append] at this
  refine ⟨hgrouped, fun h => ?_⟩
  -- what can be grouped is RDF, so there is a dataset, and it is grouped in the same way
  have hrdf : ∀ x ∈ s.terms, x.isRdf = true := by
    intro x hx
    obtain ⟨q, hq, hxq⟩ := Store.mem_terms.mp hx
    obtain ⟨st, hst⟩ := h.exists_states hq
    exact isRdf_of_states hst x hxq
  obtain ⟨d', hd'⟩ := exists_ofStore_eq_ok_iff.mpr hrdf
  rw [hd', h.unique (hgrouped hd')]

/-! ### The dataset of a store -/

lemma expandedForm_of_error {s : Store} {e : NotRdf} (h : Dataset.ofStore s = .error e)
    (p : Processor) (options : Ref) (t : Trace) :
    (p.expandedForm s options).runAfter t = (.error (.transform (.notRdf e)), t) := by
  rw [Processor.expandedForm, h]
  rfl

/-- **The dataset of a store loses, adds and moves nothing.** It is the quads of the store grouped
by graph, and there is one exactly if all terms are RDF. Else the first term that is not fails the
step that makes a document of the dataset. The quads are those that the store holds, and none that
a name of the default graph stands for is in a named graph. -/
theorem ofStore_grouped (s : Store) :
    (∀ d, Dataset.ofStore s = .ok d ↔ Grouped s.allQuads d) ∧
    ((∃ d, Dataset.ofStore s = .ok d) ↔ ∀ x ∈ s.terms, x.isRdf = true) ∧
    (∀ x, Dataset.ofStore s = .error ⟨x⟩ ↔ FirstOdd s.terms x) ∧
    (∀ x, FirstOdd s.terms x → (TransformError.notRdf ⟨x⟩).operation = some "from_rdf" ∧
      ∀ (p : Processor) options t,
        (p.expandedForm s options).runAfter t = (.error (.transform (.notRdf ⟨x⟩)), t)) ∧
    (s.Reachable → s.allQuads.Perm s.quads ∧
      ∀ q ∈ s.allQuads, ∀ x, q.graph = .named x → s.kind.graphName (some x) = .named x) := by
  refine ⟨fun d => ofStore_eq_ok_iff, exists_ofStore_eq_ok_iff, fun x => ofStore_eq_error_iff,
    fun x hx => ⟨rfl, expandedForm_of_error (ofStore_eq_error_iff.mpr hx)⟩, fun hreachable => ?_⟩
  have hcoherent := hreachable.coherent
  exact ⟨hcoherent.allQuads_perm, fun q hq => hcoherent.named q (Store.mem_allQuads.mp hq).1⟩

/-- A dataset with a triple in two graphs, and one in a graph of a strange name. -/
def shelves : Store :=
  let first : Triple := ⟨.blank "s", .iri "http://example.org/name", .literal "x" .plain⟩
  let second : Triple := ⟨.blank "s", .iri "http://example.org/name", .literal "y" .plain⟩
  Input.addAll { kind := .dataset } [(first, some (.iri "http://example.org/g")),
    (second, some (.blank "h")), (first, some (.iri defaultGraphIri)),
    (second, some (.iri "@default"))]

/-- Quads are listed triple by triple. A variable among the terms fails the document. -/
theorem ofStore_grouped_shelves :
    (∃ d, Dataset.ofStore shelves = .ok d ∧ Grouped shelves.allQuads d ∧
      d.map (fun g => (g.1, g.2.length)) =
        [("@default", 2), ("http://example.org/g", 1), ("_:h", 1)]) ∧
    shelves.allQuads ≠ shelves.quads ∧ shelves.allQuads.Perm shelves.quads ∧
    let odd := shelves.add ⟨.blank "s", .var "p", .var "o"⟩ none
    Dataset.ofStore odd = .error ⟨.var "p"⟩ ∧
      ((Script.processor {}).expandedForm odd 0).runAfter {} =
        (.error (.transform (.notRdf ⟨.var "p"⟩)), {}) := by
  obtain ⟨hok, -, -, -, hquads⟩ := ofStore_grouped shelves
  refine ⟨⟨_, rfl, (hok _).mp rfl, rfl⟩, by decide +kernel,
    (hquads ((Store.Reachable.empty _).addAll _)).1, ?_⟩
  intro odd
  obtain ⟨-, -, herror, hfails, -⟩ := ofStore_grouped odd
  have hodd : FirstOdd odd.terms (.var "p") :=
    ⟨shelves.terms ++ [.blank "s"], [.var "o"], by rfl, rfl, by decide +kernel⟩
  exact ⟨(herror _).mpr hodd, (hfails _ hodd).2 _ _ _⟩

end LinkedJson.Rdf
