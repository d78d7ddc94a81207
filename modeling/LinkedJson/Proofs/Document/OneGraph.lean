import LinkedJson.Proofs.Document.Settings
import LinkedJson.Proofs.Rdf.Store

/-!
Stores that hold nothing but a default graph.

They can be read as one graph or quad by quad, with the same triples in the same order. So it does
not matter to a write of what kind such a store is.
-/

namespace LinkedJson.Rdf

namespace Store

def bindEach? (s : Store) (bound : List (String × String)) : Option Store :=
  bound.foldlM (fun s b => s.bind? b.1 b.2) s

/-- The store of a kind in which namespaces are bound and then triples are added to graphs. -/
def made? (kind : Kind) (bound : List (String × String)) (added : List (Triple × Option Term)) :
    Option Store :=
  (bindEach? { kind } bound).map (Input.addAll · added)

def ofKind (kind : Kind) (s : Store) : Store := { s with kind }

/-- All triples are in the default graph, in their order, and nothing is elsewhere. -/
def OneGraph (s : Store) : Prop := s.quads = s.triples.map (⟨·, .default⟩)

variable {s : Store} {kind : Kind}

lemma graphName_none (kind : Kind) : kind.graphName none = .default := by
  cases kind <;> rfl

/-! ### Steps -/

/-- A name of the default graph can be left out. -/
lemma add_of_default {graph : Option Term} (h : s.kind.graphName graph = .default) (t : Triple) :
    s.add t graph = s.add t none := by
  rw [Store.add, Store.add, h, graphName_none]

/-- In a store with one graph, a triple that comes into the default graph is a new one. -/
lemma OneGraph.add (h : s.OneGraph) (t : Triple) : (s.add t none).OneGraph := by
  rcases add_spec s t none with heq | ⟨u, triples, hnew, heq, hu⟩ <;> rw [heq]
  · exact h
  · rw [graphName_none] at hnew ⊢
    rcases hu with ⟨hmem, -⟩ | ⟨-, rfl⟩
    · -- the default graph holds a triple that is listed
      refine (hnew ?_).elim
      rw [h]
      exact List.mem_map_of_mem hmem
    · rw [OneGraph, h, List.map_append]
      rfl

lemma kind_add (t : Triple) (graph : Option Term) : (s.add t graph).kind = s.kind := by
  rcases add_spec s t graph with heq | ⟨_, _, -, heq, -⟩ <;> rw [heq]

lemma ofKind_add (t : Triple) : (s.ofKind kind).add t none = (s.add t none).ofKind kind := by
  have hstored : (s.ofKind kind).stored t = s.stored t := rfl
  have hholds (q : Quad) : (s.ofKind kind).holds q = s.holds q := rfl
  simp only [Store.add, graphName_none, hstored, hholds]
  split <;> rfl

lemma ofKind_bind? (p ns : String) :
    (s.ofKind kind).bind? p ns = (s.bind? p ns).map (ofKind kind) := by
  rw [bind?, bind?, Option.map_map]
  rfl

/-! ### All steps -/

def unnamed (triples : List Triple) : List (Triple × Option Term) := triples.map (·, none)

lemma addAll_of_default {added : List (Triple × Option Term)}
    (h : ∀ a ∈ added, s.kind.graphName a.2 = .default) :
    Input.addAll s added = Input.addAll s (unnamed (added.map (·.1))) := by
  induction added generalizing s with
  | nil => rfl
  | cons a rest ih =>
    have ⟨ha, hrest⟩ := List.forall_mem_cons.mp h
    have hstep : Input.addAll s (a :: rest) = Input.addAll (s.add a.1 none) rest := by
      rw [← add_of_default ha]
      rfl
    rw [hstep, ih fun b hb => by rw [kind_add]; exact hrest b hb]
    rfl

lemma OneGraph.addAll (h : s.OneGraph) (triples : List Triple) :
    (Input.addAll s (unnamed triples)).OneGraph := by
  induction triples generalizing s with
  | nil => exact h
  | cons t rest ih => exact ih (h.add t)

lemma ofKind_addAll (triples : List Triple) : Input.addAll (s.ofKind kind) (unnamed triples) =
    (Input.addAll s (unnamed triples)).ofKind kind := by
  induction triples generalizing s with
  | nil => rfl
  | cons t rest ih =>
    have hstep : Input.addAll (s.ofKind kind) (unnamed (t :: rest)) =
        Input.addAll ((s.add t none).ofKind kind) (unnamed rest) := by
      rw [← ofKind_add]
      rfl
    rw [hstep, ih]
    rfl

lemma bindEach?_spec {bound : List (String × String)} {s' : Store}
    (h : s.bindEach? bound = some s') :
    (s.Reachable → s'.Reachable) ∧ ∃ bindings, s' = { s with bindings } := by
  induction bound generalizing s with
  | nil =>
    cases h
    exact ⟨id, _, rfl⟩
  | cons b rest ih =>
    rw [bindEach?, List.foldlM_cons] at h
    obtain ⟨s₁, hbind, hrest⟩ := Option.bind_eq_some_iff.mp h
    obtain ⟨hreachable, bindings, heq⟩ := ih hrest
    obtain ⟨b₁, -, rfl⟩ := Option.map_eq_some_iff.mp hbind
    exact ⟨fun h => hreachable (h.bind hbind), bindings, heq⟩

lemma ofKind_bindEach? (bound : List (String × String)) :
    (s.ofKind kind).bindEach? bound = (s.bindEach? bound).map (ofKind kind) := by
  induction bound generalizing s with
  | nil => rfl
  | cons b rest ih =>
    rw [bindEach?, bindEach?, List.foldlM_cons, List.foldlM_cons, ofKind_bind?]
    rcases s.bind? b.1 b.2 with _ | s'
    · rfl
    · exact ih

section made

variable {kind' : Kind} {added added' : List (Triple × Option Term)}

/-- What is made of additions to the default graph has one graph, of whatever kind it is. -/
lemma oneGraph_of_made? {bound : List (String × String)}
    (h : ∀ a ∈ added, kind.graphName a.2 = .default)
    (hs : made? kind bound added = some s) : s.Reachable ∧ s.OneGraph := by
  obtain ⟨s₀, hbound, rfl⟩ := Option.map_eq_some_iff.mp hs
  obtain ⟨hreachable, bindings, rfl⟩ := bindEach?_spec hbound
  refine ⟨(hreachable (.empty kind)).addAll added, ?_⟩
  rw [addAll_of_default h]
  have hempty : OneGraph { kind, bindings } := rfl
  exact hempty.addAll _

lemma made?_ofKind (bound : List (String × String))
    (htriples : added.map (·.1) = added'.map (·.1))
    (h : ∀ a ∈ added, kind.graphName a.2 = .default)
    (h' : ∀ a ∈ added', kind'.graphName a.2 = .default) :
    made? kind' bound added' = (made? kind bound added).map (ofKind kind') := by
  have hbinds : bindEach? { kind := kind' } bound =
      (bindEach? { kind } bound).map (ofKind kind') := ofKind_bindEach? (s := { kind }) bound
  rw [made?, made?, hbinds]
  rcases hbound : bindEach? { kind } bound with _ | s
  · rfl
  · obtain ⟨-, bindings, rfl⟩ := bindEach?_spec hbound
    let start : Store := { kind, bindings }
    refine congrArg some ?_
    calc Input.addAll (start.ofKind kind') added'
      _ = Input.addAll (start.ofKind kind') (unnamed (added'.map (·.1))) := addAll_of_default h'
      _ = (Input.addAll start (unnamed (added.map (·.1)))).ofKind kind' := by
        rw [htriples, ofKind_addAll]
      _ = (Input.addAll start added).ofKind kind' := by rw [addAll_of_default (s := start) h]

end made

/-! ### Both readings -/

lemma OneGraph.defaultTriples (h : s.OneGraph) : s.defaultTriples = s.triples := by
  rw [Store.defaultTriples, h, List.filter_map, List.map_map]
  simp [Function.comp_def]

lemma OneGraph.graphTriples (h : s.OneGraph) : s.graphTriples = s.triples := by
  rw [Store.graphTriples]
  split
  · rfl
  · exact h.defaultTriples

/-- Each triple is found in the default graph, once. -/
lemma OneGraph.allQuads (h : s.OneGraph) (hcoherent : s.Coherent) : s.allQuads = s.quads := by
  have hone : ∀ t ∈ s.triples, (s.quads.filter fun q => q.triple.same t) = [⟨t, .default⟩] := by
    intro t ht
    rw [h, List.filter_map]
    exact congrArg (List.map _) (hcoherent.filter_same ht)
  rw [Store.allQuads, List.flatMap_congr hone, h, List.map_eq_flatMap]

end Store

lemma foldlM_default (triples : List Triple) (before : List Statement) :
    ((triples.map (Quad.mk · .default)).foldlM
      (fun d q => do return Dataset.insert d q.graph.key (← q.triple.statement))
      [(defaultKey, before)] : Except NotRdf Dataset) = do
        return [(defaultKey, before ++ (← triples.mapM Triple.statement))] := by
  induction triples generalizing before with
  | nil => simp
  | cons t rest ih =>
    rw [List.map_cons, List.foldlM_cons, List.mapM_cons]
    rcases t.statement with e | st
    · rfl
    · refine (ih (before ++ [st])).trans ?_
      rcases rest.mapM Triple.statement with e | sts
      · rfl
      · exact congrArg (fun l => (Except.ok [(defaultKey, l)] : Except NotRdf Dataset))
          (List.append_assoc before [st] sts)

lemma ofStore_of_oneGraph {s : Store} (h : s.OneGraph) (hcoherent : s.Coherent) :
    Dataset.ofStore s = do return [(defaultKey, ← s.graphTriples.mapM Triple.statement)] := by
  rw [Dataset.ofStore, h.allQuads hcoherent, h.graphTriples, h]
  exact foldlM_default s.triples []

end LinkedJson.Rdf

namespace LinkedJson.Document

open Rdf

/-- **A graph and the default graph of a dataset are written the same.** Stores of any kinds that
are made by the same bindings and the same triples for the default graph have the same dataset and
the same context, and every write of one is that of the other. What one of them lists quad by quad
are the triples that the other lists as a graph. -/
theorem toJson_oneGraph {kind kind' : Kind} {bound : List (String × String)}
    {added added' : List (Triple × Option Term)} (htriples : added.map (·.1) = added'.map (·.1))
    (h : ∀ a ∈ added, kind.graphName a.2 = .default)
    (h' : ∀ a ∈ added', kind'.graphName a.2 = .default) :
    ((Store.made? kind bound added).isSome = (Store.made? kind' bound added').isSome) ∧
    ∀ s s', Store.made? kind bound added = some s → Store.made? kind' bound added' = some s' →
      (s.defaultTriples = s'.graphTriples ∧ s.allQuads = s'.graphTriples.map (⟨·, .default⟩) ∧
        s.bindings = s'.bindings) ∧
      (Dataset.ofStore s = Dataset.ofStore s' ∧
        Dataset.ofStore s = do return [(defaultKey, ← s'.graphTriples.mapM Triple.statement)]) ∧
      (∀ options prefixes,
        Context.ofStore options prefixes s = Context.ofStore options prefixes s') ∧
      ∀ (p : Processor) (form : Form) (src : Source),
        toJson p form { src with store := s } = toJson p form { src with store := s' } := by
  have hmade := Store.made?_ofKind bound htriples h h'
  refine ⟨by rw [hmade, Option.isSome_map], fun s s' hs hs' => ?_⟩
  obtain ⟨hreachable, hone⟩ := Store.oneGraph_of_made? h hs
  have hcoherent := hreachable.coherent
  rw [hmade, hs] at hs'
  obtain rfl : s.ofKind kind' = s' := Option.some.inj hs'
  have hone' : (s.ofKind kind').OneGraph := hone
  refine ⟨⟨?_, ?_, rfl⟩, ⟨rfl, ?_⟩, fun _ _ => rfl, fun p form src => ?_⟩
  · rw [hone.defaultTriples, hone'.graphTriples]
    rfl
  · rw [hone.allQuads hcoherent, hone'.graphTriples, hone]
    rfl
  · rw [ofStore_of_oneGraph hone hcoherent, hone.graphTriples, hone'.graphTriples]
    rfl
  · -- no step of a write asks of what kind its store is
    exact toJson_congr_of_agree p ⟨rfl, rfl, fun _ => rfl, fun _ => rfl, fun _ => rfl⟩

/-- A dataset that comes into its default graph by name, and one triple of it twice, is written as
the graph is. -/
theorem toJson_oneGraph_named :
    let t : Triple := ⟨.blank "s", .iri "http://example.org/name", .literal "x" .plain⟩
    let u : Triple := ⟨.blank "s", .iri "http://example.org/name", .var "y"⟩
    let bound := [("ex", "http://example.org/"), ("ex", "http://other.org/")]
    let p := Script.processor {}
    ∃ s s', Store.made? .graph bound [(t, none), (u, none), (t, none)] = some s ∧
      Store.made? .dataset bound
        [(t, some (.iri defaultGraphIri)), (u, none), (t, some (.iri defaultGraphIri))] = some s' ∧
      s.kind ≠ s'.kind ∧ s'.triples = [t, u] ∧
      toJson p .flatten { store := s } = toJson p .flatten { store := s' } := by
  intro t u bound p
  obtain ⟨-, hsame⟩ := @toJson_oneGraph .graph .dataset bound
    [(t, none), (u, none), (t, none)]
    [(t, some (.iri defaultGraphIri)), (u, none), (t, some (.iri defaultGraphIri))]
    rfl (fun _ _ => rfl) (by simp [Kind.graphName])
  obtain ⟨-, -, -, hwrites⟩ := hsame _ _ rfl rfl
  exact ⟨_, _, rfl, rfl, by decide, rfl, hwrites p .flatten { store := { kind := .graph } }⟩

end LinkedJson.Document
