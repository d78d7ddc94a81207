import LinkedJson.Rdf.Input
import Mathlib.Data.List.Nodup
import Mathlib.Tactic.Lemma

/-!
What every store keeps to that comes about step by step.

It lists no two triples that are the same, and its graphs hold the triples that it lists, each at
most once. So the quads that it lists are the quads that it holds, in another order.
-/

namespace LinkedJson.Rdf

/-! ### Sameness -/

def Triple.fold (t : Triple) : Triple := ⟨t.subject.fold, t.predicate.fold, t.object.fold⟩

lemma Triple.same_iff {t u : Triple} : t.same u = true ↔ t.fold = u.fold := by
  simp [same, Term.same, fold, and_assoc]

lemma Triple.any_same_iff {t : Triple} {l : List Triple} :
    l.any t.same = true ↔ t.fold ∈ l.map Triple.fold := by
  simp only [List.any_eq_true, same_iff, List.mem_map, eq_comm (a := t.fold)]

namespace Store

/-! ### Stores that come about -/

/-- A store that comes of an empty one by binding, adding and removing. -/
inductive Reachable : Store → Prop
  | empty (kind : Kind) : Reachable { kind }
  | bind {s s' : Store} {p ns : String} (h : Reachable s) (hbind : s.bind? p ns = some s') :
    Reachable s'
  | add {s : Store} (h : Reachable s) (t : Triple) (graph : Option Term) :
    Reachable (s.add t graph)
  | remove {s : Store} (h : Reachable s) (subject predicate object : Pattern)
    (graph : Option Term) : Reachable (s.remove subject predicate object graph)

/-- The triples and the quads of a store fit together. -/
structure Coherent (s : Store) : Prop where
  /-- No two triples are the same. -/
  distinct : (s.triples.map Triple.fold).Nodup
  /-- The graphs hold triples that are listed. -/
  listed : ∀ q ∈ s.quads, q.triple ∈ s.triples
  /-- No graph holds a triple twice. -/
  once : s.quads.Nodup
  /-- No named graph bears a name of the default graph. -/
  named : ∀ q ∈ s.quads, ∀ x, q.graph = .named x → s.kind.graphName (some x) = .named x

variable {s : Store}

/-- Listed triples that are the same are one. -/
lemma Coherent.eq_of_same (h : s.Coherent) {t u : Triple} (ht : t ∈ s.triples)
    (hu : u ∈ s.triples) (hsame : t.same u = true) : t = u :=
  List.inj_on_of_nodup_map h.distinct ht hu (Triple.same_iff.mp hsame)

lemma Coherent.filter_same (h : s.Coherent) {t : Triple} (ht : t ∈ s.triples) :
    (s.triples.filter fun u => u.same t) = [t] := by
  have hsame : ∀ u ∈ s.triples, u.same t = decide (u = t) := by
    intro u hu
    rw [Bool.eq_iff_iff, decide_eq_true_iff]
    exact ⟨h.eq_of_same hu ht, fun hut => Triple.same_iff.mpr (by rw [hut])⟩
  rw [List.filter_congr hsame, List.filter_eq, List.count_eq_one_of_mem h.distinct.of_map ht]
  rfl

/-! ### Steps -/

lemma coherent_empty (kind : Kind) : Coherent { kind } where
  distinct := List.nodup_nil
  listed := by simp
  once := List.nodup_nil
  named := by simp

lemma Coherent.bind? (h : s.Coherent) {s' : Store} {p ns : String}
    (hbind : s.bind? p ns = some s') : s'.Coherent := by
  obtain ⟨b, -, rfl⟩ := Option.map_eq_some_iff.mp hbind
  exact ⟨h.distinct, h.listed, h.once, h.named⟩

lemma holds_eq_true_iff {q : Quad} :
    s.holds q = true ↔ ∃ p ∈ s.quads, p.triple.same q.triple = true ∧ p.graph = q.graph := by
  simp [holds]

/-- A triple that is listed is stored as it is listed, another as it comes. -/
lemma stored_spec (t : Triple) :
    s.triples.any t.same = true ∧ s.stored t ∈ s.triples ∨
      s.triples.any t.same = false ∧ s.stored t = t := by
  rcases hfind : s.triples.find? t.same with _ | u
  · right
    rw [stored, hfind]
    exact ⟨by simpa [List.find?_eq_none] using hfind, rfl⟩
  · left
    have hmem := List.mem_of_find?_eq_some hfind
    rw [stored, hfind]
    exact ⟨List.any_eq_true.mpr ⟨u, hmem, List.find?_some hfind⟩, hmem⟩

/-- Adding leaves a store as it is, or puts a quad at the end that the store does not hold, with
its triple if that is not listed. -/
lemma add_spec (s : Store) (t : Triple) (graph : Option Term) :
    s.add t graph = s ∨ ∃ u triples, (⟨u, s.kind.graphName graph⟩ : Quad) ∉ s.quads ∧
      s.add t graph = { s with triples, quads := s.quads ++ [⟨u, s.kind.graphName graph⟩] } ∧
      (u ∈ s.triples ∧ triples = s.triples ∨
        u.fold ∉ s.triples.map Triple.fold ∧ triples = s.triples ++ [u]) := by
  by_cases hholds : s.holds ⟨s.stored t, s.kind.graphName graph⟩ = true
  · exact Or.inl (if_pos hholds)
  · right
    have hnew : (⟨s.stored t, s.kind.graphName graph⟩ : Quad) ∉ s.quads := fun hmem =>
      hholds (holds_eq_true_iff.mpr ⟨_, hmem, Triple.same_iff.mpr rfl, rfl⟩)
    refine ⟨s.stored t, _, hnew, if_neg hholds, ?_⟩
    rcases stored_spec (s := s) t with ⟨hany, hstored⟩ | ⟨hany, hstored⟩
    · exact Or.inl ⟨hstored, by simp [hany]⟩
    · refine Or.inr ⟨?_, by simp [hany, hstored]⟩
      rw [hstored, ← Triple.any_same_iff, hany]
      simp

/-- The graph that a name stands for bears that name, if it is a named one. -/
lemma graphName_of_eq_named {kind : Kind} {graph : Option Term} {x : Term}
    (h : kind.graphName graph = .named x) : kind.graphName (some x) = .named x := by
  rcases graph with _ | y
  · cases kind <;> cases h
  · have hy : y = x := by
      cases kind with
      | graph => cases h
      | conjunctive =>
        cases h
        rfl
      | dataset =>
        simp only [Kind.graphName] at h
        split at h <;> cases h
        rfl
    exact hy ▸ h

lemma Coherent.add (h : s.Coherent) (t : Triple) (graph : Option Term) :
    (s.add t graph).Coherent := by
  rcases add_spec s t graph with heq | ⟨u, triples, hnew, heq, hu⟩ <;> rw [heq]
  · exact h
  · refine ⟨?_, fun q hq => ?_, ?_, fun q hq x hx => ?_⟩
    · rcases hu with ⟨-, rfl⟩ | ⟨hfold, rfl⟩
      · exact h.distinct
      · rw [List.map_append, List.nodup_append_comm]
        exact List.nodup_cons.mpr ⟨hfold, h.distinct⟩
    · -- no triple is taken off the list
      have hold (hmem : q ∈ s.quads) : q.triple ∈ triples := by
        rcases hu with ⟨-, rfl⟩ | ⟨-, rfl⟩
        · exact h.listed q hmem
        · exact List.mem_append_left _ (h.listed q hmem)
      rcases List.mem_append.mp hq with hmem | hmem
      · exact hold hmem
      · obtain rfl := List.mem_singleton.mp hmem
        rcases hu with ⟨hmem, rfl⟩ | ⟨-, rfl⟩
        · exact hmem
        · simp
    · rw [List.nodup_append_comm]
      exact List.nodup_cons.mpr ⟨hnew, h.once⟩
    · rcases List.mem_append.mp hq with hmem | hmem
      · exact h.named q hmem x hx
      · obtain rfl := List.mem_singleton.mp hmem
        exact graphName_of_eq_named hx

/-- Removing leaves a part of the quads, and the triples that one of these still holds. -/
lemma Coherent.remove (h : s.Coherent) (subject predicate object : Pattern)
    (graph : Option Term) : (s.remove subject predicate object graph).Coherent := by
  rw [Store.remove]
  refine ⟨?_, fun q hq => ?_, h.once.filter _, fun q hq => ?_⟩
  · exact h.distinct.sublist (List.filter_sublist.map _)
  · have hmem := (List.mem_filter.mp hq).1
    exact List.mem_filter.mpr ⟨h.listed q hmem,
      List.any_eq_true.mpr ⟨q, hq, Triple.same_iff.mpr rfl⟩⟩
  · exact h.named q (List.mem_filter.mp hq).1

theorem Reachable.coherent (h : s.Reachable) : s.Coherent := by
  induction h with
  | empty kind => exact coherent_empty kind
  | bind _ hbind ih => exact ih.bind? hbind
  | add _ t graph ih => exact ih.add t graph
  | remove _ subject predicate object graph ih => exact ih.remove subject predicate object graph

lemma Reachable.addAll (h : s.Reachable) (added : List (Triple × Option Term)) :
    (Input.addAll s added).Reachable := by
  induction added generalizing s with
  | nil => exact h
  | cons a rest ih => exact ih (h.add a.1 a.2)

/-! ### Quads -/

lemma mem_allQuads {q : Quad} :
    q ∈ s.allQuads ↔ q ∈ s.quads ∧ ∃ t ∈ s.triples, q.triple.same t = true := by
  simp only [allQuads, List.mem_flatMap, List.mem_filter]
  tauto

lemma Coherent.nodup_allQuads (h : s.Coherent) : s.allQuads.Nodup := by
  rw [allQuads, List.nodup_flatMap]
  refine ⟨fun t _ => h.once.filter _, ?_⟩
  refine (List.pairwise_map.mp h.distinct).imp fun {t u} hne => ?_
  intro q ht hu
  have hqt := Triple.same_iff.mp (List.mem_filter.mp ht).2
  have hqu := Triple.same_iff.mp (List.mem_filter.mp hu).2
  exact hne (hqt.symm.trans hqu)

/-- What is listed quad by quad is what is held, each quad once. -/
lemma Coherent.allQuads_perm (h : s.Coherent) : s.allQuads.Perm s.quads := by
  rw [List.perm_ext_iff_of_nodup h.nodup_allQuads h.once]
  intro q
  rw [mem_allQuads, and_iff_left_iff_imp]
  exact fun hq => ⟨q.triple, h.listed q hq, Triple.same_iff.mpr rfl⟩

end Store

end LinkedJson.Rdf
