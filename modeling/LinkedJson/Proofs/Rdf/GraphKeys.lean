import LinkedJson.Proofs.Rdf.Grouping

/-!
Graphs that a dataset does not tell apart.

The names of graphs share their keys with each other and with the default graph. An IRI can be
spelled as the key of the default graph or as the name of a blank node. Graphs whose names clash in
that way are merged, and all others are kept apart.
-/

namespace LinkedJson.Rdf

inductive GraphName.IsNode : GraphName → Prop
  | default : IsNode .default
  | iri (value : String) : IsNode (.named (.iri value))
  | blank (label : String) : IsNode (.named (.blank label))

inductive Clash : GraphName → GraphName → Prop
  | default_iri : Clash .default (.named (.iri defaultKey))
  | iri_default : Clash (.named (.iri defaultKey)) .default
  | blank_iri (label : String) : Clash (.named (.blank label)) (.named (.iri (blankName label)))
  | iri_blank (label : String) : Clash (.named (.iri (blankName label))) (.named (.blank label))

def Store.graphs (s : Store) : List GraphName := .default :: s.allQuads.map (·.graph)

/-- Under the key of the graph are the statements of the quads in that graph, and no others. -/
def Told (s : Store) (d : Dataset) (g : GraphName) : Prop :=
  List.Forall₂ Quad.States (s.allQuads.filter (·.graph = g)) ((Entries.find? d g.key).getD [])

variable {g h : GraphName}

/-! ### Keys -/

lemma Clash.key_eq (hclash : Clash g h) : g.key = h.key := by
  cases hclash <;> rfl

lemma Clash.ne (hclash : Clash g h) : g ≠ h := by
  cases hclash <;> simp

lemma blankName_ne_defaultKey (label : String) : blankName label ≠ defaultKey := by
  intro heq
  have hchars := congrArg String.toList heq
  rw [blankName, String.toList_append] at hchars
  cases hchars

lemma blankName_inj {a b : String} : blankName a = blankName b ↔ a = b := by
  simp [blankName]

/-- Graphs that nodes name have one key only if they clash. -/
lemma key_eq_iff (hg : g.IsNode) (hh : h.IsNode) : g.key = h.key ↔ g = h ∨ Clash g h := by
  refine ⟨fun hkey => ?_, fun h => h.elim (congrArg _) Clash.key_eq⟩
  cases hg with
  | default =>
    cases hh with
    | default => exact .inl rfl
    | iri value =>
      obtain rfl : defaultKey = value := hkey
      exact .inr .default_iri
    | blank label => exact (blankName_ne_defaultKey label hkey.symm).elim
  | iri value =>
    cases hh with
    | default =>
      obtain rfl : value = defaultKey := hkey
      exact .inr .iri_default
    | iri value' =>
      obtain rfl : value = value' := hkey
      exact .inl rfl
    | blank label =>
      obtain rfl : value = blankName label := hkey
      exact .inr (.iri_blank label)
  | blank label =>
    cases hh with
    | default => exact (blankName_ne_defaultKey label hkey).elim
    | iri value =>
      obtain rfl : blankName label = value := hkey
      exact .inr (.blank_iri label)
    | blank label' =>
      obtain rfl : label = label' := blankName_inj.mp hkey
      exact .inl rfl

/-! ### Statements -/

lemma Store.mem_graphs {s : Store} {q : Quad} (hq : q ∈ s.allQuads) : q.graph ∈ s.graphs :=
  List.mem_cons_of_mem _ (List.mem_map_of_mem hq)

lemma told_iff {s : Store} {d : Dataset} (hd : Grouped s.allQuads d) :
    Told s d g ↔ ∀ q ∈ s.allQuads, g.key = q.graph.key → g = q.graph := by
  have hkey := hd.statements_getD g.key
  have hpart : s.allQuads.filter (·.graph = g) =
      (s.allQuads.filter (·.graph.key = g.key)).filter (·.graph = g) := by
    rw [List.filter_filter]
    refine List.filter_congr fun q _ => ?_
    by_cases hq : q.graph = g <;> simp [hq]
  constructor
  · intro htold q hq hqg
    -- the key has as many quads as the graph, so a quad of the key is one of the graph
    have hlength := htold.length_eq.trans hkey.length_eq.symm
    rw [hpart, List.length_filter_eq_length_iff] at hlength
    simpa [eq_comm] using hlength q (by simp [hq, hqg])
  · intro hall
    have hsame : s.allQuads.filter (·.graph.key = g.key) = s.allQuads.filter (·.graph = g) := by
      refine List.filter_congr fun q hq => ?_
      rw [decide_eq_decide]
      exact ⟨fun hqg => (hall q hq hqg.symm).symm, congrArg _⟩
    rwa [hsame] at hkey

/-- **Graphs are kept apart as far as their names do not clash.** -/
theorem told_iff_forall_not_clash {s : Store} {d : Dataset} (hd : Dataset.ofStore s = .ok d)
    (hnames : ∀ g ∈ s.graphs, g.IsNode) :
    (∀ g ∈ s.graphs, ∀ h ∈ s.graphs, g.key = h.key ↔ g = h ∨ Clash g h) ∧
    ((∀ g ∈ s.graphs, ∀ h ∈ s.graphs, g.key = h.key → g = h) ↔
      ∀ g ∈ s.graphs, ∀ h ∈ s.graphs, ¬ Clash g h) ∧
    ∀ g ∈ s.graphs, Told s d g ↔ ∀ q ∈ s.allQuads, ¬ Clash g q.graph := by
  have hkey : ∀ g ∈ s.graphs, ∀ h ∈ s.graphs, g.key = h.key ↔ g = h ∨ Clash g h :=
    fun g hg h hh => key_eq_iff (hnames g hg) (hnames h hh)
  have hapart : ∀ g ∈ s.graphs, ∀ h ∈ s.graphs, (g.key = h.key → g = h) ↔ ¬ Clash g h := by
    intro g hg h hh
    rw [hkey g hg h hh]
    exact ⟨fun heq hclash => hclash.ne (heq (.inr hclash)), fun hnot heq => heq.resolve_right hnot⟩
  refine ⟨hkey, ?_, fun g hg => ?_⟩
  · exact forall₂_congr fun g hg => forall₂_congr fun h hh => hapart g hg h hh
  · rw [told_iff (ofStore_eq_ok_iff.mp hd)]
    exact forall₂_congr fun q hq => hapart g hg q.graph (Store.mem_graphs hq)

def noted (text : String) : Triple :=
  ⟨.iri "http://example.org/s", .iri "http://example.org/note", .literal text .plain⟩

/-- A dataset with two pairs of graphs that clash, and one graph more. -/
def overlaid : Store :=
  Input.addAll { kind := .dataset } [(noted "a", none), (noted "b", some (.iri "@default")),
    (noted "c", some (.blank "g")), (noted "d", some (.iri "_:g")),
    (noted "e", some (.iri "http://example.org/g"))]

lemma isNode_overlaid : ∀ g ∈ overlaid.graphs, g.IsNode := by
  have hgraphs : overlaid.graphs = [.default, .default, .named (.iri "@default"),
    .named (.blank "g"), .named (.iri "_:g"), .named (.iri "http://example.org/g")] := rfl
  simp only [hgraphs, List.forall_mem_cons]
  exact ⟨.default, .default, .iri _, .blank _, .iri _, .iri _, List.forall_mem_nil _⟩

/-- The graph without a clash can be told, the default graph cannot. -/
theorem told_iff_forall_not_clash_overlaid : (∀ g ∈ overlaid.graphs, g.IsNode) ∧
    ∃ d, Dataset.ofStore overlaid = .ok d ∧
      d.map (fun g => (g.1, g.2.length)) =
        [("@default", 2), ("_:g", 2), ("http://example.org/g", 1)] ∧
      Told overlaid d (.named (.iri "http://example.org/g")) ∧ ¬ Told overlaid d .default := by
  have hd : Dataset.ofStore overlaid = .ok _ := rfl
  obtain ⟨-, -, htold⟩ := told_iff_forall_not_clash hd isNode_overlaid
  refine ⟨isNode_overlaid, _, hd, rfl, ?_, ?_⟩
  · rw [htold _ (by decide +kernel)]
    have hown : ∀ q ∈ overlaid.allQuads, GraphName.key (.named (.iri "http://example.org/g")) =
        q.graph.key → .named (.iri "http://example.org/g") = q.graph := by decide +kernel
    exact fun q hq hclash => hclash.ne (hown q hq hclash.key_eq)
  · rw [htold _ (by decide +kernel)]
    intro hnot
    exact hnot ⟨noted "b", .named (.iri "@default")⟩ (by decide +kernel) .default_iri

/-- **Graphs of one dataset can be merged**, also if each is named by an IRI or a blank node. -/
theorem not_graphs_apart : ¬ ∀ (s : Store) (d : Dataset), s.Reachable → s.kind ≠ .graph →
    (∀ g ∈ s.graphs, g.IsNode) → Dataset.ofStore s = .ok d →
      ∀ q ∈ s.allQuads, ∀ r ∈ s.allQuads, q.graph ≠ r.graph → q.graph.key ≠ r.graph.key := by
  intro happart
  exact happart overlaid _ ((Store.Reachable.empty .dataset).addAll _) (by decide) isNode_overlaid
    rfl ⟨noted "c", .named (.blank "g")⟩ (by decide +kernel) ⟨noted "d", .named (.iri "_:g")⟩
    (by decide +kernel) (by decide) rfl

end LinkedJson.Rdf
