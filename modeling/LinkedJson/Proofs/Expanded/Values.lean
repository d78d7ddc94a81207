import LinkedJson.Proofs.Expanded.Graphs

/-!
What an expanded document lists under a property.

Types, the values of the objects and lists in the place of nodes can stand there. So a property
whose objects are all literals has their values and no others.
-/

namespace LinkedJson.Expanded

open Rdf

/-- A node of a document: one of its default graph, or of a graph that such a one names. -/
inductive NodeOf : Json → Json.Object → Prop
  | default {nodes : List Json} {fields : Json.Object} (h : .obj fields ∈ nodes)
    (hid : "@id" ∈ Entries.keys fields) : NodeOf (.arr nodes) fields
  | named {nodes inner : List Json} {outer fields : Json.Object} (houter : .obj outer ∈ nodes)
    (hgraph : ("@graph", .arr inner) ∈ outer) (h : .obj fields ∈ inner)
    (hid : "@id" ∈ Entries.keys fields) : NodeOf (.arr nodes) fields

inductive Among (v : Json) : List Json → Prop
  | here {values : List Json} (h : v ∈ values) : Among v values
  | list {values members : List Json} (h : .obj [("@list", .arr members)] ∈ values)
    (hv : Among v members) : Among v values

/-- A document lists a value under a property of a node. -/
def Listed (document : Json) (property : String) (v : Json) : Prop :=
  ∃ fields, NodeOf document fields ∧ ∃ values, (property, .arr values) ∈ fields ∧ Among v values

def valueKeys : List String := ["@value", "@type", "@language", "@direction", "@index"]

/-- An object that stands for a value and not for a node or a list. -/
def IsValue (v : Json) : Prop :=
  ∃ fields, v = .obj fields ∧ "@value" ∈ Entries.keys fields ∧
    ∀ k ∈ Entries.keys fields, k ∈ valueKeys

/-- What a document may list under a property: types, the values of its objects, and lists in the
place of nodes. -/
inductive Shown (o : Options) (statements : List Statement) (property : String) : Json → Prop
  | type (iri : String) : Shown o statements property (.str iri)
  | value {s : Statement} {v : Json} (hs : s ∈ statements) (hp : s.predicate.value = property)
    (hv : objectValue o s.object = .ok v) : Shown o statements property v
  | list {s : Statement} (hs : s ∈ statements) (hp : s.predicate.value = property)
    (hresource : isResource s.object = true) (members : List Json) :
    Shown o statements property (.obj [("@list", .arr members)])
  | endless : Shown o statements property (.foreign .enclosing)

section Documents

variable {o : Options} {b : Build} {l : Lists} {statements : List Statement} {k : String}

lemma isValue_cons {w : Json} {rest : Json.Object} (h : ∀ k ∈ Entries.keys rest, k ∈ valueKeys) :
    IsValue (.obj (("@value", w) :: rest)) := by
  refine ⟨_, rfl, by simp, fun k hk => ?_⟩
  rcases List.mem_cons.mp hk with rfl | hk
  · simp [valueKeys]
  · exact h k hk

lemma isValue_typeFields (w : Json) (datatype : String) :
    IsValue (.obj (("@value", w) :: typeFields datatype)) := by
  refine isValue_cons ?_
  unfold typeFields
  split_ifs <;> simp [valueKeys]

lemma isValue_of_directionFields {datatype : String} {fields : Json.Object}
    (h : directionFields datatype = .ok fields) (w : Json) :
    IsValue (.obj (("@value", w) :: fields)) := by
  refine isValue_cons ?_
  unfold directionFields at h
  split at h
  · next language direction _ =>
    cases h
    by_cases hlanguage : language = "" <;> simp [hlanguage, valueKeys]
  · cases h

lemma isValue_of_literalValue {lexical datatype : String} {language : Option String} {v : Json}
    (h : literalValue o lexical datatype language = .ok v) : IsValue v := by
  unfold literalValue at h
  split at h
  · cases h
    exact isValue_cons (by simp [valueKeys])
  · obtain ⟨⟨w, d⟩, -, h⟩ := exists_ok_of_bind h
    simp only at h
    split_ifs at h
    · obtain ⟨n, -, h⟩ := exists_ok_of_bind h
      rcases n with _ | n <;> cases h
      · exact isValue_typeFields w d
      · exact isValue_cons (by simp)
    · obtain ⟨fields, hfields, h⟩ := exists_ok_of_bind h
      cases h
      exact isValue_of_directionFields hfields w
    · cases h
      exact isValue_typeFields w d

lemma refers_or_isValue {n : Node} {v : Json} (h : objectValue o n = .ok v) :
    isResource n = true ∧ Refers v ∨ isResource n = false ∧ IsValue v := by
  cases n with
  | literal => exact .inr ⟨rfl, isValue_of_literalValue h⟩
  | iri | blank => exact .inl ⟨rfl, refers_of_isResource rfl h⟩

def IsNode (v : Json) : Prop := ∃ fields, v = .obj fields ∧ "@id" ∈ Entries.keys fields

lemma Refers.isNode {v : Json} (h : Refers v) : IsNode v := by
  obtain ⟨name, rfl⟩ := h
  exact ⟨_, rfl, by simp⟩

lemma IsValue.not_isNode {v : Json} (h : IsValue v) : ¬ IsNode v := by
  obtain ⟨fields, rfl, -, hkeys⟩ := h
  rintro ⟨fields', heq, hid⟩
  rw [← Json.obj.inj heq] at hid
  exact absurd (hkeys _ hid) (by decide)

lemma isResource_of_refers {n : Node} {v : Json} (h : objectValue o n = .ok v) (hv : IsNode v) :
    isResource n = true ∧ Refers v := by
  rcases refers_or_isValue h with h | ⟨-, hvalue⟩
  · exact h
  · exact absurd hv hvalue.not_isNode

lemma itemJson_of_find?_eq_none {lists : List (Nat × List Item)} {place : Nat}
    (h : lists.find? (·.1 = place) = none) (fuel : Nat) (content : Json) :
    itemJson lists fuel (.value place content) = content := by
  unfold itemJson
  simp only [h]

/-- A list is shown in the place of its head, as far as the fuel goes. -/
lemma itemJson_of_find?_eq_some {lists : List (Nat × List Item)} {place : Nat}
    {e : Nat × List Item} (h : lists.find? (·.1 = place) = some e) (fuel : Nat) (content : Json) :
    itemJson lists fuel (.value place content) = .foreign .enclosing ∨
      ∃ members, itemJson lists fuel (.value place content) = .obj [("@list", .arr members)] := by
  unfold itemJson
  cases fuel with
  | zero =>
    exact .inl (by simp only [h])
  | succ fuel =>
    simp only [h]
    exact .inr ⟨_, rfl⟩

/-- An item that stands under a property is shown as one of its objects, or as a list in the place
of one that is a node. -/
lemma shown_itemJson (hb : b.Sound o statements) (hl : l.From b) {i : Item}
    (h : Stands k i l.graphs) (fuel : Nat) :
    Shown o statements k (itemJson l.lists fuel i) := by
  cases i with
  | type iri =>
    rw [itemJson]
    exact .type iri
  | value place content =>
    have hstands := hl.stands _ _ h
    obtain ⟨-, s, hs, hk, hcontent⟩ := hb.told k place content hstands
    rcases hfind : l.lists.find? (·.1 = place) with _ | e
    · rw [itemJson_of_find?_eq_none hfind]
      exact .value hs hk hcontent
    · obtain ⟨u, hu, hplace⟩ := hl.heads _ (List.mem_of_find?_eq_some hfind)
      have hhead : e.1 = place := by simpa using List.find?_some hfind
      have hrefers := (hb.used u hu).2 k content (hplace.trans hhead ▸ hstands)
      rcases itemJson_of_find?_eq_some hfind fuel content with hitem | ⟨members, hitem⟩ <;>
        rw [hitem]
      · exact .endless
      · exact .list hs hk (isResource_of_refers hcontent hrefers.isNode).1 members

section Shown

variable {v : Json}

lemma Shown.refers (h : Shown o statements k v) (hv : IsNode v) : Refers v := by
  obtain ⟨fields, rfl, hid⟩ := hv
  cases h with
  | value hs hk hcontent => exact (isResource_of_refers hcontent ⟨_, rfl, hid⟩).2
  | list => simp at hid

lemma Shown.exists_of_isValue (h : Shown o statements k v) (hv : IsValue v) :
    ∃ s ∈ statements, s.predicate.value = k ∧ objectValue o s.object = .ok v := by
  obtain ⟨fields, rfl, hvalue, -⟩ := hv
  cases h with
  | @value s _ hs hk hcontent => exact ⟨s, hs, hk, hcontent⟩
  | list => simp at hvalue

lemma Shown.exists_of_list {members : List Json}
    (h : Shown o statements k (.obj [("@list", .arr members)])) :
    ∃ s ∈ statements, s.predicate.value = k ∧ isResource s.object = true := by
  cases h with
  | value hs hk hcontent =>
    rcases refers_or_isValue hcontent with ⟨-, name, hname⟩ | ⟨-, fields, hfields, hvalue, -⟩
    · simp at hname
    · rw [← Json.obj.inj hfields] at hvalue
      simp at hvalue
  | @list s hs hk hresource => exact ⟨s, hs, hk, hresource⟩

end Shown

lemma mem_nodeJson {node : String × NodeFields} {k : String} {values : List Json}
    (h : (k, .arr values) ∈ nodeJson l node) :
    ∃ items : List Item, (∀ i ∈ items, NodeFields.Holds k i node.2) ∧
      values = items.map (itemJson l.lists (l.lists.length + 1)) := by
  rcases List.mem_cons.mp h with hid | h
  · cases hid
  · obtain ⟨f, hf, heq⟩ := List.mem_map.mp h
    obtain ⟨rfl, hvalues⟩ := Prod.mk.inj heq
    exact ⟨f.2, fun i hi => ⟨f, hf, rfl, hi⟩, (Json.arr.inj hvalues).symm⟩

lemma mem_graphJson {m : NodeMap} {values : List Json} (h : .arr values = graphJson l m) {v : Json}
    (hv : v ∈ values) : ∃ node ∈ m, v = .obj (nodeJson l node) := by
  rw [Json.arr.inj h] at hv
  obtain ⟨fields, hfields, rfl⟩ := List.mem_map.mp hv
  obtain ⟨node, hnode, rfl⟩ := List.mem_map.mp (List.mem_filter.mp hfields).1
  exact ⟨node, List.mem_mergeSort.mp hnode, rfl⟩

lemma mem_topNode {node : String × NodeFields} {e : String × Json} (h : e ∈ topNode l node) :
    e ∈ nodeJson l node ∨ ∃ g ∈ l.graphs, e = ("@graph", graphJson l g.2) := by
  unfold topNode at h
  split at h
  · next m hm =>
    rcases Entries.mem_of_mem_put h with rfl | h
    · exact .inr ⟨_, Entries.mem_of_find? hm, rfl⟩
    · exact .inl h
  · exact .inl h

lemma mem_document {values : List Json} (h : .arr values = document l) {v : Json}
    (hv : v ∈ values) : ∃ g ∈ l.graphs, ∃ node ∈ g.2, v = .obj (topNode l node) := by
  rw [Json.arr.inj h] at hv
  obtain ⟨fields, hfields, rfl⟩ := List.mem_map.mp hv
  obtain ⟨node, hnode, rfl⟩ := List.mem_map.mp (List.mem_filter.mp hfields).1
  have hmem := List.mem_mergeSort.mp hnode
  rcases hfind : Entries.find? l.graphs defaultKey with _ | m <;> rw [hfind] at hmem
  · cases hmem
  · exact ⟨_, Entries.mem_of_find? hfind, node, hmem, rfl⟩

lemma shown_of_mem_nodeJson (hb : b.Sound o statements) (hl : l.From b)
    {g : String × NodeMap} (hg : g ∈ l.graphs) {node : String × NodeFields} (hnode : node ∈ g.2)
    {values : List Json} (h : (k, .arr values) ∈ nodeJson l node) {v : Json} (hv : v ∈ values) :
    Shown o statements k v := by
  obtain ⟨items, hitems, rfl⟩ := mem_nodeJson h
  obtain ⟨i, hi, rfl⟩ := List.mem_map.mp hv
  exact shown_itemJson hb hl ⟨g, hg, node, hnode, hitems i hi⟩ _

/-- What a node of the default graph has under a property is that of its statements, or the nodes
of a graph. -/
lemma shown_or_node_of_mem_document (hb : b.Sound o statements) (hl : l.From b)
    {nodes : List Json} (hnodes : .arr nodes = document l) {outer : Json.Object}
    (houter : .obj outer ∈ nodes) {values : List Json} (h : (k, .arr values) ∈ outer) {v : Json}
    (hv : v ∈ values) :
    Shown o statements k v ∨ ∃ g ∈ l.graphs, ∃ node ∈ g.2, v = .obj (nodeJson l node) := by
  obtain ⟨g, hg, node, hnode, heq⟩ := mem_document hnodes houter
  rw [Json.obj.inj heq] at h
  rcases mem_topNode h with h | ⟨g', hg', heq⟩
  · exact .inl (shown_of_mem_nodeJson hb hl hg hnode h hv)
  · obtain ⟨node', hnode', rfl⟩ := mem_graphJson (Prod.mk.inj heq).2 hv
    exact .inr ⟨g', hg', node', hnode', rfl⟩

/-- What a node of a document has under a property is that of its statements, or nodes. -/
lemma shown_or_isNode (hb : b.Sound o statements) (hl : l.From b) {fields : Json.Object}
    (hfields : NodeOf (document l) fields) {values : List Json} (h : (k, .arr values) ∈ fields)
    {v : Json} (hv : v ∈ values) : Shown o statements k v ∨ IsNode v := by
  generalize hdocument : document l = doc at hfields
  cases hfields with
  | default hin =>
    refine (shown_or_node_of_mem_document hb hl hdocument.symm hin h hv).imp_right ?_
    rintro ⟨g, -, node, -, rfl⟩
    exact ⟨_, rfl, by simp [nodeJson]⟩
  | named houter hinner hin hid =>
    rcases shown_or_node_of_mem_document hb hl hdocument.symm houter hinner hin with
      hshown | ⟨g, hg, node, hnode, heq⟩
    · -- what has a name and is no node of a graph stands for a node, and has no other fields
      obtain ⟨name, hname⟩ := hshown.refers ⟨_, rfl, hid⟩
      rw [Json.obj.inj hname] at h
      simp at h
    · rw [Json.obj.inj heq] at h
      exact .inl (shown_of_mem_nodeJson hb hl hg hnode h hv)

/-- **Literals are listed as they are**: under a property that has no nodes for its objects, a
document lists as values those of the objects and no others. -/
theorem listed_of_literals {options : OptionMap} {d : Dataset} {doc : Json}
    (hdoc : ofDataset options d = .ok doc)
    (hliterals : ∀ s ∈ d.flatMap (·.2), s.predicate.value = k → isResource s.object = false)
    {v : Json} (hv : Listed doc k v) (hvalue : IsValue v) :
    ∃ s ∈ d.flatMap (·.2), s.predicate.value = k ∧
      objectValue (Options.of options) s.object = .ok v := by
  obtain ⟨-, -, hdoc⟩ := exists_ok_of_bind hdoc
  obtain ⟨b, hbuild, hdoc⟩ := exists_ok_of_bind hdoc
  obtain ⟨l, hl, hdoc⟩ := exists_ok_of_bind hdoc
  cases hdoc
  obtain ⟨fields, hfields, values, hvalues, hamong⟩ := hv
  have hshown {w : Json} (hw : w ∈ values) :=
    shown_or_isNode (sound_build hbuild) (from_convertAll hl) hfields hvalues hw
  cases hamong with
  | here hmem => exact ((hshown hmem).resolve_right hvalue.not_isNode).exists_of_isValue hvalue
  | list hmem =>
    rcases hshown hmem with hlist | ⟨fields, hnode, hid⟩
    · obtain ⟨s, hs, hk, hresource⟩ := hlist.exists_of_list
      rw [hliterals s hs hk] at hresource
      cases hresource
    · rw [← Json.obj.inj hnode] at hid
      simp at hid

end Documents

end LinkedJson.Expanded
