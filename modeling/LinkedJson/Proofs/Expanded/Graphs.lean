import LinkedJson.Expanded
import LinkedJson.Proofs.Entries

/-!
Where the values in the graphs of an expanded document come from.

Each statement puts the value of its object under its predicate, at a place of its own. When lists
are made of list nodes, nothing new comes to stand anywhere, and a list takes the place of a node
only.
-/

namespace LinkedJson

section Except

variable {ε α β : Type}

lemma exists_ok_of_bind {x : Except ε α} {f : α → Except ε β} {b : β}
    (h : x >>= f = .ok b) : ∃ a, x = .ok a ∧ f a = .ok b := by
  rcases x with e | a
  · cases h
  · exact ⟨a, rfl, h⟩

/-- What each step of a loop keeps, the loop keeps. -/
lemma foldlM_keeps {f : β → α → Except ε β} {P : β → Prop} {l : List α} {b b' : β}
    (hstep : ∀ b, P b → ∀ a ∈ l, ∀ c, f b a = .ok c → P c) (hb : P b)
    (h : l.foldlM f b = .ok b') : P b' := by
  induction l generalizing b with
  | nil =>
    cases h
    exact hb
  | cons a rest ih =>
    rw [List.foldlM_cons] at h
    obtain ⟨c, hc, hrest⟩ := exists_ok_of_bind h
    exact ih (fun b hb a ha => hstep b hb a (List.mem_cons_of_mem _ ha))
      (hstep b hb a List.mem_cons_self c hc) hrest

end Except

namespace Expanded

open Rdf

/-! ### Where items stand -/

def NodeFields.Holds (key : String) (item : Item) (fields : NodeFields) : Prop :=
  ∃ f ∈ fields, f.1 = key ∧ item ∈ f.2

def NodeMap.Holds (key : String) (item : Item) (m : NodeMap) : Prop :=
  ∃ node ∈ m, NodeFields.Holds key item node.2

def Stands (key : String) (item : Item) (graphs : Entries NodeMap) : Prop :=
  ∃ g ∈ graphs, NodeMap.Holds key item g.2

section Stands

variable {graphs : Entries NodeMap} {m : NodeMap} {fields : NodeFields} {k name : String} {i : Item}

lemma NodeFields.not_holds_nil : ¬ NodeFields.Holds k i [] := by
  simp [NodeFields.Holds]

lemma NodeMap.not_holds_nil : ¬ NodeMap.Holds k i [] := by
  simp [NodeMap.Holds]

lemma holds_addItem {key : String} {item : Item}
    (h : NodeFields.Holds k i (addItem fields key item)) :
    NodeFields.Holds k i fields ∨ k = key ∧ i = item := by
  obtain ⟨f, hf, rfl, hi⟩ := h
  rcases Entries.mem_of_mem_put hf with rfl | hf
  · rcases List.mem_append.mp hi with hi | hi
    · rcases hfind : Entries.find? fields key with _ | items <;> rw [hfind] at hi
      · cases hi
      · exact .inl ⟨_, Entries.mem_of_find? hfind, rfl, hi⟩
    · exact .inr ⟨rfl, List.mem_singleton.mp hi⟩
  · exact .inl ⟨f, hf, rfl, hi⟩

lemma holds_addToNode {subject key : String} {item : Item}
    (h : NodeMap.Holds k i (addToNode m subject key item)) :
    NodeMap.Holds k i m ∨ k = key ∧ i = item := by
  rcases Entries.exists_of_put (NodeFields.Holds k i) h with h | h
  · exact .inl h
  · refine (holds_addItem h).imp_left fun h => ?_
    exact (Entries.exists_of_getD_find? _ h).resolve_right NodeFields.not_holds_nil

lemma holds_putNew (h : NodeMap.Holds k i (Entries.putNew m name [])) : NodeMap.Holds k i m :=
  (Entries.exists_of_putNew _ h).resolve_right NodeFields.not_holds_nil

lemma holds_erase (h : NodeMap.Holds k i (Entries.erase m name)) : NodeMap.Holds k i m := by
  obtain ⟨node, hnode, hi⟩ := h
  exact ⟨node, (List.mem_filter.mp hnode).1, hi⟩

lemma stands_find? (h : NodeMap.Holds k i ((Entries.find? graphs name).getD [])) :
    Stands k i graphs :=
  (Entries.exists_of_getD_find? _ h).resolve_right NodeMap.not_holds_nil

lemma stands_put (h : Stands k i (Entries.put graphs name m)) :
    Stands k i graphs ∨ NodeMap.Holds k i m :=
  Entries.exists_of_put _ h

lemma stands_putNew (h : Stands k i (Entries.putNew graphs name [])) : Stands k i graphs :=
  (Entries.exists_of_putNew _ h).resolve_right NodeMap.not_holds_nil

end Stands

/-! ### What a step adds -/

def Build.Records (b : Build) (u : Usage) : Prop :=
  (∃ r ∈ b.references, r.2 = some u) ∨ ∃ us ∈ b.nilUsages, u ∈ us.2

section Steps

variable {o : Options} {b b' : Build}

@[simp] lemma noteUsage_graphs (b : Build) (target : String) (u : Usage) :
    (noteUsage b target u).graphs = b.graphs := by
  unfold noteUsage
  split_ifs <;> rfl

@[simp] lemma noteUsage_nextPlace (b : Build) (target : String) (u : Usage) :
    (noteUsage b target u).nextPlace = b.nextPlace := by
  unfold noteUsage
  split_ifs <;> rfl

lemma records_noteUsage {target : String} {u v : Usage} (h : (noteUsage b target u).Records v) :
    b.Records v ∨ v = u := by
  unfold noteUsage at h
  split at h
  · rcases h with h | h
    · exact .inl (.inl h)
    · rcases Entries.exists_of_put (v ∈ ·) h with h | h
      · exact .inl (.inr h)
      · rcases List.mem_append.mp h with h | h
        · exact .inl (.inr ((Entries.exists_of_getD_find? (v ∈ ·) h).resolve_right (by simp)))
        · exact .inr (List.mem_singleton.mp h)
  · split at h <;> rcases h with h | h
    · exact .inl (.inl ((Entries.exists_of_put (· = some v) h).resolve_right (by simp)))
    · exact .inl (.inr h)
    · rcases Entries.exists_of_put (· = some v) h with h | h
      · exact .inl (.inl h)
      · exact .inr (Option.some.inj h).symm
    · exact .inl (.inr h)

lemma stands_openGraph {name k : String} {i : Item} (h : Stands k i (openGraph b name).graphs) :
    Stands k i b.graphs := by
  unfold openGraph at h
  split at h
  · exact stands_putNew h
  · rcases stands_put h with h | h
    · exact stands_putNew h
    · exact stands_putNew (stands_find? (holds_putNew h))

/-- All that a statement adds: a type, or a value at a new place, which is used if it is a node. -/
lemma addStatement_spec {graph : String} {s : Statement} (h : addStatement o graph b s = .ok b') :
    (∃ iri, (∀ k i, Stands k i b'.graphs → Stands k i b.graphs ∨ i = .type iri) ∧
      b'.Records = b.Records ∧ b'.nextPlace = b.nextPlace) ∨
    ∃ content, objectValue o s.object = .ok content ∧
      (∀ k i, Stands k i b'.graphs → Stands k i b.graphs ∨
        k = s.predicate.value ∧ i = .value b.nextPlace content) ∧
      (∀ u, b'.Records u → b.Records u ∨
        isResource s.object = true ∧ u.place = b.nextPlace) ∧
      b'.nextPlace = b.nextPlace + 1 := by
  unfold addStatement at h
  extract_lets subject property target map map' map'' at h
  have hmap {k : String} {i : Item} (hi : NodeMap.Holds k i map'') : Stands k i b.graphs := by
    have hmap' : NodeMap.Holds k i map' := by
      unfold map'' at hi
      split at hi
      · exact holds_putNew hi
      · exact hi
    exact stands_find? (holds_putNew hmap')
  have hadded {key k : String} {item i : Item}
      (hi : Stands k i (Entries.put b.graphs graph (addToNode map'' subject key item))) :
      Stands k i b.graphs ∨ k = key ∧ i = item := by
    rcases stands_put hi with hi | hi
    · exact .inl hi
    · exact (holds_addToNode hi).imp_left hmap
  split at h
  · cases h
    exact .inl ⟨target, fun k i hi => (hadded hi).imp_right And.right, rfl, rfl⟩
  · obtain ⟨content, hcontent, h⟩ := exists_ok_of_bind h
    refine .inr ⟨content, hcontent, ?_⟩
    cases h
    split
    · next hresource =>
      refine ⟨fun k i hi => hadded (by simpa using hi), fun u hu => ?_,
        noteUsage_nextPlace _ _ _⟩
      rcases records_noteUsage hu with hu | rfl
      · exact .inl hu
      · exact .inr ⟨hresource, rfl⟩
    · exact ⟨fun k i hi => hadded hi, fun u hu => .inl hu, rfl⟩

end Steps

/-! ### Graphs as they are built -/

def Refers (content : Json) : Prop := ∃ name, content = .obj [("@id", .str name)]

/-- Each value of a build is that of an object of its key, and where a use is recorded it stands for
a node. -/
structure Build.Sound (o : Options) (statements : List Statement) (b : Build) : Prop where
  told : ∀ k place content, Stands k (.value place content) b.graphs → place < b.nextPlace ∧
    ∃ s ∈ statements, s.predicate.value = k ∧ objectValue o s.object = .ok content
  used : ∀ u, b.Records u → u.place < b.nextPlace ∧
    ∀ k content, Stands k (.value u.place content) b.graphs → Refers content

section Build

variable {o : Options} {b b' : Build} {statements : List Statement}

lemma refers_of_isResource {n : Node} (h : isResource n = true) {content : Json}
    (hcontent : objectValue o n = .ok content) : Refers content := by
  cases n with
  | literal => cases h
  | iri value | blank value =>
    cases hcontent
    exact ⟨_, rfl⟩

/-- Where no value comes to stand and no use is recorded, nothing changes. -/
lemma Build.Sound.of_stands (h : b.Sound o statements)
    (hstands : ∀ k place content, Stands k (.value place content) b'.graphs →
      Stands k (.value place content) b.graphs)
    (hrecords : b'.Records = b.Records) (hplace : b'.nextPlace = b.nextPlace) :
    b'.Sound o statements := by
  constructor
  · intro k place content hi
    rw [hplace]
    exact h.told k place content (hstands k place content hi)
  · intro u hu
    rw [hrecords] at hu
    rw [hplace]
    obtain ⟨hu, hrefers⟩ := h.used u hu
    exact ⟨hu, fun k content hi => hrefers k content (hstands k u.place content hi)⟩

lemma Build.Sound.openGraph (h : b.Sound o statements) (name : String) :
    (openGraph b name).Sound o statements := by
  refine h.of_stands (fun k place content => stands_openGraph) ?_ ?_
  · unfold Expanded.openGraph
    split <;> rfl
  · unfold Expanded.openGraph
    split <;> rfl

/-- **The step**: a statement adds the value of its object under its predicate. -/
lemma Build.Sound.addStatement (h : b.Sound o statements) {graph : String} {s : Statement}
    (hs : s ∈ statements) (hb : addStatement o graph b s = .ok b') : b'.Sound o statements := by
  rcases addStatement_spec hb with ⟨iri, hstands, hrecords, hplace⟩ |
    ⟨content, hcontent, hstands, hrecords, hplace⟩
  · refine h.of_stands (fun k place content hi => ?_) hrecords hplace
    exact (hstands _ _ hi).resolve_right (by simp)
  · constructor
    · intro k place c hi
      rw [hplace]
      rcases hstands _ _ hi with hold | ⟨hkey, hvalue⟩
      · exact ⟨Nat.lt_succ_of_lt (h.told k place c hold).1, (h.told k place c hold).2⟩
      · obtain ⟨rfl, rfl⟩ := Item.value.inj hvalue
        exact ⟨Nat.lt_succ_self _, s, hs, hkey.symm, hcontent⟩
    · intro u hu
      rw [hplace]
      rcases hrecords u hu with hu | ⟨hresource, hu⟩
      · -- the new place is no place of a use that was recorded before
        refine ⟨Nat.lt_succ_of_lt (h.used u hu).1, fun k c hi => ?_⟩
        rcases hstands _ _ hi with hi | ⟨-, hi⟩
        · exact (h.used u hu).2 k c hi
        · exact absurd (Item.value.inj hi).1 (Nat.ne_of_lt (h.used u hu).1)
      · refine ⟨hu ▸ Nat.lt_succ_self _, fun k c hi => ?_⟩
        rcases hstands _ _ hi with hi | ⟨-, hi⟩
        · exact absurd hu (Nat.ne_of_lt (h.told k u.place c hi).1)
        · rw [(Item.value.inj hi).2]
          exact refers_of_isResource hresource hcontent

lemma sound_build {d : Dataset} (h : build o d = .ok b) : b.Sound o (d.flatMap (·.2)) := by
  have hempty : Build.Sound o (d.flatMap (·.2)) {} := by
    constructor
    · rintro k place content ⟨g, hg, hi⟩
      rw [List.mem_singleton.mp hg] at hi
      exact absurd hi NodeMap.not_holds_nil
    · rintro u (⟨r, hr, -⟩ | ⟨us, hus, -⟩)
      · cases hr
      · cases hus
  refine foldlM_keeps (fun b hb g hg c hc => ?_) hempty h
  refine foldlM_keeps (fun b hb s hs c hc => ?_) (hb.openGraph g.1) hc
  exact hb.addStatement (List.mem_flatMap.mpr ⟨g, hg, hs⟩) hc

end Build

/-! ### Lists -/

/-- What comes of the graphs when lists are made of their list nodes: nothing new stands anywhere,
and a list is put in the place of a recorded use. -/
structure Lists.From (b : Build) (l : Lists) : Prop where
  stands : ∀ k i, Stands k i l.graphs → Stands k i b.graphs
  heads : ∀ e ∈ l.lists, ∃ u, b.Records u ∧ u.place = e.1

section Lists

variable {b : Build} {l l' : Lists}

lemma records_of_listNode? {u next : Usage} {item : Item}
    (h : listNode? b u = .ok (some (item, next))) : b.Records next := by
  unfold listNode? at h
  split at h
  · cases h
  · split at h
    · next use hfind =>
      refine .inl ⟨_, Entries.mem_of_find? hfind, ?_⟩
      split at h
      · cases h
      · split at h
        · split_ifs at h
          · cases h
            rfl
          · cases h
        · cases h
      · cases h
    · cases h

/-- The head of a chain stays a recorded use. -/
lemma records_chain {fuel : Nat} {c c' : Chain} (hc : b.Records c.head)
    (h : chain b fuel c = .ok c') : b.Records c'.head := by
  induction fuel generalizing c with
  | zero =>
    cases h
    exact hc
  | succ fuel ih =>
    rw [chain] at h
    obtain ⟨found, hfound, h⟩ := exists_ok_of_bind h
    rcases found with _ | ⟨item, next⟩
    · cases h
      exact hc
    · have hnext := records_of_listNode? hfound
      simp only at h
      split at h
      · exact ih hnext h
      · cases h
        exact hnext

lemma Lists.From.removeNode (h : l.From b) {graph node : String}
    (hl : removeNode graph l node = .ok l') : l'.From b := by
  unfold Expanded.removeNode at hl
  extract_lets map at hl
  split at hl
  · cases hl
    refine ⟨fun k i hi => h.stands k i ?_, h.heads⟩
    rcases stands_put hi with hi | hi
    · exact hi
    · exact stands_find? (holds_erase hi)
  · cases hl

/-- **The step**: the chain that ends at a recorded use becomes a list. -/
lemma Lists.From.convert (h : l.From b) {graph : String} {u : Usage} (hu : b.Records u)
    (hl : convert b graph l u = .ok l') : l'.From b := by
  obtain ⟨c, hc, hl⟩ := exists_ok_of_bind hl
  have hhead : b.Records c.head := records_chain hu hc
  split at hl
  · cases hl
  · extract_lets taken at hl
    have htaken : taken.From b := by
      refine ⟨h.stands, fun e he => ?_⟩
      rcases List.mem_append.mp he with he | he
      · exact h.heads e he
      · rw [List.mem_singleton.mp he]
        exact ⟨c.head, hhead, rfl⟩
    exact foldlM_keeps (fun l (hl : l.From b) node _ l' => hl.removeNode) htaken hl

lemma from_convertAll (h : convertAll b = .ok l) : l.From b := by
  have hstart : Lists.From b { graphs := b.graphs } := ⟨fun _ _ hi => hi, by simp⟩
  refine foldlM_keeps (fun l hl g hg l' hl' => ?_) hstart h
  refine foldlM_keeps (fun l hl u hu l' hl' => hl.convert ?_ hl') hl hl'
  exact .inr ((Entries.exists_of_getD_find? (u ∈ ·) hu).resolve_right (by simp))

end Lists

end Expanded

end LinkedJson
