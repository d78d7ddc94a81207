import LinkedJson.Proofs.Iri

/-!
Where an IRI is parted, and when its local name is the whole of it.

The last number sign parts an IRI, or if it has none the last slash. This settles both parts, and
nothing of the IRI is lost. The local name is the second part, unless that is empty.
-/

namespace LinkedJson.Iri

/-- The two parts of an IRI at its last number sign, or if it has none at its last slash. After the
number sign there may be slashes. -/
structure LastParted (iri ns name : String) : Prop where
  append_eq : ns ++ name = iri
  fragment : '#' ∈ iri.toList → ns.toList.getLast? = some '#' ∧ '#' ∉ name.toList
  segment : '#' ∉ iri.toList → '/' ∈ iri.toList →
    ns.toList.getLast? = some '/' ∧ '#' ∉ name.toList ∧ '/' ∉ name.toList
  whole : '#' ∉ iri.toList → '/' ∉ iri.toList → ns = "" ∧ name = iri

variable {iri ns name : String}

lemma exists_eq_append_singleton {mark : Char} (h : ns.toList.getLast? = some mark) :
    ∃ front, ns = front ++ String.singleton mark := by
  obtain ⟨front, heq⟩ := List.getLast?_eq_some_iff.mp h
  refine ⟨String.ofList front, ?_⟩
  rw [← String.toList_inj, heq]
  simp

lemma Parted.lastParted (h : Parted iri ns name) : LastParted iri ns name := by
  cases h with
  | fragment ns hname =>
    exact ⟨rfl, fun _ => ⟨by simp, hname⟩, fun hmark => absurd (by simp) hmark,
      fun hmark => absurd (by simp) hmark⟩
  | @segment ns name hmark hname =>
    have hfragment : '#' ∉ name.toList := fun h => hmark (by simp [h])
    exact ⟨rfl, fun h => absurd h hmark, fun _ _ => ⟨by simp, hfragment, hname⟩,
      fun _ hslash => absurd (by simp) hslash⟩
  | whole hmark hslash =>
    exact ⟨by simp, fun h => absurd h hmark, fun _ h => absurd h hslash, fun _ _ => ⟨rfl, rfl⟩⟩

lemma LastParted.parted (h : LastParted iri ns name) : Parted iri ns name := by
  obtain rfl := h.append_eq
  by_cases hmark : '#' ∈ (ns ++ name).toList
  · obtain ⟨hlast, hname⟩ := h.fragment hmark
    obtain ⟨front, rfl⟩ := exists_eq_append_singleton hlast
    exact .fragment front hname
  · by_cases hslash : '/' ∈ (ns ++ name).toList
    · obtain ⟨hlast, -, hname⟩ := h.segment hmark hslash
      obtain ⟨front, rfl⟩ := exists_eq_append_singleton hlast
      exact .segment hmark hname
    · obtain ⟨rfl, hname⟩ := h.whole hmark hslash
      rw [← hname] at hmark hslash ⊢
      exact .whole hmark hslash

lemma split_eq_iff : split iri = (ns, name) ↔ LastParted iri ns name := by
  constructor
  · intro h
    have hparted := parted_split iri
    rw [h] at hparted
    exact hparted.lastParted
  · exact fun h => h.parted.split_eq

/-! ### Local names -/

lemma localName_of_lastParted (h : LastParted iri ns name) :
    localName iri = if name = "" then iri else name := by
  rw [localName, split_eq_iff.mpr h]

/-- The local name is the whole IRI exactly if one of the parts is empty. -/
lemma LastParted.localName_eq_self_iff (h : LastParted iri ns name) :
    localName iri = iri ↔ ns = "" ∨ name = "" := by
  rw [localName_of_lastParted h]
  by_cases hname : name = ""
  · simp [hname]
  · rw [if_neg hname, ← h.append_eq, or_iff_left hname, ← String.toList_inj,
      String.toList_append, List.self_eq_append_left, String.toList_eq_nil_iff]

lemma getLast?_append_cons_iff {mark : Char} (front : List Char) {rest : List Char}
    (h : mark ∉ rest) : (front ++ mark :: rest).getLast? = some mark ↔ rest = [] := by
  rcases List.eq_nil_or_concat' rest with rfl | ⟨init, c, rfl⟩
  · simp
  · have hc : c ≠ mark := by
      rintro rfl
      exact h (by simp)
    rw [← List.cons_append, ← List.append_assoc, List.getLast?_concat]
    simp [hc]

/-- A part is empty exactly if there is no separator, or nothing after the one that counts. -/
lemma Parted.empty_iff (h : Parted iri ns name) : ns = "" ∨ name = "" ↔
    ('#' ∉ iri.toList ∧ '/' ∉ iri.toList) ∨ iri.toList.getLast? = some '#' ∨
      '#' ∉ iri.toList ∧ iri.toList.getLast? = some '/' := by
  cases h with
  | fragment ns hname =>
    have hlast := getLast?_append_cons_iff ns.toList hname
    have hiri : (ns ++ "#" ++ name).toList = ns.toList ++ '#' :: name.toList := by simp
    rw [hiri, hlast, String.toList_eq_nil_iff]
    simp
  | @segment ns name hmark hname =>
    have hlast := getLast?_append_cons_iff ns.toList hname
    have hiri : (ns ++ "/" ++ name).toList = ns.toList ++ '/' :: name.toList := by simp
    have hfragment : (ns ++ "/" ++ name).toList.getLast? ≠ some '#' :=
      fun h => hmark (List.mem_of_getLast? h)
    rw [hiri] at hmark hfragment ⊢
    rw [hlast, String.toList_eq_nil_iff, or_iff_right hfragment]
    simp [hmark]
  | whole hmark hslash => simp [hmark, hslash]

/-- **An IRI is parted at its last separator without loss**, at a number sign before a slash, so
that a fragment may hold slashes. The local name is what follows, or all of the IRI where it has no
separator or ends in the one that parts it. -/
theorem split_localName_lastParted (iri : String) :
    (∀ ns name, split iri = (ns, name) ↔ LastParted iri ns name) ∧
    (∀ ns name, iri = ns ++ "#" ++ name → '#' ∉ name.toList → split iri = (ns ++ "#", name)) ∧
    (∀ ns name, LastParted iri ns name → localName iri = if name = "" then iri else name) ∧
    (∃ front, iri = front ++ localName iri) ∧
    (localName iri = "" ↔ iri = "") ∧
    (localName iri = iri ↔ ('#' ∉ iri.toList ∧ '/' ∉ iri.toList) ∨
      iri.toList.getLast? = some '#' ∨ '#' ∉ iri.toList ∧ iri.toList.getLast? = some '/') := by
  have hparted := parted_split iri
  refine ⟨fun _ _ => split_eq_iff, ?_, fun _ _ => localName_of_lastParted,
    exists_append_localName iri, localName_eq_empty_iff, ?_⟩
  · rintro ns name rfl hname
    exact (Parted.fragment ns hname).split_eq
  · rw [hparted.lastParted.localName_eq_self_iff, hparted.empty_iff]

/-- A slash at the end counts only where there is no number sign. -/
example : localName "http://example.org/vocab#a/" = "a/" ∧
    localName "http://example.org/vocab/a/" = "http://example.org/vocab/a/" := by
  decide +kernel

end LinkedJson.Iri
