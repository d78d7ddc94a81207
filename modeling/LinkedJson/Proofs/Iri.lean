import LinkedJson.Iri
import LinkedJson.Proofs.Entries
import Mathlib.Data.String.Basic

/-!
Local names and the IRIs they come from.

An IRI is parted after its last number sign, or if it has none after its last slash. The local name
is what follows, or the whole IRI if nothing does.
-/

namespace LinkedJson.Iri

lemma splitLast?_append {mark : Char} (front : List Char) {rest : List Char} (h : mark ∉ rest) :
    splitLast? mark (front ++ mark :: rest) = some (front ++ [mark], rest) := by
  have htail : ((front ++ mark :: rest).reverse.takeWhile (· ≠ mark)).reverse = rest := by
    have hrest : ∀ c ∈ rest.reverse, decide (c ≠ mark) = true := by
      intro c hc
      rw [decide_eq_true_eq]
      rintro rfl
      exact h (List.mem_reverse.mp hc)
    rw [List.reverse_append, List.reverse_cons, List.append_assoc,
      List.takeWhile_append_of_pos hrest]
    simp
  have hlength : (front ++ mark :: rest).length - rest.length = (front ++ [mark]).length := by
    simp only [List.length_append, List.length_cons, List.length_nil]
    omega
  have hmem : (front ++ mark :: rest).contains mark = true := by simp
  rw [splitLast?, if_pos hmem]
  simp only [htail, hlength]
  rw [List.append_cons front mark rest, List.take_left]

lemma splitLast?_eq_none {mark : Char} {cs : List Char} (h : mark ∉ cs) :
    splitLast? mark cs = none := by
  rw [splitLast?, if_neg]
  simpa using h

lemma exists_last {mark : Char} {cs : List Char} (h : mark ∈ cs) :
    ∃ front rest, cs = front ++ mark :: rest ∧ mark ∉ rest := by
  obtain ⟨rest, front, heq, hrest⟩ := List.eq_append_cons_of_mem (List.mem_reverse.mpr h)
  refine ⟨front.reverse, rest.reverse, ?_, by simpa using hrest⟩
  rw [← List.reverse_reverse cs, heq]
  simp

inductive Parted : String → String → String → Prop
  | fragment (ns : String) {name : String} (h : '#' ∉ name.toList) :
    Parted (ns ++ "#" ++ name) (ns ++ "#") name
  | segment {ns name : String} (hmark : '#' ∉ (ns ++ "/" ++ name).toList)
    (h : '/' ∉ name.toList) : Parted (ns ++ "/" ++ name) (ns ++ "/") name
  | whole {name : String} (hmark : '#' ∉ name.toList) (h : '/' ∉ name.toList) :
    Parted name "" name

lemma Parted.split_eq {iri ns name : String} (h : Parted iri ns name) : split iri = (ns, name) := by
  have key {front : String} {mark : Char} (hname : mark ∉ name.toList) :
      splitLast? mark (front ++ String.singleton mark ++ name).toList =
        some ((front ++ String.singleton mark).toList, name.toList) := by
    have hsplit := splitLast?_append front.toList hname
    simpa using hsplit
  cases h with
  | fragment ns hname =>
    have hsplit : splitLast? '#' (ns ++ "#" ++ name).toList = _ := key hname
    rw [split, hsplit]
    simp
  | @segment ns _ hmark hname =>
    have hsplit : splitLast? '/' (ns ++ "/" ++ name).toList = _ := key hname
    rw [split, splitLast?_eq_none hmark, hsplit]
    simp
  | whole hmark hslash =>
    rw [split, splitLast?_eq_none hmark, splitLast?_eq_none hslash]
    rfl

/-- Every IRI is parted in one way. -/
lemma parted_split (iri : String) : Parted iri (split iri).1 (split iri).2 := by
  suffices h : ∃ ns name, Parted iri ns name by
    obtain ⟨ns, name, h⟩ := h
    rwa [h.split_eq]
  have key {mark : Char} (h : mark ∈ iri.toList) : ∃ ns name : String,
      iri = ns ++ String.singleton mark ++ name ∧ mark ∉ name.toList := by
    obtain ⟨front, rest, heq, hrest⟩ := exists_last h
    refine ⟨String.ofList front, String.ofList rest, ?_, by simpa using hrest⟩
    rw [← String.toList_inj]
    simpa using heq
  by_cases hmark : '#' ∈ iri.toList
  · obtain ⟨ns, name, rfl, hname⟩ := key hmark
    exact ⟨_, _, .fragment ns hname⟩
  · by_cases hslash : '/' ∈ iri.toList
    · obtain ⟨ns, name, rfl, hname⟩ := key hslash
      exact ⟨_, _, .segment hmark hname⟩
    · exact ⟨_, _, .whole hmark hslash⟩

lemma Parted.eq_append {iri ns name : String} (h : Parted iri ns name) : iri = ns ++ name := by
  cases h <;> simp

lemma localName_eq_empty_iff {iri : String} : localName iri = "" ↔ iri = "" := by
  by_cases hname : (split iri).2 = ""
  · simp [localName, hname]
  · have hiri : iri ≠ "" := by
      rintro rfl
      exact hname (by decide)
    simp [localName, hname, hiri]

/-- A word without separators is the local name of the IRIs that end in it. -/
lemma localName_eq_iff {iri word : String} (hword : word ≠ "") (hmark : '#' ∉ word.toList)
    (hslash : '/' ∉ word.toList) : localName iri = word ↔ ∃ ns, Parted iri ns word := by
  have hsplit : (∃ ns, Parted iri ns word) ↔ (split iri).2 = word := by
    constructor
    · rintro ⟨ns, h⟩
      rw [h.split_eq]
    · rintro rfl
      exact ⟨_, parted_split iri⟩
  rw [hsplit]
  by_cases hname : (split iri).2 = ""
  · -- an IRI without a local name ends in a separator, so it is not the word
    have hiri : iri ≠ word := by
      rintro rfl
      rw [(Parted.whole hmark hslash).split_eq] at hname
      exact hword hname
    simp [localName, hname, hiri, hword.symm]
  · simp [localName, hname]

lemma exists_append_localName (iri : String) : ∃ rest, iri = rest ++ localName iri := by
  by_cases hname : (split iri).2 = ""
  · exact ⟨"", by simp [localName, hname]⟩
  · refine ⟨(split iri).1, ?_⟩
    rw [localName, if_neg hname]
    exact (parted_split iri).eq_append

end LinkedJson.Iri
