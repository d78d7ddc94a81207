import LinkedJson.Context
import LinkedJson.Proofs.Entries

/-!
What a context derived in the order of the triples holds.

Each key is defined by the first triple that can define it, and the prefixes that are no keys yet
come after all of these.
-/

namespace LinkedJson

def Rdf.Term.isRdf : Rdf.Term → Bool
  | .iri _ | .blank _ | .literal _ _ => true
  | .var _ | .formula _ => false

namespace Context

open LinkedJson.Rdf

/-- The predicate that a triple can define: an IRI other than `rdf:type` with an object of RDF. -/
def property? (t : Triple) : Option String :=
  match t.predicate with
  | .iri p => if p ≠ rdfType ∧ t.object.isRdf then some p else none
  | _ => none

def namedPrefixes (prefixes : Entries String) : Json.Object :=
  (prefixes.filter (·.1 ≠ "")).map fun b => (b.1, .str b.2)

@[simp] lemma coerced_inj {p q d e : String} : coerced p d = coerced q e ↔ p = q ∧ d = e := by
  simp [coerced]

@[simp] lemma coerced_ne_str (p d s : String) : coerced p d ≠ .str s := by
  simp [coerced]

/-! ### One triple -/

lemma isSome_definition? (p : String) (o : Term) : (definition? p o).isSome = o.isRdf := by
  rcases o with _ | _ | ⟨_, _ | d | _⟩ | _ | _ <;> simp only [definition?, Term.isRdf] <;>
    first | rfl | (split <;> rfl)

lemma property?_eq_some_iff {t : Triple} {p : String} :
    property? t = some p ↔ t.predicate = .iri p ∧ p ≠ rdfType ∧ t.object.isRdf = true := by
  obtain ⟨s, q, o⟩ := t
  cases q with
  | iri q =>
    simp only [property?, Option.ite_none_right_eq_some, Option.some.injEq, Term.iri.injEq]
    constructor
    · rintro ⟨⟨hq, ho⟩, rfl⟩
      exact ⟨rfl, hq, ho⟩
    · rintro ⟨rfl, hq, ho⟩
      exact ⟨⟨hq, ho⟩, rfl⟩
  | _ => simp [property?]

variable {preferPrefixed : Bool} {prefixes : Entries String}

lemma offer?_of_property? {t : Triple} {p : String} (h : property? t = some p) :
    offer? preferPrefixed prefixes t =
      (definition? p t.object).map (propertyKey preferPrefixed prefixes p, ·) := by
  obtain ⟨hp, htype, -⟩ := property?_eq_some_iff.mp h
  simp only [offer?, hp, if_neg htype]

lemma offer?_eq_none {t : Triple} (h : property? t = none) :
    offer? preferPrefixed prefixes t = none := by
  obtain ⟨s, q, o⟩ := t
  cases q with
  | iri q =>
    by_cases hq : q = rdfType
    · simp [offer?, hq]
    · have ho : o.isRdf = false := by
        simpa [property?, hq] using h
      have hd : definition? q o = none := by
        rw [← Option.not_isSome_iff_eq_none, isSome_definition?, ho]
        simp
      simp [offer?, hq, hd]
  | _ => rfl

lemma offer?_eq_some_iff {t : Triple} {k : String} {d : Json} :
    offer? preferPrefixed prefixes t = some (k, d) ↔ ∃ p, property? t = some p ∧
      propertyKey preferPrefixed prefixes p = k ∧ definition? p t.object = some d := by
  rcases h : property? t with _ | p
  · simp [offer?_eq_none h]
  · simp only [offer?_of_property? h, Option.map_eq_some_iff, Prod.mk.injEq, Option.some.injEq,
      exists_eq_left']
    constructor
    · rintro ⟨d', hd, hk, rfl⟩
      exact ⟨hk, hd⟩
    · rintro ⟨hk, hd⟩
      exact ⟨d, hd, hk, rfl⟩

lemma map_fst_offer? (t : Triple) : (offer? preferPrefixed prefixes t).map (·.1) =
    (property? t).map (propertyKey preferPrefixed prefixes) := by
  rcases h : property? t with _ | p
  · rw [offer?_eq_none h]
    rfl
  · have hsome : (definition? p t.object).isSome := by
      rw [isSome_definition?]
      exact (property?_eq_some_iff.mp h).2.2
    obtain ⟨d, hd⟩ := Option.isSome_iff_exists.mp hsome
    rw [offer?_of_property? h, hd]
    rfl

/-! ### All triples -/

variable (preferPrefixed prefixes)

lemma terms_eq_addNew (triples : List Triple) : terms preferPrefixed prefixes triples =
    Entries.addNew [] (triples.filterMap (offer? preferPrefixed prefixes)) := rfl

lemma keys_terms (triples : List Triple) : Entries.keys (terms preferPrefixed prefixes triples) =
    ((triples.filterMap property?).map (propertyKey preferPrefixed prefixes)).eraseDups := by
  have hkeys : Entries.keys (triples.filterMap (offer? preferPrefixed prefixes)) =
      (triples.filterMap property?).map (propertyKey preferPrefixed prefixes) := by
    rw [Entries.keys, List.map_filterMap, List.map_filterMap]
    exact List.filterMap_congr fun t _ => map_fst_offer? t
  rw [terms_eq_addNew, Entries.keys_addNew, hkeys]
  simp

lemma mem_keys_terms {triples : List Triple} {k : String} :
    k ∈ Entries.keys (terms preferPrefixed prefixes triples) ↔
      ∃ t ∈ triples, ∃ p, property? t = some p ∧ propertyKey preferPrefixed prefixes p = k := by
  rw [keys_terms, List.mem_eraseDups, List.mem_map]
  simp only [List.mem_filterMap]
  constructor
  · rintro ⟨p, ⟨t, ht, hp⟩, hk⟩
    exact ⟨t, ht, p, hp, hk⟩
  · rintro ⟨t, ht, p, hp, hk⟩
    exact ⟨p, ⟨t, ht, hp⟩, hk⟩

lemma nodup_keys_terms (triples : List Triple) :
    (Entries.keys (terms preferPrefixed prefixes triples)).Nodup := by
  rw [terms_eq_addNew]
  exact Entries.nodup_keys_addNew (by simp) _

/-- A term is defined by the first triple with a property of its key. -/
lemma find?_terms_eq_some_iff {triples : List Triple} {k : String} {d : Json} :
    Entries.find? (terms preferPrefixed prefixes triples) k = some d ↔
      ∃ before t after p, triples = before ++ t :: after ∧ property? t = some p ∧
        propertyKey preferPrefixed prefixes p = k ∧ definition? p t.object = some d ∧
        ∀ u ∈ before, ∀ q, property? u = some q → propertyKey preferPrefixed prefixes q ≠ k := by
  rw [terms_eq_addNew, Entries.find?_addNew]
  simp only [Entries.find?, Option.none_or, Entries.find?_filterMap_eq_some_iff]
  have hother (u : Triple) : (∀ e, offer? preferPrefixed prefixes u = some e → e.1 ≠ k) ↔
      ∀ q, property? u = some q → propertyKey preferPrefixed prefixes q ≠ k := by
    have h : (offer? preferPrefixed prefixes u).map (·.1) =
        (property? u).map (propertyKey preferPrefixed prefixes) := map_fst_offer? u
    rcases hu : property? u with _ | q
    · simp [offer?_eq_none hu]
    · obtain ⟨e, he, hek⟩ := Option.map_eq_some_iff.mp (h.trans (congrArg _ hu))
      simp [he, hek]
  simp only [hother, offer?_eq_some_iff]
  constructor
  · rintro ⟨before, t, after, hl, ⟨p, hp, hk, hd⟩, hbefore⟩
    exact ⟨before, t, after, p, hl, hp, hk, hd, hbefore⟩
  · rintro ⟨before, t, after, p, hl, hp, hk, hd, hbefore⟩
    exact ⟨before, t, after, hl, ⟨p, hp, hk, hd⟩, hbefore⟩

lemma addPrefixes_eq_addNew (context : Json.Object) :
    addPrefixes context prefixes = Entries.addNew context (namedPrefixes prefixes) := by
  unfold addPrefixes namedPrefixes
  induction prefixes generalizing context with
  | nil => rfl
  | cons b rest ih =>
    rw [List.foldl_cons, ih]
    by_cases hb : b.1 = ""
    · rw [if_pos hb, List.filter_cons_of_neg (by simpa using hb)]
    · rw [if_neg hb, List.filter_cons_of_pos (by simpa using hb), List.map_cons,
        Entries.addNew_cons]

lemma find?_addPrefixes (context : Json.Object) (k : String) :
    Entries.find? (addPrefixes context prefixes) k =
      (Entries.find? context k).or (Entries.find? (namedPrefixes prefixes) k) := by
  rw [addPrefixes_eq_addNew, Entries.find?_addNew]

lemma nodup_keys_addPrefixes {context : Json.Object} (h : (Entries.keys context).Nodup) :
    (Entries.keys (addPrefixes context prefixes)).Nodup := by
  rw [addPrefixes_eq_addNew]
  exact Entries.nodup_keys_addNew h _

variable {prefixes}

lemma keys_namedPrefixes_nodup (hmap : (Entries.keys prefixes).Nodup) :
    (Entries.keys (namedPrefixes prefixes)).Nodup := by
  have hsub : (Entries.keys (namedPrefixes prefixes)).Sublist (Entries.keys prefixes) := by
    rw [namedPrefixes, Entries.keys, List.map_map]
    exact List.filter_sublist.map _
  exact hmap.sublist hsub

/-- The prefixes of a map are added in its order, less those that are keys already. -/
lemma addPrefixes_eq_append (hmap : (Entries.keys prefixes).Nodup) (context : Json.Object) :
    addPrefixes context prefixes = context ++
      (prefixes.filter fun b => b.1 ≠ "" ∧ b.1 ∉ Entries.keys context).map
        fun b => (b.1, .str b.2) := by
  rw [addPrefixes_eq_addNew, Entries.addNew_eq_append _ (keys_namedPrefixes_nodup hmap),
    namedPrefixes, List.filter_map, List.filter_filter]
  congr 2
  refine List.filter_congr fun b _ => ?_
  simp [Bool.and_comm]

/-- **First seen wins**: a context derived in the order of the triples holds, in the order of the
first triple of each key, the definition which that triple gives; then each binding whose prefix
is neither empty nor a key. -/
theorem derive_firstSeen (hmap : (Entries.keys prefixes).Nodup) (triples : List Triple) :
    ∃ props context : Json.Object,
      derive ⟨preferPrefixed, false⟩ prefixes triples = .ok context ∧
      context = props ++ (prefixes.filter fun b => b.1 ≠ "" ∧ b.1 ∉ Entries.keys props).map
        (fun b => (b.1, .str b.2)) ∧
      Entries.keys props =
        ((triples.filterMap property?).map (propertyKey preferPrefixed prefixes)).eraseDups ∧
      (∀ k d, (k, d) ∈ props ↔ ∃ before t after p, triples = before ++ t :: after ∧
        property? t = some p ∧ propertyKey preferPrefixed prefixes p = k ∧
        definition? p t.object = some d ∧
        ∀ u ∈ before, ∀ q, property? u = some q → propertyKey preferPrefixed prefixes q ≠ k) ∧
      (Entries.keys context).Nodup := by
  have hnodup := nodup_keys_terms preferPrefixed prefixes triples
  refine ⟨terms preferPrefixed prefixes triples, _, rfl, addPrefixes_eq_append hmap _,
    keys_terms preferPrefixed prefixes triples, fun k d => ?_,
    nodup_keys_addPrefixes prefixes hnodup⟩
  rw [← Entries.find?_eq_some_iff hnodup]
  exact find?_terms_eq_some_iff preferPrefixed prefixes

/-- Triples of which the first has a variable for its object, and so leaves the key to the next. -/
def titles : List Triple := [
  ⟨.iri "http://example.org/Alice", .iri "http://other.org/vocab#title", .var "x"⟩,
  ⟨.iri "http://example.org/Alice", .iri "http://example.org/title", .literal "Dr" .plain⟩,
  ⟨.iri "http://example.org/Alice", .iri "http://other.org/vocab#title", .blank "b"⟩]

def titlePrefixes : Entries String :=
  [("title", "http://t.org/"), ("", "http://e.org/"), ("ex", "http://example.org/")]

theorem derive_firstSeen_titles : (Entries.keys titlePrefixes).Nodup ∧
    ∃ props context : Json.Object, derive ⟨false, false⟩ titlePrefixes titles = .ok context ∧
      context = props ++ [("ex", .str "http://example.org/")] ∧ Entries.keys props = ["title"] ∧
      ("title", .str "http://example.org/title") ∈ props := by
  have hmap : (Entries.keys titlePrefixes).Nodup := by decide
  obtain ⟨props, context, hderive, hcontext, hkeys, hprops, -⟩ :=
    derive_firstSeen false hmap titles
  have hkeys : Entries.keys props = ["title"] := hkeys.trans (by decide +kernel)
  refine ⟨hmap, props, context, hderive, ?_, hkeys, ?_⟩
  · rw [hcontext, hkeys]
    rfl
  · refine (hprops _ _).mpr ⟨titles.take 1, titles[1], titles.drop 2, "http://example.org/title",
      rfl, by decide +kernel, by decide +kernel, rfl, ?_⟩
    decide +kernel

end Context

end LinkedJson
