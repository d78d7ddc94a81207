import LinkedJson.Proofs.Context.Expansion

/-!
Contexts whose keys are prefixed names.

Where each property has a prefixed name no two of them meet under one key, so each has an entry of
its own.
-/

namespace LinkedJson.Context

open LinkedJson.Rdf
open LinkedJson.Iri (abbreviate?)

variable {prefixes : Entries String} {triples : List Triple}

def Covered (prefixes : Entries String) (triples : List Triple) : Prop :=
  ∀ t ∈ triples, ∀ p, property? t = some p → (abbreviate? p prefixes).isSome

lemma propertyKey_eq_iff_of_isSome {p k : String} (h : (abbreviate? p prefixes).isSome) :
    propertyKey true prefixes p = k ↔ abbreviate? p prefixes = some k := by
  obtain ⟨s, hs⟩ := Option.isSome_iff_exists.mp h
  simp [propertyKey, hs]

/-- An entry of the terms is under the prefixed name of a property, and for its IRI. -/
lemma exists_property_of_mem_terms (hcovered : Covered prefixes triples) {e : String × Json}
    (he : e ∈ terms true prefixes triples) : ∃ p, p ∈ triples.filterMap property? ∧
      abbreviate? p prefixes = some e.1 ∧ iriOf? e.2 = some p := by
  have hfind : Entries.find? (terms true prefixes triples) e.1 = some e.2 :=
    (Entries.find?_eq_some_iff (nodup_keys_terms true prefixes triples)).mpr he
  obtain ⟨before, t, after, p, hl, hp, hkey, hdef, -⟩ :=
    (find?_terms_eq_some_iff true prefixes).mp hfind
  have ht : t ∈ triples := by
    rw [hl]
    simp
  exact ⟨p, List.mem_filterMap.mpr ⟨t, ht, hp⟩,
    (propertyKey_eq_iff_of_isSome (hcovered t ht p hp)).mp hkey, iriOf?_of_definition? hdef⟩

/-- Each property has an entry under its prefixed name, and for its own IRI. -/
lemma exists_mem_terms_of_property (hmap : (Entries.keys prefixes).Nodup)
    (hcovered : Covered prefixes triples) {p : String} (hp : p ∈ triples.filterMap property?) :
    ∃ e ∈ terms true prefixes triples, abbreviate? p prefixes = some e.1 ∧
      iriOf? e.2 = some p := by
  obtain ⟨t, ht, htp⟩ := List.mem_filterMap.mp hp
  obtain ⟨k, hk⟩ := Option.isSome_iff_exists.mp (hcovered t ht p htp)
  have hmem : k ∈ Entries.keys (terms true prefixes triples) :=
    (mem_keys_terms true prefixes).mpr
      ⟨t, ht, p, htp, (propertyKey_eq_iff_of_isSome (hcovered t ht p htp)).mpr hk⟩
  obtain ⟨d, hd⟩ := Entries.exists_find? hmem
  have he := Entries.mem_of_find? hd
  -- the property that defines the key has the same prefixed name, so it is the same property
  obtain ⟨q, -, hq, hiri⟩ := exists_property_of_mem_terms hcovered he
  obtain rfl : p = q := Iri.eq_of_abbreviate? hmap hk hq
  exact ⟨(k, d), he, hk, hiri⟩

lemma terms_perm_properties (hmap : (Entries.keys prefixes).Nodup)
    (hcovered : Covered prefixes triples) :
    ((terms true prefixes triples).map fun e => (some e.1, iriOf? e.2)).Perm
      ((triples.filterMap property?).eraseDups.map fun p => (abbreviate? p prefixes, some p)) := by
  have hkeys := nodup_keys_terms true prefixes triples
  have hleft : ((terms true prefixes triples).map fun e => (some e.1, iriOf? e.2)).Nodup := by
    have hsome := (List.nodup_map_iff (Option.some_injective String)).mpr hkeys
    rw [Entries.keys, List.map_map] at hsome
    refine List.Nodup.of_map Prod.fst ?_
    rwa [List.map_map]
  have hright : ((triples.filterMap property?).eraseDups.map
      fun p => (abbreviate? p prefixes, some p)).Nodup := by
    refine (List.nodup_map_iff fun p q h => ?_).mpr (nodup_eraseDups _)
    exact Option.some.inj (Prod.mk.inj h).2
  refine (List.perm_ext_iff_of_nodup hleft hright).mpr fun x => ?_
  simp only [List.mem_map, List.mem_eraseDups]
  constructor
  · rintro ⟨e, he, rfl⟩
    obtain ⟨p, hp, hkey, hiri⟩ := exists_property_of_mem_terms hcovered he
    exact ⟨p, hp, by rw [hkey, hiri]⟩
  · rintro ⟨p, hp, rfl⟩
    obtain ⟨e, he, hkey, hiri⟩ := exists_mem_terms_of_property hmap hcovered hp
    exact ⟨e, he, by rw [hkey, hiri]⟩

/-- A context comes about unless the triples are to be sorted and a term has no text. -/
lemma exists_derive_iff {preferPrefixed sortTriples : Bool} :
    (∃ context, derive ⟨preferPrefixed, sortTriples⟩ prefixes triples = .ok context) ↔
      sortTriples = false ∨ ∀ t ∈ triples, HasTexts t := by
  cases sortTriples with
  | false => exact ⟨fun _ => .inl rfl, fun _ => ⟨_, rfl⟩⟩
  | true =>
    by_cases htexts : ∀ t ∈ triples, HasTexts t
    · obtain ⟨ordered, hordered, -⟩ := sorted_eq_ok htexts
      exact ⟨fun _ => .inr htexts, fun _ => ⟨_, derive_eq_ok preferPrefixed prefixes hordered⟩⟩
    · have hno : ∃ t ∈ triples, ¬ HasTexts t := by simpa using htexts
      obtain ⟨e, he⟩ := sorted_eq_error hno
      simp [derive_eq_error preferPrefixed prefixes he, hno]

/-- **Prefixed keys keep properties apart**: under a map of prefixes no two IRIs have one prefixed
name. So if each property of the triples has a prefixed name, then a context that prefers these is
one entry for each property, under its prefixed name and for its own IRI, and some of the
prefixes. -/
theorem derive_prefixed_apart (hmap : (Entries.keys prefixes).Nodup) :
    (∀ p q s, abbreviate? p prefixes = some s → abbreviate? q prefixes = some s → p = q) ∧
    ∀ (sortTriples : Bool) (triples : List Triple), Covered prefixes triples →
      ((∃ context, derive ⟨true, sortTriples⟩ prefixes triples = .ok context) ↔
        sortTriples = false ∨ ∀ t ∈ triples, HasTexts t) ∧
      ∀ context, derive ⟨true, sortTriples⟩ prefixes triples = .ok context →
        (Entries.keys context).Nodup ∧
        ∃ props rest : Json.Object, context = props ++ rest ∧
          rest.Sublist (namedPrefixes prefixes) ∧
          (props.map fun e => (some e.1, iriOf? e.2)).Perm
            ((triples.filterMap property?).eraseDups.map
              fun p => (abbreviate? p prefixes, some p)) := by
  refine ⟨fun p q s => Iri.eq_of_abbreviate? hmap, fun sortTriples triples hcovered =>
    ⟨exists_derive_iff, fun context hderive => ?_⟩⟩
  obtain ⟨ordered, hperm, rfl⟩ := exists_perm_of_derive hderive
  obtain ⟨rest, hrest, hsub⟩ := Entries.exists_addNew_eq_append
    (terms true prefixes ordered) (namedPrefixes prefixes)
  rw [← addPrefixes_eq_addNew] at hrest
  refine ⟨nodup_keys_addPrefixes prefixes (nodup_keys_terms true prefixes ordered),
    terms true prefixes ordered, rest, hrest, hsub, ?_⟩
  have hordered : Covered prefixes ordered := fun t ht => hcovered t (hperm.mem_iff.mp ht)
  have hproperties : (ordered.filterMap property?).eraseDups.Perm
      (triples.filterMap property?).eraseDups := by
    refine (List.perm_ext_iff_of_nodup (nodup_eraseDups _) (nodup_eraseDups _)).mpr fun p => ?_
    rw [List.mem_eraseDups, List.mem_eraseDups, (hperm.filterMap property?).mem_iff]
  exact (terms_perm_properties hmap hordered).trans (hproperties.map _)

def nestedPrefixes : Entries String :=
  [("ex", "http://example.org/"), ("ex:v", "http://other.org/vocab#")]

/-- Two properties of one local name, and a prefix with a colon. -/
theorem derive_prefixed_apart_titles : (Entries.keys nestedPrefixes).Nodup ∧
    Covered nestedPrefixes titles ∧ ∃ props rest : Json.Object,
      derive ⟨true, false⟩ nestedPrefixes titles = .ok (props ++ rest) ∧
      (props.map fun e => (some e.1, iriOf? e.2)).Perm
        [(some "ex:v:title", some "http://other.org/vocab#title"),
          (some "ex:title", some "http://example.org/title")] := by
  have hmap : (Entries.keys nestedPrefixes).Nodup := by decide
  have hcovered : Covered nestedPrefixes titles := by
    intro t ht p hp
    have hall : ∀ t ∈ titles,
        ((property? t).all fun p => (abbreviate? p nestedPrefixes).isSome) = true := by
      decide +kernel
    simpa [hp] using hall t ht
  obtain ⟨context, hderive⟩ :=
    ((derive_prefixed_apart hmap).2 false titles hcovered).1.mpr (.inl rfl)
  obtain ⟨-, props, rest, rfl, -, hperm⟩ :=
    ((derive_prefixed_apart hmap).2 false titles hcovered).2 context hderive
  refine ⟨hmap, hcovered, props, rest, hderive, hperm.trans ?_⟩
  decide +kernel

end LinkedJson.Context
