import LinkedJson.Proofs.Context.Expansion

/-!
Words that a context may not define, and the properties that take them for their keys.

A prefixed name is never such a word, and no prefix is added that is empty. So it is the local names
that decide: a property takes a reserved word exactly if its IRI is empty or ends in a keyword.
-/

namespace LinkedJson.Context

open LinkedJson.Rdf
open LinkedJson.Iri (Parted bestBinding?)

/-- The words that have a meaning of their own in every document. -/
def keywords : List String :=
  ["@base", "@container", "@context", "@direction", "@graph", "@id", "@import", "@included",
    "@index", "@json", "@language", "@list", "@nest", "@none", "@prefix", "@propagate",
    "@protected", "@reverse", "@set", "@type", "@value", "@version", "@vocab"]

def Reserved (key : String) : Prop := key = "" ∨ key ∈ keywords

instance (key : String) : Decidable (Reserved key) := inferInstanceAs (Decidable (_ ∨ _))

/-- A property whose key is a reserved word: the empty IRI, or one that has a keyword for its local
name and no prefixed name. -/
inductive TakesReserved (preferPrefixed : Bool) (prefixes : Entries String) :
    String → String → Prop
  | empty : TakesReserved preferPrefixed prefixes "" ""
  | keyword {p ns word : String} (h : Parted p ns word) (hword : word ∈ keywords)
    (hname : preferPrefixed = true → bestBinding? p prefixes = none) :
    TakesReserved preferPrefixed prefixes p word

/-! ### The keys of a context -/

variable {preferPrefixed : Bool} {prefixes : Entries String}

lemma mem_keys_addPrefixes {context : Json.Object} {k : String} :
    k ∈ Entries.keys (addPrefixes context prefixes) ↔
      k ∈ Entries.keys context ∨ k ∈ Entries.keys prefixes ∧ k ≠ "" := by
  have hnamed : k ∈ Entries.keys (namedPrefixes prefixes) ↔
      k ∈ Entries.keys prefixes ∧ k ≠ "" := by
    simp only [namedPrefixes, Entries.keys, List.map_map, List.mem_map, List.mem_filter,
      Function.comp_apply]
    constructor
    · rintro ⟨b, ⟨hb, hne⟩, rfl⟩
      exact ⟨⟨b, hb, rfl⟩, by simpa using hne⟩
    · rintro ⟨⟨b, hb, rfl⟩, hne⟩
      exact ⟨b, ⟨hb, by simpa using hne⟩, rfl⟩
  rw [← hnamed, ← Entries.has_eq_true_iff, ← Entries.has_eq_true_iff, ← Entries.has_eq_true_iff,
    Entries.has, find?_addPrefixes, Option.isSome_or, Bool.or_eq_true]
  rfl

/-- The keys of a context are those of the properties, and the prefixes that are not empty. -/
lemma mem_keys_of_derive {options : Options} {triples : List Triple} {context : Json.Object}
    (h : derive options prefixes triples = .ok context) (k : String) :
    k ∈ Entries.keys context ↔ k ∈ propertyKeys options.preferPrefixed prefixes triples ∨
      k ∈ Entries.keys prefixes ∧ k ≠ "" := by
  obtain ⟨ordered, hperm, rfl⟩ := exists_perm_of_derive h
  simp only [mem_keys_addPrefixes, mem_keys_terms, mem_propertyKeys, hperm.mem_iff]

/-! ### Reserved words -/

lemma no_separator_of_keyword {word : String} (h : word ∈ keywords) :
    word ≠ "" ∧ ':' ∉ word.toList ∧ '#' ∉ word.toList ∧ '/' ∉ word.toList := by
  have hall : ∀ w ∈ keywords,
      w ≠ "" ∧ ':' ∉ w.toList ∧ '#' ∉ w.toList ∧ '/' ∉ w.toList := by decide
  exact hall word h

/-- A prefixed name has a colon, as no reserved word has. -/
lemma not_reserved_of_binding {p : String} {b : String × String}
    (h : bestBinding? p prefixes = some b) : ¬ Reserved (propertyKey true prefixes p) := by
  obtain ⟨name, -, habbreviate⟩ := Iri.abbreviate?_of_bestBinding? h
  have hcolon : ':' ∈ (propertyKey true prefixes p).toList := by
    simp [propertyKey, habbreviate]
  rintro (hempty | hword)
  · rw [hempty] at hcolon
    simp at hcolon
  · exact (no_separator_of_keyword hword).2.1 hcolon

/-- Nothing abbreviates the empty IRI. -/
lemma bestBinding?_empty : bestBinding? "" prefixes = none := by
  rcases h : bestBinding? "" prefixes with _ | b
  · rfl
  · obtain ⟨name, hlongest⟩ := Iri.longest_of_bestBinding? h
    have hiri := hlongest.usable.iri_eq
    exact absurd (String.append_eq_empty_iff.mp hiri.symm).1 hlongest.usable.bound

/-- The properties with a reserved key are those that take it. -/
lemma propertyKey_eq_iff_takesReserved {p k : String} (hk : Reserved k) :
    propertyKey preferPrefixed prefixes p = k ↔ TakesReserved preferPrefixed prefixes p k := by
  constructor
  · intro hkey
    have hname : preferPrefixed = true → bestBinding? p prefixes = none := by
      rintro rfl
      rcases hb : bestBinding? p prefixes with _ | b
      · rfl
      · exact absurd (hkey ▸ hk) (not_reserved_of_binding hb)
    rw [propertyKey_eq_localName hname] at hkey
    rcases hk with rfl | hword
    · rw [Iri.localName_eq_empty_iff.mp hkey]
      exact .empty
    · obtain ⟨hne, -, hmark, hslash⟩ := no_separator_of_keyword hword
      obtain ⟨ns, hparted⟩ := (Iri.localName_eq_iff hne hmark hslash).mp hkey
      exact .keyword hparted hword hname
  · intro htakes
    cases htakes with
    | empty =>
      rw [propertyKey_eq_localName fun _ => bestBinding?_empty, Iri.localName_eq_empty_iff]
    | keyword hparted hword hname =>
      obtain ⟨hne, -, hmark, hslash⟩ := no_separator_of_keyword hword
      rw [propertyKey_eq_localName hname, Iri.localName_eq_iff hne hmark hslash]
      exact ⟨_, hparted⟩

/-- **Where a context defines a reserved word**: its keys are those of the properties and the
prefixes that are not empty, and a property of the triples has a reserved word for its key exactly
if its IRI is empty, or ends in a keyword and has no prefixed name. -/
theorem reserved_mem_propertyKeys_iff {options : Options} {triples : List Triple}
    {context : Json.Object} (h : derive options prefixes triples = .ok context) :
    (∀ k, k ∈ Entries.keys context ↔ k ∈ propertyKeys options.preferPrefixed prefixes triples ∨
      k ∈ Entries.keys prefixes ∧ k ≠ "") ∧
    ∀ k, Reserved k → (k ∈ propertyKeys options.preferPrefixed prefixes triples ↔
      ∃ t ∈ triples, ∃ p, property? t = some p ∧
        TakesReserved options.preferPrefixed prefixes p k) := by
  refine ⟨mem_keys_of_derive h, fun k hk => ?_⟩
  simp only [mem_propertyKeys, propertyKey_eq_iff_takesReserved hk]

def reservedPrefixes : Entries String :=
  [("", "http://other.org/vocab#"), ("ex", "http://example.org/")]

/-- A prefixed name keeps a property from a keyword; the empty prefix, which is left out, does
not. -/
theorem reserved_mem_propertyKeys_iff_typed :
    let triples := described ["http://example.org/@type", "http://other.org/vocab#@id"]
    ∃ context, derive ⟨true, false⟩ reservedPrefixes triples = .ok context ∧
      "" ∉ Entries.keys context ∧ "@type" ∉ propertyKeys true reservedPrefixes triples ∧
      "@id" ∈ propertyKeys true reservedPrefixes triples := by
  intro triples
  obtain ⟨hkeys, hreserved⟩ := reserved_mem_propertyKeys_iff
    (show derive ⟨true, false⟩ reservedPrefixes triples = .ok _ from rfl)
  refine ⟨_, rfl, ?_, by decide +kernel, ?_⟩
  · rw [hkeys ""]
    rintro (hproperty | ⟨-, hne⟩)
    · exact absurd hproperty (by decide +kernel)
    · exact hne rfl
  · refine (hreserved "@id" (by decide)).mpr
      ⟨triples[1], by simp, "http://other.org/vocab#@id", by decide +kernel, ?_⟩
    have hiri : "http://other.org/vocab#@id" = "http://other.org/vocab" ++ "#" ++ "@id" := by
      decide +kernel
    have hparted : Parted ("http://other.org/vocab" ++ "#" ++ "@id") _ "@id" :=
      .fragment "http://other.org/vocab" (by decide)
    rw [← hiri] at hparted
    exact .keyword hparted (by decide) fun _ => by decide +kernel

def KeysAllowed (options : Options) (prefixes : Entries String) (triples : List Triple) : Prop :=
  ∀ context, derive options prefixes triples = .ok context →
    (∀ k ∈ propertyKeys options.preferPrefixed prefixes triples, ¬ Reserved k) ∧
      ∀ k ∈ Entries.keys context, k ∉ propertyKeys options.preferPrefixed prefixes triples → k ≠ ""

/-- The empty IRI is its own key, and the last part of a path may be a keyword. -/
theorem not_keysAllowed :
    ¬ KeysAllowed ⟨false, false⟩ [] (described [""]) ∧
      ¬ KeysAllowed ⟨false, false⟩ [] (described ["http://example.org/@type"]) := by
  constructor
  · intro h
    exact (h _ rfl).1 "" (by decide +kernel) (by decide)
  · intro h
    exact (h _ rfl).1 "@type" (by decide +kernel) (by decide)

end LinkedJson.Context
