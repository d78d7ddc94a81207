import LinkedJson.Proofs.Context.FirstSeen

/-!
What the order of the triples can change in a context.

A context is the same map for all orders of its triples exactly if the triples of each key define
it alike.
-/

namespace LinkedJson

def Rdf.Term.isNode : Rdf.Term → Bool
  | .iri _ | .blank _ => true
  | _ => false

def Rdf.Term.isText : Rdf.Term → Bool
  | .literal _ .plain | .literal _ (.language _) => true
  | .literal _ (.datatype d) => d = xsdString
  | _ => false

namespace Context

open LinkedJson.Rdf

/-- Both are contexts, and they hold the same of each key. -/
def SameMapping (r₁ r₂ : Except NoText Json.Object) : Prop :=
  ∃ c₁ c₂, r₁ = .ok c₁ ∧ r₂ = .ok c₂ ∧ ∀ k, Entries.find? c₁ k = Entries.find? c₂ k

variable (preferPrefixed : Bool) (prefixes : Entries String)

/-- The triples of each key define it alike. -/
def Unambiguous (triples : List Triple) : Prop :=
  ∀ k, ∀ t ∈ triples, ∀ u ∈ triples, ∀ p q, property? t = some p → property? u = some q →
    propertyKey preferPrefixed prefixes p = k → propertyKey preferPrefixed prefixes q = k →
    definition? p t.object = definition? q u.object

lemma definition?_of_isNode {o : Term} (h : o.isNode = true) (p : String) :
    definition? p o = some (coerced p "@id") := by
  cases o <;> simp_all [Term.isNode, definition?]

lemma definition?_of_isText {o : Term} (h : o.isText = true) (p : String) :
    definition? p o = some (.str p) := by
  rcases o with _ | _ | ⟨_, _ | d | _⟩ | _ | _ <;> simp_all [Term.isText, definition?]

variable {preferPrefixed prefixes}

/-- A key that all its triples define alike is defined so, whichever comes first. -/
lemma find?_terms_of_forall {triples : List Triple} {k : String} {d : Option Json}
    (hk : k ∈ Entries.keys (terms preferPrefixed prefixes triples))
    (h : ∀ t ∈ triples, ∀ p, property? t = some p → propertyKey preferPrefixed prefixes p = k →
      definition? p t.object = d) :
    Entries.find? (terms preferPrefixed prefixes triples) k = d := by
  obtain ⟨e, he⟩ := Entries.exists_find? hk
  obtain ⟨before, t, after, p, rfl, hp, hpk, hd, -⟩ :=
    (find?_terms_eq_some_iff preferPrefixed prefixes).mp he
  rw [he, ← hd]
  exact h t (by simp) p hp hpk

lemma mem_keys_terms_of_perm {l₁ l₂ : List Triple} (h : l₁.Perm l₂) {k : String} :
    k ∈ Entries.keys (terms preferPrefixed prefixes l₁) ↔
      k ∈ Entries.keys (terms preferPrefixed prefixes l₂) := by
  simp only [mem_keys_terms, h.mem_iff]

lemma find?_terms_of_perm {triples l : List Triple}
    (h : Unambiguous preferPrefixed prefixes triples) (hl : l.Perm triples) (k : String) :
    Entries.find? (terms preferPrefixed prefixes l) k =
      Entries.find? (terms preferPrefixed prefixes triples) k := by
  by_cases hk : k ∈ Entries.keys (terms preferPrefixed prefixes triples)
  · obtain ⟨t, ht, p, hp, hpk⟩ := (mem_keys_terms preferPrefixed prefixes).mp hk
    have hall : ∀ u ∈ triples, ∀ q, property? u = some q →
        propertyKey preferPrefixed prefixes q = k →
        definition? q u.object = definition? p t.object :=
      fun u hu q hq hqk => h k u hu t ht q p hq hp hqk hpk
    rw [find?_terms_of_forall hk hall,
      find?_terms_of_forall ((mem_keys_terms_of_perm hl).mpr hk)
        fun u hu => hall u (hl.mem_iff.mp hu)]
  · rw [Entries.find?_eq_none_iff.mpr hk,
      Entries.find?_eq_none_iff.mpr (mt (mem_keys_terms_of_perm hl).mp hk)]

lemma find?_terms_cons {t : Triple} {p : String} (hp : property? t = some p)
    (rest : List Triple) :
    Entries.find? (terms preferPrefixed prefixes (t :: rest))
      (propertyKey preferPrefixed prefixes p) = definition? p t.object := by
  have hsome : (definition? p t.object).isSome := by
    rw [isSome_definition?]
    exact (property?_eq_some_iff.mp hp).2.2
  obtain ⟨d, hd⟩ := Option.isSome_iff_exists.mp hsome
  rw [hd, find?_terms_eq_some_iff]
  exact ⟨[], t, rest, p, rfl, hp, rfl, hd, by simp⟩

/-- Two triples of one key that can change places define it alike. -/
lemma unambiguous_of_sameMapping {triples : List Triple}
    (h : ∀ l₁ l₂ : List Triple, l₁.Perm triples → l₂.Perm triples →
      SameMapping (derive ⟨preferPrefixed, false⟩ prefixes l₁)
        (derive ⟨preferPrefixed, false⟩ prefixes l₂)) :
    Unambiguous preferPrefixed prefixes triples := by
  -- Each of the two is put in front of all others.
  rintro k t ht u hu p q hp hq rfl hqk
  obtain ⟨c₁, c₂, h₁, h₂, hsame⟩ := h _ _ (List.perm_cons_erase ht).symm
    (List.perm_cons_erase hu).symm
  obtain rfl : addPrefixes (terms preferPrefixed prefixes (t :: triples.erase t)) prefixes = c₁ :=
    Except.ok.inj h₁
  obtain rfl : addPrefixes (terms preferPrefixed prefixes (u :: triples.erase u)) prefixes = c₂ :=
    Except.ok.inj h₂
  have hkey := hsame (propertyKey preferPrefixed prefixes p)
  have hu' : Entries.find? (terms preferPrefixed prefixes (u :: triples.erase u))
      (propertyKey preferPrefixed prefixes q) = definition? q u.object := find?_terms_cons hq _
  rw [find?_addPrefixes, find?_addPrefixes, find?_terms_cons hp, ← hqk, hu'] at hkey
  have hd := isSome_definition? p t.object
  have he := isSome_definition? q u.object
  rw [(property?_eq_some_iff.mp hp).2.2] at hd
  rw [(property?_eq_some_iff.mp hq).2.2] at he
  rwa [Option.or_of_isSome hd, Option.or_of_isSome he] at hkey

variable (preferPrefixed prefixes)

/-- **Order of the triples**: a context is the same map for all orders exactly if no key is
ambiguous. So a predicate with a key of its own is coerced to nodes if all its objects are nodes,
and stands bare if they are all texts. -/
theorem sameMapping_iff_unambiguous (triples : List Triple) :
    ((∀ l₁ l₂ : List Triple, l₁.Perm triples → l₂.Perm triples →
      SameMapping (derive ⟨preferPrefixed, false⟩ prefixes l₁)
        (derive ⟨preferPrefixed, false⟩ prefixes l₂)) ↔
      Unambiguous preferPrefixed prefixes triples) ∧
    ∀ t ∈ triples, ∀ p, property? t = some p →
      (∀ u ∈ triples, ∀ q, property? u = some q →
        propertyKey preferPrefixed prefixes q = propertyKey preferPrefixed prefixes p → q = p) →
      ((∀ u ∈ triples, u.predicate = .iri p → u.object.isNode = true) →
        ∀ l : List Triple, l.Perm triples → ∃ context,
          derive ⟨preferPrefixed, false⟩ prefixes l = .ok context ∧
          Entries.find? context (propertyKey preferPrefixed prefixes p) =
            some (coerced p "@id")) ∧
      ((∀ u ∈ triples, u.predicate = .iri p → u.object.isText = true) →
        ∀ l : List Triple, l.Perm triples → ∃ context,
          derive ⟨preferPrefixed, false⟩ prefixes l = .ok context ∧
          Entries.find? context (propertyKey preferPrefixed prefixes p) = some (.str p)) := by
  refine ⟨⟨unambiguous_of_sameMapping, fun h l₁ l₂ h₁ h₂ => ⟨_, _, rfl, rfl, fun k => ?_⟩⟩,
    fun t ht p hp hown => ?_⟩
  · rw [find?_addPrefixes, find?_addPrefixes, find?_terms_of_perm h h₁, find?_terms_of_perm h h₂]
  · have key (d : Json)
        (hd : ∀ u ∈ triples, u.predicate = .iri p → definition? p u.object = some d)
        (l : List Triple) (hl : l.Perm triples) : ∃ context,
          derive ⟨preferPrefixed, false⟩ prefixes l = .ok context ∧
          Entries.find? context (propertyKey preferPrefixed prefixes p) = some d := by
      refine ⟨_, rfl, ?_⟩
      have hmem : propertyKey preferPrefixed prefixes p ∈
          Entries.keys (terms preferPrefixed prefixes l) :=
        (mem_keys_terms preferPrefixed prefixes).mpr ⟨t, hl.mem_iff.mpr ht, p, hp, rfl⟩
      have hfind : Entries.find? (terms preferPrefixed prefixes l)
          (propertyKey preferPrefixed prefixes p) = some d := by
        refine find?_terms_of_forall hmem fun u hu q hq hqk => ?_
        obtain rfl := hown u (hl.mem_iff.mp hu) q hq hqk
        exact hd u (hl.mem_iff.mp hu) (property?_eq_some_iff.mp hq).1
      rw [find?_addPrefixes, hfind]
      rfl
    exact ⟨fun hnode => key _ fun u hu hup => definition?_of_isNode (hnode u hu hup) p,
      fun htext => key _ fun u hu hup => definition?_of_isText (htext u hu hup) p⟩

/-- One predicate with an IRI and a blank node for its objects, and one with a text. -/
def acquaintances : List Triple := [
  ⟨.iri "http://example.org/Alice", .iri "http://example.org/knows", .iri "http://o.org/Bob"⟩,
  ⟨.iri "http://example.org/Alice", .iri "http://example.org/nick", .literal "al" .plain⟩,
  ⟨.iri "http://example.org/Alice", .iri "http://example.org/knows", .blank "b"⟩]

/-- The titles have one key and two definitions; the acquaintances are nodes in any order. -/
theorem sameMapping_iff_unambiguous_samples :
    (¬ ∀ l₁ l₂ : List Triple, l₁.Perm titles → l₂.Perm titles →
      SameMapping (derive ⟨false, false⟩ [] l₁) (derive ⟨false, false⟩ [] l₂)) ∧
    ∃ context, derive ⟨false, false⟩ [] acquaintances.reverse = .ok context ∧
      Entries.find? context "knows" = some (coerced "http://example.org/knows" "@id") := by
  have hkey : propertyKey false [] "http://example.org/knows" = "knows" := by decide +kernel
  constructor
  · rw [(sameMapping_iff_unambiguous false [] titles).1]
    intro h
    have hdef := h "title" titles[1] (by simp [titles]) titles[2] (by simp [titles])
      "http://example.org/title" "http://other.org/vocab#title" (by decide +kernel)
      (by decide +kernel) (by decide +kernel) (by decide +kernel)
    simp [titles, definition?, coerced] at hdef
  · rw [← hkey]
    exact ((sameMapping_iff_unambiguous false [] acquaintances).2 acquaintances[0]
      (by simp [acquaintances]) "http://example.org/knows" (by decide +kernel)
      (by decide +kernel)).1 (by decide +kernel) _ (List.reverse_perm _)

end Context

end LinkedJson
