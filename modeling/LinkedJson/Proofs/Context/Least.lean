import LinkedJson.Proofs.Context.Expansion

/-!
Which definition wins when the triples are seen in the order of their texts.

The texts of literals come before those of IRIs, and these before those of blank nodes. So a key
goes to the least predicate that can have it, and is coerced to nodes only if that predicate has no
literal.
-/

namespace LinkedJson

namespace Rdf

def Term.isLiteral : Term → Bool
  | .literal _ _ => true
  | _ => false

def Term.text (t : Term) : String := t.text?.getD ""

lemma Term.text_eq {t : Term} {s : String} (h : t.text? = some s) : t.text = s := by
  rw [text, h]
  rfl

/-- Among the terms of RDF, the literals have the least texts. -/
lemma isLiteral_of_text_le {t u : Term} (ht : t.text?.isSome) (hu : u.text?.isSome)
    (hrdf : t.isRdf = true) (hliteral : u.isLiteral = true) (h : t.text ≤ u.text) :
    t.isLiteral = true := by
  obtain ⟨s, hs⟩ := Option.isSome_iff_exists.mp ht
  obtain ⟨r, hr⟩ := Option.isSome_iff_exists.mp hu
  rw [Term.text_eq hs, Term.text_eq hr] at h
  by_contra hnot
  have hmark : u.mark < t.mark := by
    cases u with
    | literal =>
      cases t with
      | iri => exact (by decide : '"' < '<')
      | blank => exact (by decide : '"' < '_')
      | literal => exact absurd rfl hnot
      | var | formula => cases hrdf
    | _ => cases hliteral
  exact absurd h (not_le.mpr (lt_of_head_lt (head?_of_text? hr) (head?_of_text? hs) hmark))

end Rdf

section Sorting

variable {α γ : Type} [LinearOrder γ] (f : α → γ)

lemma decide_le_trans (a b c : α) (hab : decide (f a ≤ f b) = true)
    (hbc : decide (f b ≤ f c) = true) : decide (f a ≤ f c) = true := by
  rw [decide_eq_true_eq] at hab hbc ⊢
  exact hab.trans hbc

lemma decide_le_total (a b : α) : (decide (f a ≤ f b) || decide (f b ≤ f a)) = true := by
  simpa using le_total (f a) (f b)

lemma pairwise_mergeSort_le (l : List α) :
    (l.mergeSort fun a b => f a ≤ f b).Pairwise fun a b => f a ≤ f b :=
  (List.pairwise_mergeSort (decide_le_trans f) (decide_le_total f) l).imp of_decide_eq_true

/-- A stable sort keeps the order of what it does not tell apart. -/
lemma filter_mergeSort (c : γ) (l : List α) :
    (l.mergeSort fun a b => f a ≤ f b).filter (f · = c) = l.filter (f · = c) := by
  have htied : (l.filter (f · = c)).Pairwise fun a b => decide (f a ≤ f b) = true := by
    refine List.pairwise_of_forall_mem_list fun a ha b hb => ?_
    have ha : f a = c := by simpa using (List.mem_filter.mp ha).2
    have hb : f b = c := by simpa using (List.mem_filter.mp hb).2
    simp [ha, hb]
  have hsub := (List.sublist_mergeSort (decide_le_trans f) (decide_le_total f) htied
    List.filter_sublist).filter (f · = c)
  simp only [List.filter_filter, Bool.and_self] at hsub
  exact (hsub.eq_of_length ((List.mergeSort_perm l _).filter _).length_eq.symm).symm

end Sorting

namespace Context

open LinkedJson.Rdf

/-- By what a triple is placed among those of its predicate: its object, then its subject. -/
def place (t : Triple) : String ×ₗ String := toLex (t.object.text, t.subject.text)

def placing (t : Triple) : String ×ₗ String ×ₗ String := toLex (t.predicate.text, place t)

/-- The literal of a predicate with the least text; of several with one text, that of the least
subject, and of these the first. -/
inductive Foremost (p : String) : List Triple → Triple → Prop
  | mk {before after : List Triple} {t : Triple} (hp : t.predicate = .iri p)
    (ho : t.object.isLiteral = true)
    (hbefore : ∀ u ∈ before, u.predicate = .iri p → u.object.isLiteral = true → place t < place u)
    (hafter : ∀ u ∈ after, u.predicate = .iri p → u.object.isLiteral = true →
      place t ≤ place u) : Foremost p (before ++ t :: after) t

variable {preferPrefixed : Bool} {prefixes : Entries String} {triples : List Triple}

variable (preferPrefixed prefixes triples) in
def Candidate (k p : String) : Prop :=
  propertyKey preferPrefixed prefixes p = k ∧ ∃ t ∈ triples, property? t = some p

/-! ### The order of the triples -/

lemma parts_eq_placing {t : Triple} {k : SortKey} (h : SortKey.of t = .ok k) :
    k.parts = placing t := by
  obtain ⟨hp, ho, hs⟩ := SortKey.of_eq_ok_iff.mp h
  rw [placing, place, Term.text_eq hp, Term.text_eq ho, Term.text_eq hs]
  rfl

lemma sorted_eq_mergeSort (h : ∀ t ∈ triples, HasTexts t) :
    sorted triples = .ok (triples.mergeSort fun t u => placing t ≤ placing u) := by
  obtain ⟨keyed, hkeyed, hmap, hof⟩ := mapM_keyed h
  have hle : ∀ a ∈ keyed, ∀ b ∈ keyed, a.1.le b.1 = decide (placing a.2 ≤ placing b.2) := by
    intro a ha b hb
    rw [Bool.eq_iff_iff, SortKey.le_iff, parts_eq_placing (hof a ha), parts_eq_placing (hof b hb),
      decide_eq_true_eq]
  rw [sorted, hkeyed, ← hmap, ← List.map_mergeSort hle]
  rfl

lemma placing_le_iff {t u : Triple} : placing t ≤ placing u ↔
    t.predicate.text < u.predicate.text ∨
      t.predicate.text = u.predicate.text ∧ place t ≤ place u :=
  Prod.Lex.toLex_le_toLex

lemma predicate_le_of_placing_le {t u : Triple} (h : placing t ≤ placing u) :
    t.predicate.text ≤ u.predicate.text := by
  rcases placing_le_iff.mp h with hlt | ⟨heq, -⟩
  · exact hlt.le
  · exact heq.le

lemma placing_le_iff_of_predicate {t u : Triple} (h : t.predicate = u.predicate) :
    placing t ≤ placing u ↔ place t ≤ place u := by
  simp [placing_le_iff, h]

lemma object_le_of_place_le {t u : Triple} (h : place t ≤ place u) :
    t.object.text ≤ u.object.text := by
  rcases Prod.Lex.toLex_le_toLex.mp h with hlt | ⟨heq, -⟩
  · exact hlt.le
  · exact heq.le

/-! ### The triple that defines a key -/

structure Winner (preferPrefixed : Bool) (prefixes : Entries String) (triples : List Triple)
    (k p : String) (t : Triple) : Prop where
  mem : t ∈ triples
  property : property? t = some p
  key : propertyKey preferPrefixed prefixes p = k
  le : ∀ u ∈ triples, ∀ q, property? u = some q → propertyKey preferPrefixed prefixes q = k →
    placing t ≤ placing u
  /-- Of the triples with its texts that can define its predicate it is the first. -/
  first : ∃ before after, triples = before ++ t :: after ∧
    ∀ u ∈ before, property? u = some p → placing u ≠ placing t

lemma exists_winner {k : String} {d : Json}
    (h : Entries.find? (terms preferPrefixed prefixes
      (triples.mergeSort fun t u => placing t ≤ placing u)) k = some d) :
    ∃ t p, Winner preferPrefixed prefixes triples k p t ∧ definition? p t.object = some d := by
  obtain ⟨before, t, after, p, hsorted, hp, hk, hd, hbefore⟩ :=
    (find?_terms_eq_some_iff preferPrefixed prefixes).mp h
  have hmem (u : Triple) : u ∈ triples ↔ u ∈ before ++ t :: after := by
    rw [← hsorted, List.mem_mergeSort]
  have hpairs := pairwise_mergeSort_le placing triples
  rw [hsorted, List.pairwise_append, List.pairwise_cons] at hpairs
  refine ⟨t, p, ⟨(hmem t).mpr (by simp), hp, hk, fun u hu q hq hqk => ?_, ?_⟩, hd⟩
  · rcases List.mem_append.mp ((hmem u).mp hu) with hu | hu
    · exact absurd hqk (hbefore u hu q hq)
    · rcases List.mem_cons.mp hu with rfl | hu
      · exact le_rfl
      · exact hpairs.2.1.1 u hu
  · -- triples with the same texts stand in the sorted list as they stand in the given one
    have hties := (filter_mergeSort placing (placing t) triples).symm
    rw [hsorted, List.filter_append, List.filter_cons_of_pos (by simp)] at hties
    obtain ⟨l₁, l₂, rfl, hl₁, hl₂⟩ := List.filter_eq_append_iff.mp hties
    obtain ⟨m₁, m₂, rfl, hm₁, -, -⟩ := List.filter_eq_cons_iff.mp hl₂
    refine ⟨l₁ ++ m₁, m₂, by simp, fun u hu hup hplacing => ?_⟩
    rcases List.mem_append.mp hu with hu | hu
    · have hfilter : u ∈ before.filter (placing · = placing t) := by
        rw [← hl₁, List.mem_filter]
        exact ⟨hu, by simpa using hplacing⟩
      exact hbefore u (List.mem_filter.mp hfilter).1 p hup hk
    · exact hm₁ u hu (by simpa using hplacing)

namespace Winner

variable {k p : String} {t : Triple} (h : Winner preferPrefixed prefixes triples k p t)

include h

lemma predicate_eq : t.predicate = .iri p := (property?_eq_some_iff.mp h.property).1

lemma candidate : Candidate preferPrefixed prefixes triples k p := ⟨h.key, t, h.mem, h.property⟩

lemma text_le {q : String} (hq : Candidate preferPrefixed prefixes triples k q) :
    (Term.iri p).text ≤ (Term.iri q).text := by
  obtain ⟨hkey, u, hu, hproperty⟩ := hq
  have hle := predicate_le_of_placing_le (h.le u hu q hproperty hkey)
  rwa [h.predicate_eq, (property?_eq_some_iff.mp hproperty).1] at hle

lemma property?_of_isLiteral {u : Triple} (hp : u.predicate = .iri p)
    (ho : u.object.isLiteral = true) : property? u = some p := by
  refine property?_eq_some_iff.mpr ⟨hp, (property?_eq_some_iff.mp h.property).2.1, ?_⟩
  revert ho
  cases u.object <;> simp [Term.isLiteral, Term.isRdf]

lemma place_le {u : Triple} (hu : u ∈ triples) (hp : u.predicate = .iri p)
    (ho : u.object.isLiteral = true) : place t ≤ place u := by
  rw [← placing_le_iff_of_predicate (h.predicate_eq.trans hp.symm)]
  exact h.le u hu p (h.property?_of_isLiteral hp ho) h.key

/-- If the predicate has a literal, it is a literal that wins. -/
lemma isLiteral_object (htexts : ∀ t ∈ triples, HasTexts t) {u : Triple} (hu : u ∈ triples)
    (hp : u.predicate = .iri p) (ho : u.object.isLiteral = true) : t.object.isLiteral = true := by
  have htext (v : Triple) (hv : v ∈ triples) : v.object.text?.isSome :=
    (hasTexts_iff.mp (htexts v hv)).2.1
  exact isLiteral_of_text_le (htext t h.mem) (htext u hu) (property?_eq_some_iff.mp h.property).2.2
    ho (object_le_of_place_le (h.place_le hu hp ho))

lemma foremost (ho : t.object.isLiteral = true) : Foremost p triples t := by
  obtain ⟨before, after, heq, hfirst⟩ := h.first
  have hmem (u : Triple) : u ∈ before ++ t :: after → u ∈ triples := by
    rw [← heq]
    exact id
  rw [heq]
  refine .mk h.predicate_eq ho (fun u hu hp hlit => ?_) (fun u hu hp hlit => ?_)
  · have hle := h.place_le (hmem u (by simp [hu])) hp hlit
    refine lt_of_le_of_ne hle fun hplace => ?_
    refine hfirst u hu (h.property?_of_isLiteral hp hlit) ?_
    rw [placing, placing, hplace, hp, h.predicate_eq]
  · exact h.place_le (hmem u (by simp [hu])) hp hlit

end Winner

/-- The definition that a key has: that of the least predicate which can have the key, and of the
foremost literal of that predicate if there is one. -/
structure Wins (preferPrefixed : Bool) (prefixes : Entries String) (triples : List Triple)
    (k : String) (d : Json) (p : String) : Prop where
  iri : iriOf? d = some p
  candidate : Candidate preferPrefixed prefixes triples k p
  least : ∀ q, Candidate preferPrefixed prefixes triples k q →
    (Term.iri p).text ≤ (Term.iri q).text
  node_iff : d = coerced p "@id" ↔
    ∀ t ∈ triples, t.predicate = .iri p → t.object.isLiteral = false
  literal : (∃ t ∈ triples, t.predicate = .iri p ∧ t.object.isLiteral = true) →
    ∃ t, Foremost p triples t ∧ definition? p t.object = some d

lemma definition?_of_not_isLiteral {p : String} {o : Term} (hrdf : o.isRdf = true)
    (ho : o.isLiteral = false) : definition? p o = some (coerced p "@id") := by
  cases o with
  | iri | blank => rfl
  | literal => cases ho
  | var | formula => cases hrdf

/-- A literal is not coerced to nodes, unless its own datatype says so. -/
lemma definition?_ne_of_isLiteral {p : String} {o : Term} (ho : o.isLiteral = true)
    (hid : ∀ lexical, o ≠ .literal lexical (.datatype "@id")) :
    definition? p o ≠ some (coerced p "@id") := by
  cases o with
  | literal lexical q =>
    have hbare : some (Json.str p) ≠ some (coerced p "@id") := by simp [coerced]
    cases q with
    | plain | language => exact hbare
    | datatype d =>
      have hd : d ≠ "@id" := fun h => hid lexical (by rw [h])
      rw [definition?]
      split
      · exact hbare
      · simp [hd]
  | _ => cases ho

lemma Winner.wins {k p : String} {t : Triple} {d : Json}
    (h : Winner preferPrefixed prefixes triples k p t) (hd : definition? p t.object = some d)
    (htexts : ∀ t ∈ triples, HasTexts t)
    (hid : ∀ t ∈ triples, ∀ lexical, t.object ≠ .literal lexical (.datatype "@id")) :
    Wins preferPrefixed prefixes triples k d p where
  iri := iriOf?_of_definition? hd
  candidate := h.candidate
  least _ hq := h.text_le hq
  node_iff := by
    constructor
    · rintro rfl u hu hp
      by_contra hlit
      rw [Bool.not_eq_false] at hlit
      exact definition?_ne_of_isLiteral (h.isLiteral_object htexts hu hp hlit) (hid t h.mem) hd
    · intro hnone
      have ho := hnone t h.mem h.predicate_eq
      rw [definition?_of_not_isLiteral (property?_eq_some_iff.mp h.property).2.2 ho] at hd
      exact (Option.some.inj hd).symm
  literal := by
    rintro ⟨u, hu, hp, hlit⟩
    exact ⟨t, h.foremost (h.isLiteral_object htexts hu hp hlit), hd⟩

/-! ### The context -/

lemma property?_of_offer? {t : Triple} {k p : String} {d : Json}
    (h : offer? preferPrefixed prefixes t = some (k, d)) (hd : iriOf? d = some p) :
    property? t = some p ∧ propertyKey preferPrefixed prefixes p = k := by
  obtain ⟨q, hq, hk, hdef⟩ := offer?_eq_some_iff.mp h
  obtain rfl : q = p := Option.some.inj ((iriOf?_of_definition? hdef).symm.trans hd)
  exact ⟨hq, hk⟩

/-- The terms stand in the order of the texts of their IRIs. -/
lemma pairwise_terms (htexts : ∀ t ∈ triples, HasTexts t) :
    (terms preferPrefixed prefixes
      (triples.mergeSort fun t u => placing t ≤ placing u)).Pairwise fun a b =>
        ∀ p q, iriOf? a.2 = some p → iriOf? b.2 = some q →
          (Term.iri p).text < (Term.iri q).text := by
  set ordered := triples.mergeSort fun t u => placing t ≤ placing u
  set offered := ordered.filterMap (offer? preferPrefixed prefixes)
  have hsub : (terms preferPrefixed prefixes ordered).Sublist offered := by
    obtain ⟨added, hadded, hsub⟩ := Entries.exists_addNew_eq_append [] offered
    rwa [terms_eq_addNew, hadded, List.nil_append]
  have hoffered {k p : String} {d : Json} (he : (k, d) ∈ offered) (hd : iriOf? d = some p) :
      propertyKey preferPrefixed prefixes p = k ∧ ∃ s, (Term.iri p).text? = some s := by
    obtain ⟨t, ht, hoffer⟩ := List.mem_filterMap.mp he
    obtain ⟨hproperty, hk⟩ := property?_of_offer? hoffer hd
    have htext := (hasTexts_iff.mp (htexts t (List.mem_mergeSort.mp ht))).1
    rw [(property?_eq_some_iff.mp hproperty).1] at htext
    exact ⟨hk, Option.isSome_iff_exists.mp htext⟩
  have hle : offered.Pairwise fun a b => ∀ p q, iriOf? a.2 = some p → iriOf? b.2 = some q →
      (Term.iri p).text ≤ (Term.iri q).text := by
    refine List.pairwise_filterMap.mpr ((pairwise_mergeSort_le placing triples).imp fun {t u} h => ?_)
    rintro ⟨k, d⟩ hd ⟨l, e⟩ he p q hp hq
    have htext := predicate_le_of_placing_le h
    rwa [(property?_eq_some_iff.mp (property?_of_offer? hd hp).1).1,
      (property?_eq_some_iff.mp (property?_of_offer? he hq).1).1] at htext
  have hkeys := List.pairwise_map.mp (nodup_keys_terms preferPrefixed prefixes ordered)
  refine ((hle.sublist hsub).and hkeys).imp_of_mem fun {a b} ha hb h p q hp hq => ?_
  refine lt_of_le_of_ne (h.1 p q hp hq) fun htext => h.2 ?_
  -- with one text the two would be one IRI, and so have one key
  obtain ⟨hka, s, hs⟩ := hoffered (hsub.subset ha) hp
  obtain ⟨hkb, r, hr⟩ := hoffered (hsub.subset hb) hq
  rw [Term.text_eq hs, Term.text_eq hr] at htext
  obtain rfl : q = p := Term.iri.inj (eq_iri_of_text? hs (htext ▸ hr))
  exact hka.symm.trans hkb

/-- **The least predicate wins its key**: a context derived in the order of the texts defines each
property key by the least predicate that can have it, and coerces it to nodes exactly if this
predicate has no literal, and else as the foremost of its literals says. The property keys stand in
the order of their predicates. -/
theorem derive_sorted_least (htexts : ∀ t ∈ triples, HasTexts t)
    (hid : ∀ t ∈ triples, ∀ lexical, t.object ≠ .literal lexical (.datatype "@id")) :
    ∃ props rest : Json.Object,
      derive ⟨preferPrefixed, true⟩ prefixes triples = .ok (props ++ rest) ∧
      (Entries.keys (props ++ rest)).Nodup ∧
      (∀ k, k ∈ Entries.keys props ↔ k ∈ propertyKeys preferPrefixed prefixes triples) ∧
      (∀ k d, (k, d) ∈ props → ∃ p, Wins preferPrefixed prefixes triples k d p) ∧
      props.Pairwise fun a b => ∀ p q, iriOf? a.2 = some p → iriOf? b.2 = some q →
        (Term.iri p).text < (Term.iri q).text := by
  set ordered := triples.mergeSort fun t u => placing t ≤ placing u
  have hnodup := nodup_keys_terms preferPrefixed prefixes ordered
  obtain ⟨rest, hrest, -⟩ := Entries.exists_addNew_eq_append
    (terms preferPrefixed prefixes ordered) (namedPrefixes prefixes)
  rw [← addPrefixes_eq_addNew] at hrest
  refine ⟨terms preferPrefixed prefixes ordered, rest, ?_, ?_, fun k => ?_, fun k d hd => ?_,
    pairwise_terms htexts⟩
  · rw [derive_eq_ok preferPrefixed prefixes (sorted_eq_mergeSort htexts), hrest]
  · rw [← hrest]
    exact nodup_keys_addPrefixes prefixes hnodup
  · simp only [mem_keys_terms, mem_propertyKeys, ordered, List.mem_mergeSort]
  · obtain ⟨t, p, hwinner, hdef⟩ := exists_winner ((Entries.find?_eq_some_iff hnodup).mpr hd)
    exact ⟨p, hwinner.wins hdef htexts hid⟩

/-- Two predicates that share a key, of which the lesser has a node and a literal. -/
def relatedTwice : List Triple :=
  ⟨.iri "http://example.org/Alice", .iri "http://other.org/related", .blank "b"⟩ :: related "en"

theorem derive_sorted_least_related : (∀ t ∈ relatedTwice, HasTexts t) ∧
    (∀ t ∈ relatedTwice, ∀ lexical, t.object ≠ .literal lexical (.datatype "@id")) ∧
    ∃ context d, derive ⟨false, true⟩ [] relatedTwice = .ok context ∧
      Entries.find? context "related" = some d ∧
      iriOf? d = some "http://example.org/related" ∧
      d ≠ coerced "http://example.org/related" "@id" := by
  have htexts : ∀ t ∈ relatedTwice, HasTexts t := by
    simp only [hasTexts_iff]
    decide +kernel
  have hid : ∀ t ∈ relatedTwice, ∀ lexical, t.object ≠ .literal lexical (.datatype "@id") := by
    simp [relatedTwice, related]
  obtain ⟨props, rest, hderive, hnodup, hkeys, hwins, -⟩ :=
    @derive_sorted_least false [] _ htexts hid
  have hkey : "related" ∈ Entries.keys props := (hkeys _).mpr (by decide +kernel)
  obtain ⟨d, hd⟩ := Entries.exists_find? hkey
  obtain ⟨p, hw⟩ := hwins _ _ (Entries.mem_of_find? hd)
  have hcandidate : Candidate false [] relatedTwice "related" "http://example.org/related" :=
    ⟨by decide +kernel, relatedTwice[1], by simp [relatedTwice, related], by decide +kernel⟩
  have hp : p = "http://example.org/related" := by
    have hle := hw.least _ hcandidate
    obtain ⟨-, t, ht, hproperty⟩ := hw.candidate
    have hpredicates : ∀ u ∈ relatedTwice, u.predicate = .iri "http://other.org/related" ∨
        u.predicate = .iri "http://example.org/related" := by decide
    rcases hpredicates t ht with hu | hu <;>
      obtain rfl := Term.iri.inj ((property?_eq_some_iff.mp hproperty).1.symm.trans hu)
    · exact absurd hle (by decide +kernel)
    · rfl
  subst hp
  refine ⟨htexts, hid, _, d, hderive, ?_, hw.iri, fun hnode => ?_⟩
  · rw [Entries.find?_append, hd]
    rfl
  · exact absurd (hw.node_iff.mp hnode relatedTwice[2] (by simp [relatedTwice, related]) rfl)
      (by decide)

end Context

end LinkedJson
