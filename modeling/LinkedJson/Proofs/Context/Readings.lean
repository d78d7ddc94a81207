import LinkedJson.Proofs.Context.Sorted

/-!
Contexts derived from two readings of one document.

Each reading makes up labels for the blank nodes, and it may list the triples in an order of its
own. The labels count for nothing in a context, and where the triples are sorted the order of the
reading does not, either.
-/

namespace LinkedJson

namespace Rdf

def Triple.unlabelled (t : Triple) : Triple :=
  ⟨t.subject.unlabelled, t.predicate.unlabelled, t.object.unlabelled⟩

lemma unlabelled_eq_iri_iff {t : Term} {p : String} : t.unlabelled = .iri p ↔ t = .iri p := by
  cases t with
  | formula name =>
    rw [unlabelled_formula]
    split <;> simp
  | _ => simp [Term.unlabelled]

lemma isRdf_unlabelled (t : Term) : t.unlabelled.isRdf = t.isRdf := by
  cases t with
  | formula name =>
    rw [unlabelled_formula]
    split <;> rfl
  | _ => rfl

lemma bare_unlabelled (t : Term) : t.unlabelled.bare = t.bare := by
  cases t with
  | formula name =>
    have hbare (name : String) : (Term.formula name).bare = (Term.formula name).unlabelled := rfl
    rw [unlabelled_formula]
    split
    · next h =>
      rw [hbare, hbare, unlabelled_formula name, if_pos h]
      rfl
    · rfl
  | _ => rfl

end Rdf

namespace Context

open LinkedJson.Rdf

lemma property?_unlabelled (t : Triple) : property? t.unlabelled = property? t := by
  ext p
  rw [property?_eq_some_iff, property?_eq_some_iff, Triple.unlabelled, unlabelled_eq_iri_iff,
    isRdf_unlabelled]

lemma rank_unlabelled {t : Triple} {p : String} (h : property? t = some p) :
    rank t.unlabelled = rank t := by
  have hp := (property?_eq_some_iff.mp h).1
  rw [rank, rank, Triple.unlabelled, unlabelled_eq_iri_iff.mpr hp, hp, bare_unlabelled]

lemma noEmptyDatatype_unlabelled {t : Triple} :
    NoEmptyDatatype t.unlabelled ↔ NoEmptyDatatype t := by
  refine forall_congr' fun lexical => not_congr ?_
  rw [← bare_eq_emptyDatatype_iff, Triple.unlabelled, bare_unlabelled, bare_eq_emptyDatatype_iff]

lemma hasTexts_unlabelled {t : Triple} : HasTexts t.unlabelled ↔ HasTexts t := by
  rw [hasTexts_iff, hasTexts_iff, Triple.unlabelled, isSome_text?_unlabelled,
    isSome_text?_unlabelled, isSome_text?_unlabelled]

lemma ranks_unlabelled (triples : List Triple) :
    (defining (triples.map Triple.unlabelled)).map rank = (defining triples).map rank := by
  have hdefining : defining (triples.map Triple.unlabelled) =
      (defining triples).map Triple.unlabelled := by
    rw [defining, List.filter_map, defining]
    congr 2
    funext t
    exact congrArg Option.isSome (property?_unlabelled t)
  rw [hdefining, List.map_map]
  refine List.map_congr_left fun t ht => ?_
  obtain ⟨-, p, hp⟩ := mem_defining.mp ht
  exact rank_unlabelled hp

section Offers

variable (preferPrefixed : Bool) (prefixes : Entries String)

lemma offer?_unlabelled (t : Triple) :
    offer? preferPrefixed prefixes t.unlabelled = offer? preferPrefixed prefixes t := by
  rcases h : property? t with _ | p
  · rw [offer?_eq_none h, offer?_eq_none ((property?_unlabelled t).trans h)]
  · have hdefinition : definition? p t.unlabelled.object = definition? p t.object := by
      rw [← definition?_bare, Triple.unlabelled, bare_unlabelled, definition?_bare]
    rw [offer?_of_property? h, offer?_of_property? ((property?_unlabelled t).trans h),
      hdefinition]

lemma terms_unlabelled (triples : List Triple) :
    terms preferPrefixed prefixes (triples.map Triple.unlabelled) =
      terms preferPrefixed prefixes triples := by
  rw [terms_eq_addNew, terms_eq_addNew, List.filterMap_map]
  congr 1
  exact List.filterMap_congr fun t _ => offer?_unlabelled preferPrefixed prefixes t

end Offers

variable {options : Options} {prefixes : Entries String}

/-- What a second reading lists where the first has listed some triples: the same, or else the same
up to labels, in the same order or in any if they are to be sorted. -/
inductive Reread (options : Options) (triples : List Triple) : List Triple → Prop
  | same : Reread options triples triples
  | ordered {triples' : List Triple} (hsort : options.sortTriples = false)
    (h : triples'.map Triple.unlabelled = triples.map Triple.unlabelled) :
    Reread options triples triples'
  | unordered {triples' : List Triple} (hsort : options.sortTriples = true)
    (h : SameTriples (triples.map Triple.unlabelled) (triples'.map Triple.unlabelled))
    (hdatatype : ∀ t ∈ triples, NoEmptyDatatype t) : Reread options triples triples'

/-- **Readings of one document have one context.** -/
theorem Reread.derive_eq {triples triples' : List Triple} (h : Reread options triples triples')
    {context : Json.Object} (hcontext : derive options prefixes triples = .ok context) :
    derive options prefixes triples' = .ok context := by
  obtain ⟨preferPrefixed, sortTriples⟩ := options
  cases h with
  | same => exact hcontext
  | ordered hsort h =>
    obtain rfl : sortTriples = false := hsort
    have hterms : terms preferPrefixed prefixes triples' = terms preferPrefixed prefixes triples := by
      rw [← terms_unlabelled, h, terms_unlabelled]
    rw [← hcontext]
    exact congrArg (fun m => Except.ok (addPrefixes m prefixes)) hterms
  | unordered hsort h hdatatype =>
    obtain rfl : sortTriples = true := hsort
    have htexts := hasTexts_of_derive preferPrefixed prefixes hcontext
    -- each triple of the second reading is one of the first, less the labels
    have hgood : ∀ t ∈ triples', HasTexts t ∧ NoEmptyDatatype t := by
      intro t ht
      obtain ⟨u, hu, hsame⟩ := h.2 _ (List.mem_map_of_mem ht)
      obtain ⟨v, hv, rfl⟩ := List.mem_map.mp hu
      have htext := (hasTexts_iff_of_same hsame).mp (hasTexts_unlabelled.mpr (htexts v hv))
      have htype := noEmptyDatatype_of_same hsame (noEmptyDatatype_unlabelled.mpr (hdatatype v hv))
      exact ⟨hasTexts_unlabelled.mp htext, noEmptyDatatype_unlabelled.mp htype⟩
    have hranks := ranks_of_sameTriples h
    rw [ranks_unlabelled, ranks_unlabelled] at hranks
    obtain ⟨both, hboth, hboth'⟩ := exists_derive_of_ranks preferPrefixed prefixes htexts
      (fun t ht => (hgood t ht).1)
      (fun t ht => (List.mem_append.mp ht).elim (hdatatype t) fun ht => (hgood t ht).2) hranks
    obtain rfl := Except.ok.inj (hcontext.symm.trans hboth)
    exact hboth'

/-- Two stores that are read from one document: with the same bindings, and alike in what the
default graph lists. -/
structure RereadStore (options : Options) (store store' : Store) : Prop where
  bindings : store'.bindings = store.bindings
  triples : Reread options store.defaultTriples store'.defaultTriples

lemma RereadStore.ofStore_eq {store store' : Store} (h : RereadStore options store store')
    {given : Option (Entries String)} {context : Json.Object}
    (hcontext : ofStore options given store = .ok context) :
    ofStore options given store' = .ok context := by
  rw [ofStore, h.bindings]
  exact h.triples.derive_eq hcontext

end Context

end LinkedJson
