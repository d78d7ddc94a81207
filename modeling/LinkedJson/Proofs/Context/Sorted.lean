import LinkedJson.Proofs.Context.FirstSeen
import LinkedJson.Proofs.Rdf.TermText
import Mathlib.Data.List.Sort
import Mathlib.Data.Prod.Lex

/-!
Contexts derived from the triples in the order of their texts.

The texts of two triples can be equal, and equal triples can differ in the case of a language tag.
Neither shows in what they define, and nor do the labels of blank nodes, so the context depends on
nothing but the set of the triples.
-/

namespace LinkedJson.Context

open LinkedJson.Rdf

/-! ### Sorting -/

def SortKey.parts (k : SortKey) : String ×ₗ String ×ₗ String :=
  toLex (k.predicate, toLex (k.object, k.subject))

lemma SortKey.le_iff (a b : SortKey) : a.le b = true ↔ a.parts ≤ b.parts := by
  obtain ⟨p, o, s⟩ := a
  obtain ⟨q, o', s'⟩ := b
  simp only [SortKey.parts, SortKey.le, Prod.Lex.toLex_le_toLex]
  by_cases hp : p = q
  · subst hp
    by_cases ho : o = o' <;> simp [ho]
  · simp [hp]

lemma SortKey.of_eq_ok_iff {t : Triple} {k : SortKey} :
    SortKey.of t = .ok k ↔ t.predicate.text? = some k.predicate ∧
      t.object.text? = some k.object ∧ t.subject.text? = some k.subject := by
  obtain ⟨p, o, s⟩ := k
  simp only [SortKey.of, textOf]
  rcases t.predicate.text? with _ | p' <;> rcases t.object.text? with _ | o' <;>
    rcases t.subject.text? with _ | s' <;>
    simp [bind, Except.bind, pure, Except.pure]

def HasTexts (t : Triple) : Prop := ∃ k, SortKey.of t = .ok k

lemma hasTexts_iff {t : Triple} : HasTexts t ↔
    t.predicate.text?.isSome ∧ t.object.text?.isSome ∧ t.subject.text?.isSome := by
  simp only [HasTexts, SortKey.of_eq_ok_iff, Option.isSome_iff_exists]
  constructor
  · rintro ⟨k, hp, ho, hs⟩
    exact ⟨⟨_, hp⟩, ⟨_, ho⟩, ⟨_, hs⟩⟩
  · rintro ⟨⟨p, hp⟩, ⟨o, ho⟩, ⟨s, hs⟩⟩
    exact ⟨⟨p, o, s⟩, hp, ho, hs⟩

lemma not_hasTexts_iff {t : Triple} :
    ¬ HasTexts t ↔ ∃ x ∈ [t.subject, t.predicate, t.object], x.text? = none := by
  rw [hasTexts_iff]
  simp only [← Option.ne_none_iff_isSome, List.mem_cons, List.not_mem_nil, or_false,
    exists_eq_or_imp, exists_eq_left]
  tauto

def Before (t u : Triple) : Prop :=
  ∃ a b, SortKey.of t = .ok a ∧ SortKey.of u = .ok b ∧ a.le b = true

lemma mapM_keyed {triples : List Triple} (h : ∀ t ∈ triples, HasTexts t) :
    ∃ keyed : List (SortKey × Triple),
      (triples.mapM fun t => do return (← SortKey.of t, t)) = .ok keyed ∧
      keyed.map (·.2) = triples ∧ ∀ e ∈ keyed, SortKey.of e.2 = .ok e.1 := by
  induction triples with
  | nil => exact ⟨[], rfl, rfl, by simp⟩
  | cons t rest ih =>
    obtain ⟨k, hk⟩ := h t List.mem_cons_self
    obtain ⟨keyed, hrest, hmap, hof⟩ := ih fun u hu => h u (List.mem_cons_of_mem _ hu)
    refine ⟨(k, t) :: keyed, ?_, by rw [List.map_cons, hmap], ?_⟩
    · rw [List.mapM_cons, hrest, hk]
      rfl
    · rintro e he
      rcases List.mem_cons.mp he with rfl | he
      · exact hk
      · exact hof e he

lemma mapM_keyed_error {triples : List Triple} (h : ∃ t ∈ triples, ¬ HasTexts t) :
    ∃ e, (triples.mapM fun t => do return (← SortKey.of t, t)) = .error e := by
  induction triples with
  | nil => simp at h
  | cons t rest ih =>
    rw [List.mapM_cons]
    rcases ht : SortKey.of t with e | k
    · exact ⟨e, rfl⟩
    · have hrest : ∃ u ∈ rest, ¬ HasTexts u := by
        obtain ⟨u, hu, hno⟩ := h
        rcases List.mem_cons.mp hu with rfl | hu
        · exact (hno ⟨k, ht⟩).elim
        · exact ⟨u, hu, hno⟩
      obtain ⟨e, he⟩ := ih hrest
      rw [he]
      exact ⟨e, rfl⟩

/-- Triples that all have texts are put in the order of these. -/
lemma sorted_eq_ok {triples : List Triple} (h : ∀ t ∈ triples, HasTexts t) :
    ∃ ordered, sorted triples = .ok ordered ∧ ordered.Perm triples ∧ ordered.Pairwise Before := by
  obtain ⟨keyed, hkeyed, hmap, hof⟩ := mapM_keyed h
  refine ⟨(keyed.mergeSort fun a b => a.1.le b.1).map (·.2), ?_, ?_, ?_⟩
  · rw [sorted, hkeyed]
    rfl
  · exact hmap ▸ (List.mergeSort_perm keyed _).map _
  · have hpairs : (keyed.mergeSort fun a b => a.1.le b.1).Pairwise fun a b => a.1.le b.1 = true := by
      refine List.pairwise_mergeSort (fun a b c hab hbc => ?_) (fun a b => ?_) keyed
      · rw [SortKey.le_iff] at hab hbc ⊢
        exact hab.trans hbc
      · rw [Bool.or_eq_true, SortKey.le_iff, SortKey.le_iff]
        exact le_total _ _
    rw [List.pairwise_map]
    refine hpairs.imp_of_mem fun ha hb hab => ?_
    exact ⟨_, _, hof _ (List.mem_mergeSort.mp ha), hof _ (List.mem_mergeSort.mp hb), hab⟩

lemma sorted_eq_error {triples : List Triple} (h : ∃ t ∈ triples, ¬ HasTexts t) :
    ∃ e, sorted triples = .error e := by
  obtain ⟨e, he⟩ := mapM_keyed_error h
  exact ⟨e, by rw [sorted, he]; rfl⟩

/-! ### Ranks -/

/-- By what a triple is placed, less its subject and the language or the label of its object. -/
def rank (t : Triple) : String ×ₗ String :=
  toLex (t.predicate.text?.getD "", t.object.bare.text?.getD "")

lemma rank_eq {t : Triple} (h : HasTexts t) : ∃ p o, t.predicate.text? = some p ∧
    t.object.bare.text? = some o ∧ rank t = toLex (p, o) := by
  obtain ⟨hp, ho, -⟩ := hasTexts_iff.mp h
  rw [← isSome_text?_untagged, ← isSome_text?_unlabelled] at ho
  obtain ⟨p, hp⟩ := Option.isSome_iff_exists.mp hp
  obtain ⟨o, ho⟩ := Option.isSome_iff_exists.mp ho
  exact ⟨p, o, hp, ho, by simp [rank, hp, Term.bare, ho]⟩

lemma rank_le_of_before {t u : Triple} (h : Before t u) : rank t ≤ rank u := by
  obtain ⟨a, b, ha, hb, hle⟩ := h
  obtain ⟨p, o, hp, ho, hrank⟩ := rank_eq ⟨a, ha⟩
  obtain ⟨q, o', hq, ho', hrank'⟩ := rank_eq ⟨b, hb⟩
  obtain ⟨hap, hao, -⟩ := SortKey.of_eq_ok_iff.mp ha
  obtain ⟨hbp, hbo, -⟩ := SortKey.of_eq_ok_iff.mp hb
  obtain rfl : a.predicate = p := Option.some.inj (hap.symm.trans hp)
  obtain rfl : b.predicate = q := Option.some.inj (hbp.symm.trans hq)
  rw [SortKey.le_iff, SortKey.parts, SortKey.parts, Prod.Lex.toLex_le_toLex] at hle
  rw [hrank, hrank', Prod.Lex.toLex_le_toLex]
  rcases hle with hlt | ⟨heq, hle⟩
  · exact Or.inl hlt
  · refine Or.inr ⟨heq, bare_text_le hao hbo ho ho' ?_⟩
    rcases Prod.Lex.toLex_le_toLex.mp hle with hlt | ⟨heq, -⟩
    · exact hlt.le
    · exact heq.le

/-! ### What a rank defines -/

lemma definition?_unlabelled (p : String) (o : Term) :
    definition? p o.unlabelled = definition? p o := by
  cases o with
  | formula name =>
    rw [unlabelled_formula]
    split <;> rfl
  | _ => rfl

lemma definition?_bare (p : String) (o : Term) : definition? p o.bare = definition? p o := by
  rw [Term.bare, definition?_unlabelled]
  rcases o with _ | _ | ⟨_, _ | _ | _⟩ | _ | _ <;> rfl

lemma definition?_eq_of_text? {o₁ o₂ : Term} {s : String} (h₁ : o₁.text? = some s)
    (h₂ : o₂.text? = some s) (hd₁ : ∀ lexical, o₁ ≠ .literal lexical (.datatype ""))
    (hd₂ : ∀ lexical, o₂ ≠ .literal lexical (.datatype "")) (p : String) :
    definition? p o₁ = definition? p o₂ := by
  have hmark := mark_eq_of_text? h₁ h₂
  rcases o₁ with _ | _ | ⟨l₁, q₁⟩ | _ | _ <;> rcases o₂ with _ | _ | ⟨l₂, q₂⟩ | _ | _
  case literal.literal =>
    have htext : literalText l₁ q₁ = literalText l₂ q₂ := by
      have hlist := congrArg String.toList (Option.some.inj (h₁.trans h₂.symm))
      rwa [String.toList_ofList, String.toList_ofList] at hlist
    have hq₁ : q₁ ≠ .datatype "" := by
      rintro rfl
      exact hd₁ l₁ rfl
    have hq₂ : q₂ ≠ .datatype "" := by
      rintro rfl
      exact hd₂ l₂ rfl
    obtain rfl := qualifier_eq_of_text hq₁ hq₂ htext
    cases q₁ <;> rfl
  all_goals first | rfl | simp [Term.mark] at hmark

def NoEmptyDatatype (t : Triple) : Prop := ∀ lexical, t.object ≠ .literal lexical (.datatype "")

lemma bare_eq_emptyDatatype_iff {t : Term} {lexical : String} :
    t.bare = .literal lexical (.datatype "") ↔ t = .literal lexical (.datatype "") := by
  have hbare (t : Term) : t.unlabelled = .literal lexical (.datatype "") ↔
      t = .literal lexical (.datatype "") := by
    cases t with
    | formula name =>
      rw [unlabelled_formula]
      split <;> simp
    | _ => simp [Term.unlabelled]
  rw [Term.bare, hbare]
  rcases t with _ | _ | ⟨_, _ | _ | _⟩ | _ | _ <;> simp [Term.untagged]

lemma bare_ne_emptyDatatype {t : Triple} (h : NoEmptyDatatype t) (lexical : String) :
    t.object.bare ≠ .literal lexical (.datatype "") :=
  fun heq => h lexical (bare_eq_emptyDatatype_iff.mp heq)

variable {preferPrefixed : Bool} {prefixes : Entries String}

lemma offer?_eq_of_rank {t u : Triple} (ht : HasTexts t) (hu : HasTexts u)
    (hdt : NoEmptyDatatype t) (hdu : NoEmptyDatatype u) (hrank : rank t = rank u) {p : String}
    (hp : property? t = some p) :
    offer? preferPrefixed prefixes t = offer? preferPrefixed prefixes u := by
  obtain ⟨a, o, hta, hto, hrt⟩ := rank_eq ht
  obtain ⟨b, o', hub, huo, hru⟩ := rank_eq hu
  obtain ⟨rfl, rfl⟩ : a = b ∧ o = o' := Prod.mk.inj (hrt.symm.trans (hrank.trans hru))
  have htp := (property?_eq_some_iff.mp hp).1
  have hup : u.predicate = .iri p := eq_iri_of_text? (htp ▸ hta) hub
  have hdef : definition? p t.object = definition? p u.object := by
    rw [← definition?_bare p t.object, ← definition?_bare p u.object]
    exact definition?_eq_of_text? hto huo (bare_ne_emptyDatatype hdt) (bare_ne_emptyDatatype hdu) p
  simp only [offer?, htp, hup, hdef]

/-! ### Sets of triples -/

def defining (triples : List Triple) : List Triple := triples.filter fun t => (property? t).isSome

lemma mem_defining {triples : List Triple} {t : Triple} :
    t ∈ defining triples ↔ t ∈ triples ∧ ∃ p, property? t = some p := by
  rw [defining, List.mem_filter, Option.isSome_iff_exists]

lemma filterMap_offer?_defining (triples : List Triple) :
    (defining triples).filterMap (offer? preferPrefixed prefixes) =
      triples.filterMap (offer? preferPrefixed prefixes) := by
  rw [defining, List.filterMap_filter]
  refine List.filterMap_congr fun t _ => ?_
  rcases h : property? t with _ | p
  · rw [offer?_eq_none h]
    rfl
  · rfl

/-- Without their repetitions, lists in order that hold the same are the same. -/
lemma eraseDups_eq_of_sorted {γ : Type} [PartialOrder γ] [BEq γ] [LawfulBEq γ] {l₁ l₂ : List γ}
    (h₁ : l₁.Pairwise (· ≤ ·)) (h₂ : l₂.Pairwise (· ≤ ·)) (h : ∀ x, x ∈ l₁ ↔ x ∈ l₂) :
    l₁.eraseDups = l₂.eraseDups := by
  have hperm : l₁.eraseDups.Perm l₂.eraseDups := by
    rw [List.perm_ext_iff_of_nodup (nodup_eraseDups _) (nodup_eraseDups _)]
    intro x
    rw [List.mem_eraseDups, List.mem_eraseDups, h x]
  exact hperm.eq_of_pairwise (fun x y _ _ => le_antisymm) (h₁.sublist (eraseDups_sublist _))
    (h₂.sublist (eraseDups_sublist _))

/-- Lists in order whose defining triples have the same ranks give the same terms. -/
lemma terms_eq_of_ranks {l₁ l₂ : List Triple} (h₁ : l₁.Pairwise Before)
    (h₂ : l₂.Pairwise Before) (hgood : ∀ t ∈ l₁ ++ l₂, HasTexts t ∧ NoEmptyDatatype t)
    (hranks : ∀ r, r ∈ (defining l₁).map rank ↔ r ∈ (defining l₂).map rank) :
    terms preferPrefixed prefixes l₁ = terms preferPrefixed prefixes l₂ := by
  -- What is offered is a function of the rank: look the rank up among all triples.
  let all := defining l₁ ++ defining l₂
  let offered (r : String ×ₗ String) : Option (String × Json) :=
    (all.find? fun t => rank t = r).bind (offer? preferPrefixed prefixes)
  have hall : ∀ t ∈ all, (HasTexts t ∧ NoEmptyDatatype t) ∧ ∃ p, property? t = some p := by
    intro t ht
    rcases List.mem_append.mp ht with h | h <;> obtain ⟨hin, hp⟩ := mem_defining.mp h
    · exact ⟨hgood t (List.mem_append_left _ hin), hp⟩
    · exact ⟨hgood t (List.mem_append_right _ hin), hp⟩
  have hoffered : ∀ t ∈ all, offered (rank t) = offer? preferPrefixed prefixes t := by
    intro t ht
    rcases hfind : all.find? fun u => rank u = rank t with _ | u
    · rw [List.find?_eq_none] at hfind
      exact (hfind t ht (by simp)).elim
    · have hrank : rank u = rank t := by simpa using List.find?_some hfind
      obtain ⟨⟨htu, hdu⟩, p, hp⟩ := hall u (List.mem_of_find?_eq_some hfind)
      obtain ⟨⟨htt, hdt⟩, -⟩ := hall t ht
      simp only [offered, hfind, Option.bind_some]
      exact offer?_eq_of_rank htu htt hdu hdt hrank hp
  have key (l : List Triple) (hl : ∀ t ∈ defining l, t ∈ all) :
      terms preferPrefixed prefixes l =
        Entries.addNew [] (((defining l).map rank).eraseDups.filterMap offered) := by
    rw [Entries.addNew_filterMap_eraseDups, List.filterMap_map, terms_eq_addNew,
      ← filterMap_offer?_defining]
    congr 1
    exact List.filterMap_congr fun t ht => (hoffered t (hl t ht)).symm
  have hsorted {l : List Triple} (h : l.Pairwise Before) :
      ((defining l).map rank).Pairwise (· ≤ ·) := by
    rw [List.pairwise_map]
    exact (h.sublist List.filter_sublist).imp rank_le_of_before
  rw [key l₁ fun t ht => List.mem_append_left _ ht, key l₂ fun t ht => List.mem_append_right _ ht,
    eraseDups_eq_of_sorted (hsorted h₁) (hsorted h₂) hranks]

/-- The lists hold the same triples, up to the case of language tags. -/
def SameTriples (l₁ l₂ : List Triple) : Prop :=
  (∀ t ∈ l₁, ∃ u ∈ l₂, t.same u = true) ∧ ∀ u ∈ l₂, ∃ t ∈ l₁, t.same u = true

lemma eq_iri_iff_of_same {a b : Term} (h : a.same b = true) (p : String) :
    a = .iri p ↔ b = .iri p := by
  have hu := untagged_eq_of_same h
  rcases a with _ | _ | ⟨_, _ | _ | _⟩ | _ | _ <;> rcases b with _ | _ | ⟨_, _ | _ | _⟩ | _ | _ <;>
    simp_all [Term.untagged]

lemma isRdf_eq_of_same {a b : Term} (h : a.same b = true) : a.isRdf = b.isRdf := by
  have hu := untagged_eq_of_same h
  rcases a with _ | _ | ⟨_, _ | _ | _⟩ | _ | _ <;> rcases b with _ | _ | ⟨_, _ | _ | _⟩ | _ | _ <;>
    simp_all [Term.untagged, Term.isRdf]

lemma isSome_text?_of_same {a b : Term} (h : a.same b = true) :
    a.text?.isSome = b.text?.isSome := by
  rw [← isSome_text?_untagged a, ← isSome_text?_untagged b, untagged_eq_of_same h]

section Same

variable {t u : Triple} (h : t.same u = true)

include h

lemma same_parts : t.subject.same u.subject = true ∧ t.predicate.same u.predicate = true ∧
    t.object.same u.object = true := by
  simp only [Triple.same, Bool.and_eq_true] at h
  exact ⟨h.1.1, h.1.2, h.2⟩

lemma hasTexts_iff_of_same : HasTexts t ↔ HasTexts u := by
  obtain ⟨hs, hp, ho⟩ := same_parts h
  rw [hasTexts_iff, hasTexts_iff, isSome_text?_of_same hs, isSome_text?_of_same hp,
    isSome_text?_of_same ho]

lemma property?_eq_some_iff_of_same (p : String) :
    property? t = some p ↔ property? u = some p := by
  obtain ⟨-, hp, ho⟩ := same_parts h
  rw [property?_eq_some_iff, property?_eq_some_iff, eq_iri_iff_of_same hp, isRdf_eq_of_same ho]

lemma rank_eq_of_same {p : String} (hprop : property? t = some p) : rank t = rank u := by
  obtain ⟨-, -, ho⟩ := same_parts h
  have htp := (property?_eq_some_iff.mp hprop).1
  have hup := (property?_eq_some_iff.mp ((property?_eq_some_iff_of_same h p).mp hprop)).1
  rw [rank, rank, htp, hup, Term.bare, Term.bare, untagged_eq_of_same ho]

lemma noEmptyDatatype_of_same (ht : NoEmptyDatatype t) : NoEmptyDatatype u := by
  obtain ⟨-, -, ho⟩ := same_parts h
  intro lexical hu
  have heq : t.object.bare = u.object.bare := congrArg Term.unlabelled (untagged_eq_of_same ho)
  rw [hu] at heq
  exact bare_ne_emptyDatatype ht lexical heq

end Same

lemma ranks_of_sameTriples {l₁ l₂ : List Triple} (h : SameTriples l₁ l₂) (r : String ×ₗ String) :
    r ∈ (defining l₁).map rank ↔ r ∈ (defining l₂).map rank := by
  simp only [List.mem_map, mem_defining]
  constructor
  · rintro ⟨t, ⟨ht, p, hp⟩, rfl⟩
    obtain ⟨u, hu, hsame⟩ := h.1 t ht
    exact ⟨u, ⟨hu, p, (property?_eq_some_iff_of_same hsame p).mp hp⟩,
      (rank_eq_of_same hsame hp).symm⟩
  · rintro ⟨u, ⟨hu, p, hp⟩, rfl⟩
    obtain ⟨t, ht, hsame⟩ := h.2 u hu
    have hp' := (property?_eq_some_iff_of_same hsame p).mpr hp
    exact ⟨t, ⟨ht, p, hp'⟩, rank_eq_of_same hsame hp'⟩

variable (preferPrefixed prefixes)

lemma derive_eq_ok {triples ordered : List Triple} (h : sorted triples = .ok ordered) :
    derive ⟨preferPrefixed, true⟩ prefixes triples =
      .ok (addPrefixes (terms preferPrefixed prefixes ordered) prefixes) := by
  simp [derive, h, bind, Except.bind, pure, Except.pure]

lemma derive_eq_error {triples : List Triple} {e : NoText} (h : sorted triples = .error e) :
    derive ⟨preferPrefixed, true⟩ prefixes triples = .error e := by
  simp [derive, h, bind, Except.bind]

lemma hasTexts_of_derive {triples : List Triple} {context : Json.Object}
    (h : derive ⟨preferPrefixed, true⟩ prefixes triples = .ok context) :
    ∀ t ∈ triples, HasTexts t := by
  by_contra hall
  have hno : ∃ t ∈ triples, ¬ HasTexts t := by simpa using hall
  obtain ⟨e, he⟩ := sorted_eq_error hno
  cases h.symm.trans (derive_eq_error preferPrefixed prefixes he)

lemma exists_derive_of_ranks {l₁ l₂ : List Triple} (h₁ : ∀ t ∈ l₁, HasTexts t)
    (h₂ : ∀ t ∈ l₂, HasTexts t) (hdatatype : ∀ t ∈ l₁ ++ l₂, NoEmptyDatatype t)
    (hranks : ∀ r, r ∈ (defining l₁).map rank ↔ r ∈ (defining l₂).map rank) :
    ∃ context, derive ⟨preferPrefixed, true⟩ prefixes l₁ = .ok context ∧
      derive ⟨preferPrefixed, true⟩ prefixes l₂ = .ok context := by
  obtain ⟨s₁, hs₁, hperm₁, hsorted₁⟩ := sorted_eq_ok h₁
  obtain ⟨s₂, hs₂, hperm₂, hsorted₂⟩ := sorted_eq_ok h₂
  have hterms : terms preferPrefixed prefixes s₁ = terms preferPrefixed prefixes s₂ := by
    refine terms_eq_of_ranks hsorted₁ hsorted₂ (fun t ht => ?_) fun r => ?_
    · have ht : t ∈ l₁ ++ l₂ := (hperm₁.append hperm₂).mem_iff.mp ht
      exact ⟨(List.mem_append.mp ht).elim (h₁ t) (h₂ t), hdatatype t ht⟩
    · have hmem {s l : List Triple} (h : s.Perm l) :
          r ∈ (defining s).map rank ↔ r ∈ (defining l).map rank :=
        ((h.filter _).map rank).mem_iff
      rw [hmem hperm₁, hmem hperm₂, hranks]
  refine ⟨_, derive_eq_ok preferPrefixed prefixes hs₁, ?_⟩
  rw [derive_eq_ok preferPrefixed prefixes hs₂, hterms]

/-- **Sorted contexts depend on the set of triples alone**: no matter in which order two graphs
came to hold the same triples, their contexts are the same entries in the same order, or there is
none of either because a term has no text. -/
theorem derive_sorted_congr {l₁ l₂ : List Triple} (hsame : SameTriples l₁ l₂)
    (hdatatype : ∀ t ∈ l₁, NoEmptyDatatype t) :
    ((∃ t ∈ l₁, ∃ x ∈ [t.subject, t.predicate, t.object], x.text? = none) ∧
      ∃ e₁ e₂, derive ⟨preferPrefixed, true⟩ prefixes l₁ = .error e₁ ∧
        derive ⟨preferPrefixed, true⟩ prefixes l₂ = .error e₂) ∨
    ∃ context, derive ⟨preferPrefixed, true⟩ prefixes l₁ = .ok context ∧
      derive ⟨preferPrefixed, true⟩ prefixes l₂ = .ok context := by
  by_cases h₁ : ∀ t ∈ l₁, HasTexts t
  · right
    have h₂ : ∀ u ∈ l₂, HasTexts u := by
      intro u hu
      obtain ⟨t, ht, htu⟩ := hsame.2 u hu
      exact (hasTexts_iff_of_same htu).mp (h₁ t ht)
    have hd₂ : ∀ u ∈ l₂, NoEmptyDatatype u := by
      intro u hu
      obtain ⟨t, ht, htu⟩ := hsame.2 u hu
      exact noEmptyDatatype_of_same htu (hdatatype t ht)
    refine exists_derive_of_ranks preferPrefixed prefixes h₁ h₂ (fun t ht => ?_)
      (ranks_of_sameTriples hsame)
    exact (List.mem_append.mp ht).elim (hdatatype t) (hd₂ t)
  · left
    obtain ⟨t, ht, hno⟩ : ∃ t ∈ l₁, ¬ HasTexts t := by simpa using h₁
    obtain ⟨u, hu, htu⟩ := hsame.1 t ht
    obtain ⟨e₁, he₁⟩ := sorted_eq_error ⟨t, ht, hno⟩
    obtain ⟨e₂, he₂⟩ := sorted_eq_error ⟨u, hu, mt (hasTexts_iff_of_same htu).mpr hno⟩
    exact ⟨⟨t, ht, not_hasTexts_iff.mp hno⟩, e₁, e₂, derive_eq_error preferPrefixed prefixes he₁,
      derive_eq_error preferPrefixed prefixes he₂⟩

/-- A node, and one text in either case of its language tag, in two orders. -/
def related (tag : String) : List Triple := [
  ⟨.iri "http://example.org/Alice", .iri "http://example.org/related", .iri "http://o.org/Bob"⟩,
  ⟨.iri "http://example.org/Alice", .iri "http://example.org/related",
    .literal "Bob" (.language tag)⟩]

theorem derive_sorted_congr_related : SameTriples (related "EN") (related "en").reverse ∧
    (∀ t ∈ related "EN", NoEmptyDatatype t) ∧
    ∃ context, derive ⟨false, true⟩ [] (related "EN") = .ok context ∧
      derive ⟨false, true⟩ [] (related "en").reverse = .ok context := by
  have hsame : SameTriples (related "EN") (related "en").reverse := by
    constructor <;> decide +kernel
  have hdatatype : ∀ t ∈ related "EN", NoEmptyDatatype t := by
    simp [related, NoEmptyDatatype]
  refine ⟨hsame, hdatatype, ?_⟩
  rcases derive_sorted_congr false [] hsame hdatatype with ⟨hnone, -⟩ | hok
  · exact absurd hnone (by decide +kernel)
  · exact hok

end LinkedJson.Context
