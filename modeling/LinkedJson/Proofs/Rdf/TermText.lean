import LinkedJson.Proofs.Rdf.QuotedText
import Mathlib.Data.String.Basic

/-!
What the text of a term says of the term.

The first character tells the kind of a term, and what comes after the quotation of a literal tells
how it is qualified. With the language tags left out, or the labels of blank nodes, the texts keep
their order.
-/

namespace LinkedJson.Rdf

open LinkedJson.Rdf.QuotedText

/-! ### The order of texts -/

lemma le_append_text (s r : String) : s ≤ s ++ r := by
  rw [← not_lt, String.lt_iff_toList_lt, String.toList_append]
  induction s.toList with
  | nil => exact List.not_lt_nil _
  | cons c cs ih =>
    rw [List.cons_append, List.cons_lt_cons_iff]
    rintro (h | ⟨-, h⟩)
    · exact lt_irrefl _ h
    · exact ih h

lemma lt_of_head_lt {s r : String} {a b : Char} (hs : s.toList.head? = some a)
    (hr : r.toList.head? = some b) (h : a < b) : s < r := by
  obtain ⟨s', hs⟩ := List.head?_eq_some_iff.mp hs
  obtain ⟨r', hr⟩ := List.head?_eq_some_iff.mp hr
  rw [String.lt_iff_toList_lt, hs, hr, List.cons_lt_cons_iff]
  exact Or.inl h

/-- What stands between a text and a longer form of it is a longer form of it, too. -/
lemma eq_append_of_lt_of_le {s t r : String} (hlt : s < t) (hle : t ≤ s ++ r) :
    ∃ r', t = s ++ r' := by
  have key : ∀ a b c : List Char, a < b → ¬ a ++ c < b → ∃ d, b = a ++ d := by
    intro a
    induction a with
    | nil => exact fun b _ _ _ => ⟨b, rfl⟩
    | cons x a ih =>
      intro b c hab hcb
      rcases b with _ | ⟨y, b⟩
      · exact (List.not_lt_nil _ hab).elim
      · rw [List.cons_append, List.cons_lt_cons_iff, not_or, not_and] at hcb
        rw [List.cons_lt_cons_iff] at hab
        rcases hab with hxy | ⟨rfl, hab⟩
        · exact (hcb.1 hxy).elim
        · obtain ⟨d, rfl⟩ := ih b c hab (hcb.2 rfl)
          exact ⟨d, rfl⟩
  rw [String.lt_iff_toList_lt] at hlt
  rw [← not_lt, String.lt_iff_toList_lt, String.toList_append] at hle
  obtain ⟨d, hd⟩ := key _ _ _ hlt hle
  exact ⟨String.ofList d, by rw [← String.toList_inj, String.toList_append, String.toList_ofList, hd]⟩

/-! ### Literals -/

/-- What the text of a literal has after the quotation. -/
def Qualifier.tail : Qualifier → List Char
  | .plain => []
  | .language tag => '@' :: tag.toList
  | .datatype d => if d = "" then [] else "^^<".toList ++ d.toList ++ ['>']

lemma Qualifier.head?_tail (q : Qualifier) : q.tail.head? ≠ some '"' := by
  cases q with
  | plain => simp [tail]
  | language tag => simp [tail]
  | datatype d => by_cases hd : d = "" <;> simp [tail, hd]

/-- The tail tells the qualifier, but not an empty datatype from none. -/
lemma Qualifier.tail_inj {q₁ q₂ : Qualifier} (h₁ : q₁ ≠ .datatype "") (h₂ : q₂ ≠ .datatype "")
    (h : q₁.tail = q₂.tail) : q₁ = q₂ := by
  cases q₁ <;> cases q₂ <;> simp_all [tail, String.toList_inj]

lemma exists_quotation (lexical : String) (q : Qualifier) :
    ∃ u, Closed (run .start u) ∧ literalText lexical q = u ++ q.tail := by
  have hclosed := closed_quotedText lexical
  cases q with
  | plain => exact ⟨_, hclosed, (List.append_nil _).symm⟩
  | language tag => exact ⟨_, hclosed, rfl⟩
  | datatype d =>
    let u := if d = xsdDouble ∨ d = xsdFloat ∨ d = xsdDecimal then
      respell lexical (quotedText lexical) else quotedText lexical
    refine ⟨u, ?_, ?_⟩
    · by_cases hd : d = xsdDouble ∨ d = xsdFloat ∨ d = xsdDecimal
      · simpa only [u, if_pos hd, run_respell] using hclosed
      · simpa only [u, if_neg hd] using hclosed
    · by_cases hd : d = ""
      · simp [literalText, Qualifier.tail, hd, u]
      · simp [literalText, Qualifier.tail, hd, u]

lemma qualifier_eq_of_text {l₁ l₂ : String} {q₁ q₂ : Qualifier} (h₁ : q₁ ≠ .datatype "")
    (h₂ : q₂ ≠ .datatype "") (h : literalText l₁ q₁ = literalText l₂ q₂) : q₁ = q₂ := by
  obtain ⟨u₁, hu₁, htext₁⟩ := exists_quotation l₁ q₁
  obtain ⟨u₂, hu₂, htext₂⟩ := exists_quotation l₂ q₂
  rw [htext₁, htext₂] at h
  have htail := (append_inj_of_closed hu₁ hu₂ q₁.head?_tail q₂.head?_tail h).2
  exact Qualifier.tail_inj h₁ h₂ htail

lemma head?_literalText (lexical : String) (q : Qualifier) :
    (literalText lexical q).head? = some '"' := by
  obtain ⟨u, hu, htext⟩ := exists_quotation lexical q
  rcases u with _ | ⟨c, u⟩
  · exact hu.elim
  · by_cases hc : c = '"'
    · rw [htext, hc]
      rfl
    · have hdead : step .start c = .dead := by simp [step, hc]
      rw [run_cons, hdead, run_dead] at hu
      exact hu.elim

/-! ### Kinds -/

def Term.mark : Term → Char
  | .iri _ => '<'
  | .blank _ => '_'
  | .literal _ _ => '"'
  | .var _ => '?'
  | .formula _ => '\x7b'

lemma eq_of_bracketed? {iri : String} {cs : List Char} (h : bracketed? iri = some cs) :
    cs = '<' :: iri.toList ++ ['>'] := by
  obtain ⟨-, heq⟩ := Option.ite_none_left_eq_some.mp h
  exact (Option.some.inj heq).symm

lemma head?_of_text? {t : Term} {s : String} (h : t.text? = some s) :
    s.toList.head? = some t.mark := by
  cases t with
  | iri value =>
    obtain ⟨cs, hcs, rfl⟩ := Option.map_eq_some_iff.mp h
    simp [eq_of_bracketed? hcs, Term.mark]
  | blank label =>
    obtain rfl := Option.some.inj h
    simp [Term.mark]
  | literal lexical q =>
    obtain rfl := Option.some.inj h
    rw [String.toList_ofList]
    exact head?_literalText lexical q
  | var name =>
    obtain rfl := Option.some.inj h
    simp [Term.mark]
  | formula name =>
    obtain ⟨cs, -, rfl⟩ := Option.map_eq_some_iff.mp h
    simp [Term.mark]

lemma mark_eq_of_text? {t u : Term} {s : String} (ht : t.text? = some s) (hu : u.text? = some s) :
    t.mark = u.mark :=
  Option.some.inj ((head?_of_text? ht).symm.trans (head?_of_text? hu))

lemma eq_iri_of_text? {p s : String} {t : Term} (hp : (Term.iri p).text? = some s)
    (ht : t.text? = some s) : t = .iri p := by
  have hmark := mark_eq_of_text? ht hp
  cases t with
  | iri q =>
    obtain ⟨cs, hcs, rfl⟩ := Option.map_eq_some_iff.mp hp
    obtain ⟨ds, hds, heq⟩ := Option.map_eq_some_iff.mp ht
    have hlist := congrArg String.toList heq
    simpa [eq_of_bracketed? hcs, eq_of_bracketed? hds, String.toList_inj] using hlist
  | _ => simp [Term.mark] at hmark

/-! ### Texts without their language tags -/

def Term.untagged : Term → Term
  | .literal lexical (.language _) => .literal lexical (.language "")
  | t => t

lemma untagged_eq_of_same {t u : Term} (h : t.same u = true) : t.untagged = u.untagged := by
  have hfold : t.fold = u.fold := by simpa [Term.same] using h
  rcases t with _ | _ | ⟨l, _ | d | tag⟩ | _ | _ <;> rcases u with _ | _ | ⟨m, _ | e | tag'⟩ | _ | _ <;>
    simp_all [Term.fold, Qualifier.fold, Term.untagged]

lemma isSome_text?_untagged (t : Term) : t.untagged.text?.isSome = t.text?.isSome := by
  rcases t with _ | _ | ⟨_, _ | _ | _⟩ | _ | _ <;> rfl

/-- The text without its language tag is the head of the whole. -/
lemma text?_untagged {t : Term} {s : String} (h : t.text? = some s) :
    ∃ s' r, t.untagged.text? = some s' ∧ s = s' ++ r := by
  by_cases ht : ∃ lexical tag, t = .literal lexical (.language tag)
  · obtain ⟨lexical, tag, rfl⟩ := ht
    obtain rfl := Option.some.inj h
    refine ⟨_, tag, rfl, ?_⟩
    rw [← String.toList_inj]
    simp [literalText]
  · have hsame : t.untagged = t := by
      rcases t with _ | _ | ⟨_, _ | _ | tag⟩ | _ | _ <;> simp_all [Term.untagged]
    exact ⟨s, "", by rw [hsame, h], by simp⟩

lemma tag_eq_empty {t : Term} {lexical tag : String}
    (h : t.untagged = .literal lexical (.language tag)) : tag = "" := by
  rcases t with _ | _ | ⟨_, _ | _ | _⟩ | _ | _ <;> simp_all [Term.untagged]

/-- Only a literal of the same quotation and in a language begins with the quotation and the sign
of a language. -/
lemma eq_empty_of_untagged {t : Term} {lexical c : String}
    (h : t.untagged.text? =
      some (String.ofList (literalText lexical (.language "")) ++ c)) : c = "" := by
  have hhead := head?_of_text? h
  rw [String.toList_append, String.toList_ofList, List.head?_append, head?_literalText] at hhead
  rcases ht : t.untagged with _ | _ | ⟨l, q⟩ | _ | _ <;> rw [ht] at h hhead
  case literal =>
    obtain ⟨u, hu, htext⟩ := exists_quotation l q
    have hlist := congrArg String.toList (Option.some.inj h)
    rw [String.toList_ofList, String.toList_append, String.toList_ofList, htext] at hlist
    have happ : u ++ q.tail = quotedText lexical ++ '@' :: c.toList := by
      simpa [literalText] using hlist
    obtain ⟨-, htail⟩ :=
      append_inj_of_closed hu (closed_quotedText lexical) q.head?_tail (by simp) happ
    cases q with
    | plain => simp [Qualifier.tail] at htail
    | datatype d => by_cases hd : d = "" <;> simp [Qualifier.tail, hd] at htail
    | language tag =>
      obtain rfl := tag_eq_empty ht
      have hc : c.toList = [] := (List.cons.inj htail).2.symm
      exact String.toList_eq_nil_iff.mp hc
  all_goals simp [Term.mark] at hhead

/-- **The order of texts survives without the language tags.** -/
theorem untagged_text_le {t u : Term} {s s' r r' : String} (hs : t.text? = some s)
    (hr : u.text? = some r) (hs' : t.untagged.text? = some s') (hr' : u.untagged.text? = some r')
    (h : s ≤ r) : s' ≤ r' := by
  obtain ⟨s'', a, hs'', rfl⟩ := text?_untagged hs
  obtain rfl : s' = s'' := Option.some.inj (hs'.symm.trans hs'')
  have hle : s' ≤ r := (le_append_text s' a).trans h
  by_cases hu : ∃ lexical tag, u = .literal lexical (.language tag)
  · -- A text that the tag alone keeps below is one of the same quotation and some tag.
    obtain ⟨lexical, tag, rfl⟩ := hu
    obtain ⟨r'', b, hr'', rfl⟩ := text?_untagged hr
    obtain rfl : r' = r'' := Option.some.inj (hr'.symm.trans hr'')
    by_contra hlt
    obtain ⟨c, rfl⟩ := eq_append_of_lt_of_le (not_le.mp hlt) hle
    obtain rfl := Option.some.inj hr'
    obtain rfl := eq_empty_of_untagged hs'
    simp at hlt
  · have hsame : u.untagged = u := by
      rcases u with _ | _ | ⟨_, _ | _ | tag⟩ | _ | _ <;> simp_all [Term.untagged]
    rw [hsame, hr] at hr'
    exact Option.some.inj hr' ▸ hle

/-! ### Texts without the names that a reading makes up -/

/-- The term without the label of its blank node or the name of its formula, if that has a text. -/
def Term.unlabelled : Term → Term
  | .blank _ => .blank ""
  | .formula name => if (bracketed? name).isSome then .formula "" else .formula name
  | t => t

lemma unlabelled_formula (name : String) : (Term.formula name).unlabelled =
    if (bracketed? name).isSome then .formula "" else .formula name := rfl

@[simp] lemma mark_unlabelled (t : Term) : t.unlabelled.mark = t.mark := by
  cases t with
  | formula name =>
    rw [unlabelled_formula]
    split <;> rfl
  | _ => rfl

lemma isSome_text?_unlabelled (t : Term) : t.unlabelled.text?.isSome = t.text?.isSome := by
  cases t with
  | formula name =>
    rw [unlabelled_formula]
    split
    · next h =>
      rw [Term.text?, Term.text?, Option.isSome_map, Option.isSome_map, h]
      rfl
    · rfl
  | _ => rfl

/-- **The order of texts survives without the labels**: those of another kind stand before all
blank nodes or after all of them. -/
theorem unlabelled_text_le {t u : Term} {s s' r r' : String} (hs : t.text? = some s)
    (hr : u.text? = some r) (hs' : t.unlabelled.text? = some s')
    (hr' : u.unlabelled.text? = some r') (h : s ≤ r) : s' ≤ r' := by
  have hmark : t.mark ≤ u.mark := by
    by_contra hlt
    exact absurd h (not_le.mpr (lt_of_head_lt (head?_of_text? hr) (head?_of_text? hs)
      (not_le.mp hlt)))
  rcases hmark.lt_or_eq with hlt | heq
  · have hlt : t.unlabelled.mark < u.unlabelled.mark := by simpa using hlt
    exact (lt_of_head_lt (head?_of_text? hs') (head?_of_text? hr') hlt).le
  · cases t <;> cases u <;> simp [Term.mark] at heq
    case blank.blank => exact (Option.some.inj (hs'.symm.trans hr')).le
    case formula.formula name name' =>
      obtain ⟨cs, hcs, -⟩ := Option.map_eq_some_iff.mp hs
      obtain ⟨cs', hcs', -⟩ := Option.map_eq_some_iff.mp hr
      rw [unlabelled_formula, hcs] at hs'
      rw [unlabelled_formula, hcs'] at hr'
      exact (Option.some.inj (hs'.symm.trans hr')).le
    all_goals
      obtain rfl := Option.some.inj (hs.symm.trans hs')
      obtain rfl := Option.some.inj (hr.symm.trans hr')
      exact h

def Term.bare (t : Term) : Term := t.untagged.unlabelled

lemma bare_text_le {t u : Term} {s s' r r' : String} (hs : t.text? = some s)
    (hr : u.text? = some r) (hs' : t.bare.text? = some s') (hr' : u.bare.text? = some r')
    (h : s ≤ r) : s' ≤ r' := by
  obtain ⟨s'', -, hs'', -⟩ := text?_untagged hs
  obtain ⟨r'', -, hr'', -⟩ := text?_untagged hr
  exact unlabelled_text_le hs'' hr'' hs' hr' (untagged_text_le hs hr hs'' hr'' h)

end LinkedJson.Rdf
