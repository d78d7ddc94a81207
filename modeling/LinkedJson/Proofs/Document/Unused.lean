import LinkedJson.Proofs.Document.Settings

/-!
What a write does not use.

Each form takes some of the settings and passes the others over. What is passed over changes
neither the calls of a write nor how it ends, even where it would let a write in another form fail.
-/

namespace LinkedJson.Document

open Rdf

def Derives (form : Form) (src : Source) : Prop :=
  form.needsContext = true ∧ src.settings.context = .null

/-- The sources are equal in what a write in a form uses. They may differ in the base if the
settings have options of their own, in the frame of another form, in the context and its
replacement if the form takes none, and in what contexts are derived from if none is derived. -/
structure SameUse (form : Form) (a b : Source) : Prop where
  triples : a.store.triples = b.store.triples
  quads : a.store.quads = b.store.quads
  options : a.settings.options = b.settings.options
  base : a.settings.options = .null →
    a.base = b.base ∧ a.settings.baseIri = b.settings.baseIri
  frame : form = .frame → a.settings.frame = b.settings.frame
  context : form.needsContext = true → a.settings.context = b.settings.context
  substitution : form.needsContext = true →
    a.settings.contextSubstitution = b.settings.contextSubstitution
  prefixes : Derives form a → a.prefixes = b.prefixes
  bindings : Derives form a → a.store.bindings = b.store.bindings
  flags : Derives form a → a.settings.preferPrefixed = b.settings.preferPrefixed ∧
    a.settings.sortTriples = b.settings.sortTriples

/-! ### Equal use -/

lemma context_of_ne_null {src : Source} (h : src.settings.context ≠ .null) :
    src.context = .ok src.settings.context := by
  rw [Source.context, contextOf, Settings.hasContext, isNull_eq_false_iff.mpr h]
  rfl

section SameUse

variable {form : Form} {a b : Source}

lemma SameUse.ofStore_eq (h : SameUse form a b) :
    Dataset.ofStore a.store = Dataset.ofStore b.store := by
  simp only [Dataset.ofStore, Store.allQuads, h.triples, h.quads]

lemma SameUse.resolveOptions_eq (h : SameUse form a b) :
    resolveOptions a.baseIri a.settings.options =
      resolveOptions b.baseIri b.settings.options := by
  rw [← h.options]
  by_cases hnull : a.settings.options = .null
  · obtain ⟨hbase, hbaseIri⟩ := h.base hnull
    rw [Source.baseIri, Source.baseIri, hbase, hbaseIri]
  · rw [resolveOptions_of_ne_null hnull, resolveOptions_of_ne_null hnull]

/-- A context that is given is that of both, and one that is derived comes of the same. -/
lemma SameUse.context_eq (h : SameUse form a b) (hform : form.needsContext = true) :
    a.context = b.context := by
  have hcontext := h.context hform
  by_cases hnull : a.settings.context = .null
  · have hderives : Derives form a := ⟨hform, hnull⟩
    have hoptions : a.settings.contextOptions = b.settings.contextOptions := by
      rw [Settings.contextOptions, (h.flags hderives).1, (h.flags hderives).2,
        Settings.contextOptions]
    have hview : viewOfDefault a.store = viewOfDefault b.store := by
      simp only [viewOfDefault, Store.defaultTriples, h.quads, h.bindings hderives]
    have hhas : a.settings.hasContext = b.settings.hasContext := by
      rw [Settings.hasContext, hcontext, Settings.hasContext]
    rw [Source.context, Source.context, contextOf, contextOf, hhas, hcontext, hoptions, hview,
      h.prefixes hderives]
  · rw [context_of_ne_null hnull, context_of_ne_null (hcontext ▸ hnull), hcontext]

lemma SameUse.agree (h : SameUse form a b) : Agree form a b where
  dataset := h.ofStore_eq
  options := h.resolveOptions_eq
  frame := h.frame
  context := h.context_eq
  substitution := h.substitution

end SameUse

/-! ### Writes without a derived context -/

def AlwaysReturns (p : Processor) : Prop := ∀ before call, ∃ v, (p.answer before call).reply = .value v

/-- A conversion that derives no context ends well if the processor returns. -/
lemma Conversion.exists_ok {p : Processor} {form : Form} {src : Source} {expanded : Json}
    {o : OptionMap} {before made : List Call} {outcome : Except Failure Json}
    (h : Conversion p form src expanded o before made outcome) (hderives : ¬ Derives form src)
    (hreturns : AlwaysReturns p) : ∃ v, outcome = .ok v := by
  cases h with
  | expanded => exact ⟨expanded, rfl⟩
  | noContext hform hfailed =>
    have hgiven : src.settings.context ≠ .null := fun hnull => hderives ⟨hform, hnull⟩
    rw [context_of_ne_null hgiven] at hfailed
    cases hfailed
  | @asked request =>
    obtain ⟨v, hv⟩ := hreturns before ⟨request, o⟩
    exact ⟨finished form src.settings v, by rw [hv]; rfl⟩

/-- A write that derives no context ends well if it has its frame, a store of RDF and options that
can be sent, and the processor returns. -/
lemma Exchange.exists_ok {p : Processor} {form : Form} {src : Source} {before made : List Call}
    {outcome : Except Failure Json} (h : Exchange p form src before made outcome)
    (hderives : ¬ Derives form src) (hready : Ready form src) {d : Dataset}
    (hstore : Dataset.ofStore src.store = .ok d) {o : OptionMap} (hsent : Sent src o)
    (hreturns : AlwaysReturns p) : ∃ v, outcome = .ok v := by
  cases h with
  | noFrame hnot => exact (hnot hready).elim
  | notRdf _ hodd => cases hodd.symm.trans hstore
  | rejected _ _ hrejected => exact (hsent.not_rejected _ hrejected).elim
  | @unexpanded _ d' _ o' _ f hreply =>
    obtain ⟨v, hv⟩ := hreturns before ⟨.fromRdf d', o'⟩
    rw [hv] at hreply
    cases hreply
  | expanded _ _ _ _ h => exact h.exists_ok hderives hreturns

/-- **What a form does not use cannot change a write**: sources that are equal in what the form
uses are written by the same calls with the same end. A write that derives no context does not fail
on terms without a text to sort by. -/
theorem toJson_congr_of_sameUse (p : Processor) {form : Form} {a b : Source}
    (h : SameUse form a b) (t : Trace) :
    (toJson p form a).runAfter t = (toJson p form b).runAfter t ∧
    (¬ Derives form a → Ready form a → (∃ d, Dataset.ofStore a.store = .ok d) →
      (∃ o, Sent a o) → AlwaysReturns p → ∃ v, ((toJson p form a).runAfter t).1 = .ok v) := by
  refine ⟨by rw [toJson_congr_of_agree p h.agree], ?_⟩
  rintro hderives hready ⟨d, hstore⟩ ⟨o, hsent⟩ hreturns
  obtain ⟨made, -, hexchange⟩ := exists_exchange p form a t
  exact hexchange.exists_ok hderives hready hstore hsent hreturns

def untidy : Store :=
  ({ kind := .graph } : Store).add
    ⟨.blank "s", .iri "http://example.org/full name", .literal "x" .plain⟩ none

/-- A write with a context of its own is the same whether triples are to be sorted or not, where one
that has to derive its context fails. -/
theorem toJson_congr_of_sameUse_untidy :
    let given : Source := { store := untidy, settings := { context := .obj [] } }
    let sorting : Source := { store := { untidy with bindings := [("ex", "http://example.org/")] }
                              prefixes := some []
                              settings := { context := .obj [], preferPrefixed := .bool true
                                            sortTriples := .bool true } }
    let p := Script.processor { fromRdf := .echo }
    SameUse .compact given sorting ∧
      ((toJson p .compact given).runAfter {} = (toJson p .compact sorting).runAfter {} ∧
        ∃ v, ((toJson p .compact given).runAfter {}).1 = .ok v) ∧
      ∃ x, ((toJson p .compact
        { sorting with settings := sorting.settings.set .context .null }).runAfter {}).1 =
          .error (.accident (.noText x)) := by
  intro given sorting p
  have hgiven : ¬ Derives .compact given := by rintro ⟨-, hnull⟩; cases hnull
  have hsame : SameUse .compact given sorting :=
    { triples := rfl, quads := rfl, options := rfl, base := fun _ => ⟨rfl, rfl⟩
      frame := nofun, context := fun _ => rfl, substitution := fun _ => rfl
      prefixes := fun h => (hgiven h).elim, bindings := fun h => (hgiven h).elim
      flags := fun h => (hgiven h).elim }
  obtain ⟨heq, hok⟩ := toJson_congr_of_sameUse p hsame {}
  have hreturns : AlwaysReturns p := by
    rintro before ⟨request, options⟩
    cases request <;> exact ⟨_, rfl⟩
  refine ⟨hsame, ⟨heq, hok hgiven nofun ⟨_, rfl⟩ ⟨_, sent_iff.mpr rfl⟩ hreturns⟩, ?_⟩
  exact ⟨.iri "http://example.org/full name", by rfl⟩

end LinkedJson.Document
