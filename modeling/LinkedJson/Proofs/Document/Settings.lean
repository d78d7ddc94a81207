import LinkedJson.Proofs.Context.Sorted
import LinkedJson.Proofs.Document.Calls

/-!
What the context of the settings and its replacement do to a write.

A context that is derived can as well be given. One that replaces the context of the result comes
in when all else is done.
-/

namespace LinkedJson.Document

open Rdf

/-! ### What a write depends on -/

/-- Sources that a write in a form cannot tell apart. -/
structure Agree (form : Form) (a b : Source) : Prop where
  dataset : Dataset.ofStore a.store = Dataset.ofStore b.store
  options : resolveOptions a.baseIri a.settings.options =
    resolveOptions b.baseIri b.settings.options
  frame : form = .frame → a.settings.frame = b.settings.frame
  context : form.needsContext = true → a.context = b.context
  substitution : form.needsContext = true →
    a.settings.contextSubstitution = b.settings.contextSubstitution

section Agree

variable (p : Processor) {form : Form} {a b : Source}

lemma check_congr (h : form = .frame → a.settings.frame = b.settings.frame) :
    check (.form form) a.settings = check (.form form) b.settings := by
  by_cases hform : form = .frame
  · have hframe : a.settings.hasFrame = b.settings.hasFrame := by
      rw [Settings.hasFrame, h hform, Settings.hasFrame]
    rw [check, check, hframe]
  · simp [check, hform]

lemma inForm_against (hform : form.needsContext = true) (expanded : Json) (s : Settings)
    (options : Ref) (view : Option View) (prefixes : Option (Entries String)) :
    inForm p (.form form) expanded s options view prefixes = do
      let context ← Work.ofExcept (contextOf s view prefixes)
      return substituted s (← p.ask (against form expanded context) options) := by
  cases form with
  | compact | flatten => rfl
  | expand | frame => cases hform

lemma inForm_frame (expanded : Json) (s : Settings) (options : Ref) (view : Option View)
    (prefixes : Option (Entries String)) :
    inForm p (.form .frame) expanded s options view prefixes =
      if s.hasFrame then p.ask (.frame expanded s.frame) options
      else Work.configuration .noFrame := by
  cases h : s.hasFrame <;> simp [inForm, check, h]

lemma inForm_congr (h : Agree form a b) {view view' : Option View}
    {prefixes prefixes' : Option (Entries String)}
    (hcontext : form.needsContext = true →
      contextOf a.settings view prefixes = contextOf b.settings view' prefixes')
    (expanded : Json) (options : Ref) :
    inForm p (.form form) expanded a.settings options view prefixes =
      inForm p (.form form) expanded b.settings options view' prefixes' := by
  by_cases hform : form.needsContext = true
  · rw [inForm_against p hform, inForm_against p hform, hcontext hform]
    simp only [substituted, h.substitution hform]
  · -- a form without a context reads no settings but the frame
    cases form with
    | expand => rfl
    | frame => rw [inForm_frame, inForm_frame, Settings.hasFrame, h.frame rfl, Settings.hasFrame]
    | compact | flatten => exact (hform rfl).elim

/-- Sources that agree on what a form needs have one document in that form. -/
lemma toJson_congr_of_agree (h : Agree form a b) : toJson p form a = toJson p form b := by
  have hcontext (src : Source) (hform : form.needsContext = true) :=
    contextOf_eq_context src
      (show (form.needsContext && !src.settings.hasContext) = _ by rw [hform, Bool.true_and])
  have hinForm := inForm_congr p h fun hform =>
    (hcontext a hform).trans ((h.context hform).trans (hcontext b hform).symm)
  simp only [toJson, Processor.expandedForm, check_congr h.frame, h.dataset, h.options, hinForm]

end Agree

/-! ### The context -/

/-- **A write that derives its context is the write that is given the derived context.** -/
theorem toJson_derived_context (p : Processor) (form : Form) (src : Source) {c : Json.Object}
    (hcontext : src.settings.context = .null)
    (h : Context.ofStore src.settings.contextOptions src.prefixes src.store = .ok c) :
    toJson p form { src with settings := src.settings.set .context (.obj c) } =
      toJson p form src := by
  refine toJson_congr_of_agree p ⟨rfl, rfl, fun _ => rfl, fun _ => ?_, fun _ => rfl⟩
  -- what is derived here is derived from the default graph and the bindings, as there
  have hderived : src.context = .ok (.obj c) := by
    rw [Context.ofStore] at h
    simp only [Source.context, contextOf, Settings.hasContext, hcontext, viewOfDefault, h]
    rfl
  rw [hderived]
  rfl

/-- A text and a number, whose properties come in another order when they are sorted. -/
def aged : Store :=
  (({ kind := .graph } : Store).add
    ⟨.blank "s", .iri "http://example.org/name", .literal "x" .plain⟩ none).add
    ⟨.blank "s", .iri "http://example.org/age", .literal "3" (.datatype xsdInteger)⟩ none

lemma sorted_aged : Context.sorted aged.defaultTriples = .ok aged.defaultTriples.reverse := by
  have hswap (a b : Context.SortKey × Triple) (h : a.1.le b.1 = false) :
      [a, b].mergeSort (fun a b => a.1.le b.1) = [b, a] := by
    simp [List.mergeSort, h]
  obtain ⟨a, b, hkeyed, hle, hab⟩ : ∃ a b : Context.SortKey × Triple,
      (aged.defaultTriples.mapM fun t => do return (← Context.SortKey.of t, t)) = .ok [a, b] ∧
        a.1.le b.1 = false ∧ aged.defaultTriples = [a.2, b.2] :=
    ⟨_, _, rfl, by decide +kernel, rfl⟩
  rw [Context.sorted, hkeyed, hab]
  simp [bind, Except.bind, pure, Except.pure, hswap a b hle]

/-- A context of sorted keys with a prefix; and that of a dataset with nothing in its default graph,
which is empty and counts as given. -/
theorem toJson_derived_context_samples :
    let p := Script.processor {}
    let src : Source := {
      store := aged
      prefixes := some [("ex", "http://example.org/")]
      settings := { preferPrefixed := .bool true, sortTriples := .bool true } }
    let context : Json.Object := [
      ("ex:age", Context.coerced "http://example.org/age" xsdInteger),
      ("ex:name", .str "http://example.org/name"),
      ("ex", .str "http://example.org/")]
    let named : Source :=
      { store := ({ kind := .dataset } : Store).add
          ⟨.blank "s", .iri "http://example.org/name", .literal "x" .plain⟩
          (some (.iri "http://example.org/g")) }
    (src.settings.context = .null ∧
      Context.ofStore src.settings.contextOptions src.prefixes src.store = .ok context ∧
      toJson p .compact { src with settings := src.settings.set .context (.obj context) } =
        toJson p .compact src) ∧
    named.settings.context = .null ∧
      Context.ofStore named.settings.contextOptions named.prefixes named.store = .ok [] ∧
      toJson p .flatten { named with settings := named.settings.set .context (.obj []) } =
        toJson p .flatten named := by
  intro p src context named
  have hderived : Context.ofStore src.settings.contextOptions src.prefixes src.store =
      .ok context :=
    (Context.derive_eq_ok true _ sorted_aged).trans rfl
  exact ⟨⟨rfl, hderived, toJson_derived_context p .compact src rfl hderived⟩, rfl, rfl,
    toJson_derived_context p .flatten named rfl rfl⟩

/-! ### The replacement of the context -/

/-- The second document is the first, but an object that has a context has another in its place. -/
inductive Substitution (s : Json) : Json → Json → Prop
  | kept {d : Json} (h : ∀ fields, d = .obj fields → "@context" ∉ Entries.keys fields) :
    Substitution s d d
  | replaced {before after : Json.Object} {c : Json} (h : "@context" ∉ Entries.keys before) :
    Substitution s (.obj (before ++ ("@context", c) :: after))
      (.obj (before ++ ("@context", s) :: after))

lemma substituteContext_of_not_mem {d : Json}
    (h : ∀ fields, d = .obj fields → "@context" ∉ Entries.keys fields) (s : Json) :
    substituteContext d s = d := by
  cases d with
  | obj fields =>
    rw [substituteContext, if_neg]
    rw [Entries.has_eq_true_iff]
    exact h fields rfl
  | _ => rfl

lemma substituteContext_append {before : Json.Object} (h : "@context" ∉ Entries.keys before)
    (c : Json) (after : Json.Object) (s : Json) :
    substituteContext (.obj (before ++ ("@context", c) :: after)) s =
      .obj (before ++ ("@context", s) :: after) := by
  rw [substituteContext, if_pos, Entries.put_append_cons h]
  rw [Entries.has_eq_true_iff]
  simp

lemma substitution_substituteContext (s d : Json) : Substitution s d (substituteContext d s) := by
  by_cases h : ∃ fields, d = .obj fields ∧ "@context" ∈ Entries.keys fields
  · obtain ⟨fields, rfl, hmem⟩ := h
    obtain ⟨before, c, after, rfl, hbefore⟩ := Entries.exists_eq_append_of_mem_keys hmem
    rw [substituteContext_append hbefore]
    exact .replaced hbefore
  · have hnot : ∀ fields, d = .obj fields → "@context" ∉ Entries.keys fields := by
      rintro fields rfl hmem
      exact h ⟨fields, rfl, hmem⟩
    rw [substituteContext_of_not_mem hnot]
    exact .kept hnot

lemma Substitution.eq_substituteContext {s d d' : Json} (h : Substitution s d d') :
    substituteContext d s = d' := by
  cases h with
  | kept h => exact substituteContext_of_not_mem h s
  | replaced h => exact substituteContext_append h _ _ s

/-- The last replacement is the one that stays. -/
lemma substituteContext_substituteContext (d s s' : Json) :
    substituteContext (substituteContext d s) s' = substituteContext d s' := by
  have h := substitution_substituteContext s d
  generalize substituteContext d s = d' at h
  cases h with
  | kept => rfl
  | replaced h => rw [substituteContext_append h, substituteContext_append h]

def Source.unreplaced (src : Source) : Source :=
  { src with settings := { src.settings with contextSubstitution := none } }

lemma inForm_eq_finished (p : Processor) (form : Form) (expanded : Json) (s : Settings)
    (options : Ref) (view : Option View) (prefixes : Option (Entries String)) :
    inForm p (.form form) expanded s options view prefixes = do
      return finished form s (← inForm p (.form form) expanded
        { s with contextSubstitution := none } options view prefixes) := by
  by_cases hform : form.needsContext = true
  · have hcontext : contextOf { s with contextSubstitution := none } view prefixes =
        contextOf s view prefixes := rfl
    rw [inForm_against p hform, inForm_against p hform, hcontext]
    simp [finished, hform, substituted]
  · cases form with
    | expand => simp [inForm, check, finished, Form.needsContext]
    | frame =>
      rw [inForm_frame, inForm_frame]
      simp [finished, Form.needsContext]
      rfl
    | compact | flatten => exact (hform rfl).elim

lemma toJson_eq_finished (p : Processor) (form : Form) (src : Source) :
    toJson p form src = do
      return finished form src.settings (← toJson p form src.unreplaced) := by
  have hcheck : check (.form form) src.unreplaced.settings = check (.form form) src.settings := rfl
  rw [toJson, toJson, hcheck]
  rcases check (.form form) src.settings with e | _
  · rfl
  · simp only [bind_assoc]
    refine bind_congr fun options => bind_congr fun expanded => ?_
    exact inForm_eq_finished p form expanded src.settings _ _ _

/-- **Replacing the context of a document is the last thing that a write does.** It asks and fails
as it would without, and only the context of a document that has one is another. -/
theorem toJson_substitution (p : Processor) (form : Form) (src : Source) (s : Json) (t : Trace)
    (h : src.settings.contextSubstitution = none) :
    let plain := (toJson p form src).runAfter t
    let replaced := (toJson p form
      { src with settings := src.settings.set .contextSubstitution s }).runAfter t
    (replaced.2 = plain.2 ∧ replaced.1 = plain.1.map fun d =>
      if form.needsContext then substituteContext d s else d) ∧
    (∀ d d', substituteContext d s = d' ↔ Substitution s d d') ∧
    ∀ d s', substituteContext (substituteContext d s) s' = substituteContext d s' := by
  have hunreplaced : Source.unreplaced
      { src with settings := src.settings.set .contextSubstitution s } = src := by
    obtain ⟨store, prefixes, base, settings⟩ := src
    simp only at h
    rw [Source.unreplaced, Settings.set, ← h]
  refine ⟨?_, fun d d' => ⟨?_, Substitution.eq_substituteContext⟩,
    fun d s' => substituteContext_substituteContext d s s'⟩
  · rw [toJson_eq_finished, hunreplaced, Work.runAfter_bind_pure]
    exact ⟨rfl, rfl⟩
  · rintro rfl
    exact substitution_substituteContext s d

/-- A null is a replacement like any other. -/
theorem toJson_substitution_null :
    let src : Source := { store := { kind := .graph } }
    let p := Script.processor { fromRdf := .give (.arr []) }
    src.settings.contextSubstitution = none ∧
      ((toJson p .compact src).runAfter {}).1 =
        .ok (.obj [("@context", .obj []), ("compacted", .arr [])]) ∧
      ((toJson p .compact
        { src with settings := src.settings.set .contextSubstitution .null }).runAfter {}).1 =
          .ok (.obj [("@context", .null), ("compacted", .arr [])]) := by
  intro src p
  obtain ⟨⟨-, hvalue⟩, -⟩ := toJson_substitution p .compact src .null {} rfl
  exact ⟨rfl, rfl, hvalue.trans rfl⟩

end LinkedJson.Document
