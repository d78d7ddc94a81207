import LinkedJson.Document
import LinkedJson.Processor.Script
import LinkedJson.Proofs.Processor
import LinkedJson.Proofs.Processor.Options
import LinkedJson.Proofs.Entries

/-!
What a write asks of the processor.

A write asks for the expanded form, and then at most once for the document in its own form. The
same options go with both calls, each time in an object of their own, whatever the processor did to
those of the first.
-/

namespace LinkedJson.Document

open Rdf

/-! ### Options -/

/-- The options of a write, before a loader is added: those of the settings as an object, else
defaults and the base. -/
inductive Chosen (src : Source) : OptionMap → Prop
  | defaults (h : src.settings.options = .null) (hbase : src.baseIri = .null) :
    Chosen src [(.text "useNativeTypes", .bool true), (.text "compactArrays", .bool true)]
  | based (h : src.settings.options = .null) (hbase : src.baseIri ≠ .null) :
    Chosen src [(.text "useNativeTypes", .bool true), (.text "compactArrays", .bool true),
      (.text "base", src.baseIri)]
  | falsy (h : src.settings.options ≠ .null) (hfalsy : src.settings.options.truthy = false) :
    Chosen src []
  | object {fields : Json.Object} (h : src.settings.options = .obj fields) :
    Chosen src (.ofFields fields)
  | pairs {items : List Json} {ps : List (Key × Json)} (h : src.settings.options = .arr items)
    (hps : items.mapM pairOf = .ok ps) : Chosen src (.ofPairs ps)

/-- The options that go with each call of a write: a loader comes last if there is none yet. -/
inductive Sent (src : Source) : OptionMap → Prop
  | kept {o : OptionMap} (h : Chosen src o) (hloader : .text loaderKey ∈ o.keys) : Sent src o
  | added {o : OptionMap} (h : Chosen src o) (hloader : .text loaderKey ∉ o.keys) :
    Sent src (o ++ [(.text loaderKey, defaultLoader)])

lemma isNull_eq_true_iff {v : Json} : v.isNull = true ↔ v = .null := by
  cases v <;> simp [Json.isNull]

lemma isNull_eq_false_iff {v : Json} : v.isNull = false ↔ v ≠ .null := by
  rw [Bool.eq_false_iff, ne_eq, isNull_eq_true_iff]

lemma resolveOptions_of_ne_null {options : Json} (h : options ≠ .null) (base : Json) :
    resolveOptions base options = options := by
  rw [resolveOptions, isNull_eq_false_iff.mpr h]
  rfl

lemma chosen_of_copyOptions {src : Source} (hnull : src.settings.options ≠ .null)
    {o : OptionMap} (h : copyOptions src.settings.options = .ok o) : Chosen src o := by
  unfold copyOptions at h
  split_ifs at h with hfalsy
  · cases h
    exact .falsy hnull (by simpa using hfalsy)
  · split at h
    next fields hobj =>
      cases h
      exact .object hobj
    next items harr =>
      rcases hps : items.mapM pairOf with a | ps <;> rw [hps] at h <;> cases h
      exact .pairs harr hps
    next => cases h
    next => cases h

lemma Chosen.copyOptions_eq {src : Source} {o : OptionMap} (h : Chosen src o) :
    copyOptions (resolveOptions src.baseIri src.settings.options) = .ok o := by
  cases h with
  | defaults h hbase =>
    rw [h, hbase]
    rfl
  | based h hbase =>
    rw [h, resolveOptions, isNull_eq_false_iff.mpr hbase]
    rfl
  | falsy h hfalsy =>
    rw [resolveOptions_of_ne_null h]
    simp [copyOptions, hfalsy]
  | @object fields h =>
    rw [h]
    cases fields <;> rfl
  | @pairs items ps h hps =>
    rw [h, resolveOptions_of_ne_null (by simp), copyOptions]
    cases items with
    | nil =>
      cases hps
      rfl
    | cons v rest => simp [Json.truthy, hps, bind, Except.bind, pure, Except.pure]

lemma chosen_iff {src : Source} {o : OptionMap} : Chosen src o ↔
    copyOptions (resolveOptions src.baseIri src.settings.options) = .ok o := by
  refine ⟨Chosen.copyOptions_eq, fun h => ?_⟩
  by_cases hnull : src.settings.options = .null
  · rw [hnull] at h
    by_cases hbase : src.baseIri = .null
    · rw [hbase] at h
      cases h
      exact .defaults hnull hbase
    · rw [resolveOptions, isNull_eq_false_iff.mpr hbase] at h
      cases h
      exact .based hnull hbase
  · rw [resolveOptions_of_ne_null hnull] at h
    exact chosen_of_copyOptions hnull h

/-- The options that go with a call are a copy with a loader put in. -/
lemma sent_iff {src : Source} {o : OptionMap} : Sent src o ↔
    callOptions (.given (resolveOptions src.baseIri src.settings.options)) = .ok o := by
  have hsent : Sent src o ↔
      ∃ m, Chosen src m ∧ OptionMap.putNew m (.text loaderKey) defaultLoader = o := by
    constructor
    · rintro (⟨h, hloader⟩ | ⟨h, hloader⟩)
      · exact ⟨o, h, OptionMap.putNew_of_mem hloader _⟩
      · exact ⟨_, h, OptionMap.putNew_of_not_mem hloader _⟩
    · rintro ⟨m, h, rfl⟩
      by_cases hloader : .text loaderKey ∈ OptionMap.keys m
      · rw [OptionMap.putNew_of_mem hloader]
        exact .kept h hloader
      · rw [OptionMap.putNew_of_not_mem hloader]
        exact .added h hloader
  rw [hsent, callOptions, Held.copied]
  simp only [chosen_iff]
  rcases copyOptions (resolveOptions src.baseIri src.settings.options) with a | m <;>
    simp [bind, Except.bind, pure, Except.pure]

lemma rejected_iff {src : Source} {a : Accident} : copyOptions src.settings.options = .error a ↔
    callOptions (.given (resolveOptions src.baseIri src.settings.options)) = .error a := by
  rw [callOptions, Held.copied]
  by_cases hnull : src.settings.options = .null
  · rw [hnull, resolveOptions]
    constructor <;> (intro h; cases h)
  · rw [resolveOptions_of_ne_null hnull]
    rcases copyOptions src.settings.options with b | o <;>
      simp [bind, Except.bind, pure, Except.pure]

lemma Sent.unique {src : Source} {o o' : OptionMap} (h : Sent src o) (h' : Sent src o') :
    o = o' :=
  Except.ok.inj ((sent_iff.mp h).symm.trans (sent_iff.mp h'))

lemma Sent.not_rejected {src : Source} {o : OptionMap} (h : Sent src o) (a : Accident) :
    copyOptions src.settings.options ≠ .error a := by
  intro ha
  cases (sent_iff.mp h).symm.trans (rejected_iff.mp ha)

/-! ### Calls -/

/-- The context against which a source is written: its own, else one derived from it. -/
def Source.context (src : Source) : Except Failure Json :=
  contextOf src.settings (some (viewOfDefault src.store)) src.prefixes

inductive Wanted (src : Source) (expanded : Json) : Form → Request → Prop
  | compact {c : Json} (h : src.context = .ok c) :
    Wanted src expanded .compact (.compact expanded c)
  | flatten {c : Json} (h : src.context = .ok c) :
    Wanted src expanded .flatten (.flatten expanded c)
  | frame : Wanted src expanded .frame (.frame expanded src.settings.frame)

def finished (form : Form) (s : Settings) (document : Json) : Json :=
  if form.needsContext then substituted s document else document

inductive Conversion (p : Processor) (form : Form) (src : Source) (expanded : Json)
    (o : OptionMap) (before : List Call) : List Call → Except Failure Json → Prop
  | expanded (hform : form = .expand) :
    Conversion p form src expanded o before [] (.ok expanded)
  | noContext (hform : form.needsContext = true) {f : Failure} (h : src.context = .error f) :
    Conversion p form src expanded o before [] (.error f)
  | asked {request : Request} (h : Wanted src expanded form request) :
    Conversion p form src expanded o before [⟨request, o⟩]
      (((p.answer before ⟨request, o⟩).reply.outcome request.name).map (finished form src.settings))

def Ready (form : Form) (src : Source) : Prop := form = .frame → src.settings.frame ≠ .null

/-- The calls of a write and how they end. Nothing is asked without a frame for the framed form,
of a store that is not RDF, or with options that are no object. -/
inductive Exchange (p : Processor) (form : Form) (src : Source) (before : List Call) :
    List Call → Except Failure Json → Prop
  | noFrame (hready : ¬ Ready form src) :
    Exchange p form src before [] (.error (.configuration .noFrame))
  | notRdf (hready : Ready form src) {e : NotRdf} (hstore : Dataset.ofStore src.store = .error e) :
    Exchange p form src before [] (.error (.transform (.notRdf e)))
  | rejected (hready : Ready form src) {d : Dataset} (hstore : Dataset.ofStore src.store = .ok d)
    {a : Accident} (hoptions : copyOptions src.settings.options = .error a) :
    Exchange p form src before [] (.error (.accident a))
  | unexpanded (hready : Ready form src) {d : Dataset} (hstore : Dataset.ofStore src.store = .ok d)
    {o : OptionMap} (hoptions : Sent src o) {f : Failure}
    (hreply : (p.answer before ⟨.fromRdf d, o⟩).reply.outcome "from_rdf" = .error f) :
    Exchange p form src before [⟨.fromRdf d, o⟩] (.error f)
  | expanded (hready : Ready form src) {d : Dataset} (hstore : Dataset.ofStore src.store = .ok d)
    {o : OptionMap} (hoptions : Sent src o) {v : Json}
    (hreply : (p.answer before ⟨.fromRdf d, o⟩).reply = .value v) {made : List Call}
    {outcome : Except Failure Json}
    (h : Conversion p form src v o (before ++ [⟨.fromRdf d, o⟩]) made outcome) :
    Exchange p form src before (⟨.fromRdf d, o⟩ :: made) outcome

/-- The called functions, in order, begin a list of two, and of one for the expanded form. -/
lemma Exchange.names {p : Processor} {form : Form} {src : Source} {before made : List Call}
    {outcome : Except Failure Json} (h : Exchange p form src before made outcome) :
    made.map (·.request.name) <+: "from_rdf" :: (if form = .expand then [] else [form.name]) := by
  cases h with
  | noFrame | notRdf | rejected => simp
  | unexpanded => exact List.prefix_append _ _
  | expanded _ _ _ _ h =>
    cases h with
    | expanded | noContext => simp [Request.name]
    | asked h => cases h <;> simp [Request.name, Form.name]

/-! ### One way to go -/

section Unique

variable {p : Processor} {form : Form} {src : Source} {expanded : Json} {o : OptionMap}
  {before made made' : List Call} {outcome outcome' : Except Failure Json}

lemma Wanted.context {request : Request} (h : Wanted src expanded form request) :
    form = .frame ∨ form.needsContext = true ∧ ∃ c, src.context = .ok c := by
  cases h with
  | compact h => exact Or.inr ⟨rfl, _, h⟩
  | flatten h => exact Or.inr ⟨rfl, _, h⟩
  | frame => exact Or.inl rfl

lemma Wanted.unique {request request' : Request} (h : Wanted src expanded form request)
    (h' : Wanted src expanded form request') : request = request' := by
  cases h with
  | compact h => cases h' with | compact h' => rw [Except.ok.inj (h.symm.trans h')]
  | flatten h => cases h' with | flatten h' => rw [Except.ok.inj (h.symm.trans h')]
  | frame => cases h'; rfl

lemma Conversion.unique (h : Conversion p form src expanded o before made outcome)
    (h' : Conversion p form src expanded o before made' outcome') :
    made = made' ∧ outcome = outcome' := by
  cases h with
  | expanded hform =>
    cases h' with
    | expanded => exact ⟨rfl, rfl⟩
    | noContext hform' => subst hform; cases hform'
    | asked h' => subst hform; cases h'
  | noContext hform h =>
    cases h' with
    | expanded hform' => subst hform'; cases hform
    | noContext _ h' => exact ⟨rfl, by rw [Except.error.inj (h.symm.trans h')]⟩
    | asked h' =>
      rcases h'.context with rfl | ⟨_, c, hc⟩
      · cases hform
      · cases h.symm.trans hc
  | asked h =>
    cases h' with
    | expanded hform' => subst hform'; cases h
    | noContext hform' h' =>
      rcases h.context with rfl | ⟨_, c, hc⟩
      · cases hform'
      · cases h'.symm.trans hc
    | asked h' =>
      obtain rfl := h.unique h'
      exact ⟨rfl, rfl⟩

/-- A write can go in one way only. -/
theorem Exchange.unique (h : Exchange p form src before made outcome)
    (h' : Exchange p form src before made' outcome') : made = made' ∧ outcome = outcome' := by
  -- Two different ways exclude each other by a guard. Two equal ones agree in the dataset, the
  -- options and the reply, for there is one of each.
  cases h <;> cases h' <;>
    grind [Sent.unique, Sent.not_rejected, Conversion.unique, Reply.outcome]

end Unique

lemma check_of_ready {form : Form} {src : Source} (h : Ready form src) :
    check (.form form) src.settings = .ok form := by
  refine if_neg ?_
  rintro ⟨hform, hframe⟩
  rw [Settings.hasFrame, Bool.not_not, isNull_eq_true_iff] at hframe
  exact h hform hframe

lemma check_of_not_ready {form : Form} {src : Source} (h : ¬ Ready form src) :
    check (.form form) src.settings = .error .noFrame := by
  rw [Ready, Classical.not_imp, ne_eq, not_not] at h
  refine if_pos ⟨h.1, ?_⟩
  rw [Settings.hasFrame, Bool.not_not, isNull_eq_true_iff]
  exact h.2

/-- The context is the same whether the bindings come with the view or on their own. -/
lemma contextOf_eq_context (src : Source) {derives : Bool}
    (h : derives = !src.settings.hasContext) :
    contextOf src.settings (if derives then some (viewOfDefault src.store) else none)
      (if derives then some (src.prefixes.getD src.store.bindings) else src.prefixes) =
        src.context := by
  unfold Source.context contextOf
  cases hcontext : src.settings.hasContext
  · simp [h, hcontext, viewOfDefault]
  · rfl

/-- There is a context unless a term of the triples has no text to sort by. -/
lemma context_eq_error {src : Source} {f : Failure} (h : src.context = .error f) :
    ∃ x, f = .accident (.noText x) := by
  unfold Source.context contextOf at h
  split at h
  · cases h
  · simp only at h
    split at h <;> cases h
    exact ⟨_, rfl⟩

section InForm

variable (p : Processor) {form : Form} {src : Source} {options : Ref} {o : OptionMap} {t : Trace}

/-- A form that is made against a context takes that context and one call. -/
lemma conversion_against (ho : callOptions (t.held options) = .ok o)
    (hform : form.needsContext = true) {expanded : Json} {request : Json → Request}
    (hrequest : ∀ c, src.context = .ok c → Wanted src expanded form (request c)) :
    let result := Work.runAfter (do
      let context ← Work.ofExcept src.context
      return substituted src.settings (← p.ask (request context) options)) t
    ∃ made, result.2 = t.play p made ∧
      Conversion p form src expanded o t.calls made result.1 := by
  rcases hcontext : src.context with f | c
  · exact ⟨[], by simp [Work.runAfter_bind, Trace.play], .noContext hform hcontext⟩
  · have hfinished : substituted src.settings = finished form src.settings := by
      funext document
      rw [finished, if_pos hform]
    have hask : Work.runAfter (do
        let context ← Work.ofExcept (.ok c)
        return substituted src.settings (← p.ask (request context) options)) t =
        Work.runAfter (do return finished form src.settings (← p.ask (request c) options)) t := by
      rw [hfinished]
      rfl
    simp only [hask]
    rw [Work.runAfter_bind_pure, p.runAfter_ask _ ho]
    exact ⟨[⟨request c, o⟩], rfl, .asked (hrequest c hcontext)⟩

lemma conversion_inForm (hready : Ready form src) (ho : callOptions (t.held options) = .ok o)
    {view : Option View} {prefixes : Option (Entries String)}
    (hcontext : form.needsContext = true → contextOf src.settings view prefixes = src.context)
    (expanded : Json) :
    let result := (inForm p (.form form) expanded src.settings options view prefixes).runAfter t
    ∃ made, result.2 = t.play p made ∧
      Conversion p form src expanded o t.calls made result.1 := by
  rw [inForm, check_of_ready hready]
  cases form with
  | expand => exact ⟨[], rfl, .expanded rfl⟩
  | frame =>
    have hfinished (e : Except Failure Json) : e = e.map (finished .frame src.settings) := by
      cases e <;> rfl
    simp only [p.runAfter_ask (.frame expanded src.settings.frame) ho]
    rw [hfinished (Reply.outcome _ _)]
    exact ⟨[⟨.frame expanded src.settings.frame, o⟩], rfl, .asked .frame⟩
  | compact =>
    rw [hcontext rfl]
    exact conversion_against p ho rfl fun c hc => .compact hc
  | flatten =>
    rw [hcontext rfl]
    exact conversion_against p ho rfl fun c hc => .flatten hc

end InForm

/-- A trace with the options of a write, which it keeps if it comes to ask for anything. -/
def Source.start (src : Source) (form : Form) (t : Trace) : Trace :=
  if check (.form form) src.settings = .ok form then
    t.hold (.given (resolveOptions src.baseIri src.settings.options))
  else t

section Start

variable {form : Form} {src : Source}

lemma start_of_ready (h : Ready form src) (t : Trace) :
    src.start form t = t.hold (.given (resolveOptions src.baseIri src.settings.options)) :=
  if_pos (check_of_ready h)

lemma start_of_not_ready (h : ¬ Ready form src) (t : Trace) : src.start form t = t := by
  rw [Source.start, if_neg]
  rw [check_of_not_ready h]
  exact nofun

@[simp] lemma calls_start (form : Form) (src : Source) (t : Trace) :
    (src.start form t).calls = t.calls := by
  rw [Source.start]
  split <;> rfl

@[simp] lemma notices_start (form : Form) (src : Source) (t : Trace) :
    (src.start form t).notices = t.notices := by
  rw [Source.start]
  split <;> rfl

lemma isolated_of_start {t after : Trace} {made : List Call}
    (h : (src.start form t).Isolated after made) : t.Isolated after made := by
  rw [Source.start] at h
  split at h
  · obtain ⟨⟨own, hhanded, hlength, hnodup, hown⟩, hkept⟩ := h
    refine ⟨⟨own, hhanded, hlength, hnodup, fun r hr hused => hown r hr ?_⟩,
      fun r h hkeeps => hkept r h (hkeeps.hold _)⟩
    rw [Trace.refs, Trace.hold, List.map_append, List.append_assoc]
    exact (List.mem_append.mp hused).elim (List.mem_append_left _)
      fun hhanded => List.mem_append_right _ (List.mem_append_right _ hhanded)
  · exact h

end Start

/-- What is asked for a document, and how it ends. -/
lemma exists_exchange (p : Processor) (form : Form) (src : Source) (t : Trace) :
    let result := (toJson p form src).runAfter t
    ∃ made, result.2 = (src.start form t).play p made ∧
      Exchange p form src t.calls made result.1 := by
  by_cases hready : Ready form src
  · have hcontext (hform : form.needsContext = true) :=
      contextOf_eq_context src
        (show (form.needsContext && !src.settings.hasContext) = _ by rw [hform, Bool.true_and])
    have hkeeps := t.keeps_hold (.given (resolveOptions src.baseIri src.settings.options))
    rw [toJson, check_of_ready hready, start_of_ready hready]
    simp only [Work.runAfter_bind, Work.runAfter_hold, Processor.expandedForm]
    rcases hstore : Dataset.ofStore src.store with e | d
    · exact ⟨[], by simp [Trace.play], .notRdf hready hstore⟩
    · rcases ho : callOptions (.given (resolveOptions src.baseIri src.settings.options)) with a | o
      · simp only [p.runAfter_ask_of_error _ (hkeeps.held.symm ▸ ho)]
        exact ⟨[], rfl, .rejected hready hstore (rejected_iff.mpr ho)⟩
      · have hsent := sent_iff.mpr ho
        simp only [p.runAfter_ask _ (hkeeps.held.symm ▸ ho)]
        -- the first call leaves alone what the options of the second are copied from
        have hkept := hkeeps.record ⟨.fromRdf d, o⟩ (p.answer t.calls ⟨.fromRdf d, o⟩)
        have hcalls : (t.hold (.given (resolveOptions src.baseIri src.settings.options))).calls =
          t.calls := rfl
        rw [hcalls]
        rcases hreply : (p.answer t.calls ⟨.fromRdf d, o⟩).reply with v | e | a
        · obtain ⟨made, htrace, hconversion⟩ :=
            conversion_inForm p hready (hkept.held.symm ▸ ho) hcontext v
          rw [Trace.calls_record] at hconversion
          exact ⟨⟨.fromRdf d, o⟩ :: made, htrace,
            .expanded hready hstore hsent hreply hconversion⟩
        · exact ⟨[⟨.fromRdf d, o⟩], rfl, .unexpanded hready hstore hsent (by rw [hreply]; rfl)⟩
        · exact ⟨[⟨.fromRdf d, o⟩], rfl, .unexpanded hready hstore hsent (by rw [hreply]; rfl)⟩
  · rw [toJson, check_of_not_ready hready, start_of_not_ready hready]
    exact ⟨[], rfl, .noFrame hready⟩

section Replies

variable {p q : Processor} {form : Form} {src : Source} {before made : List Call}
  {outcome : Except Failure Json}

/-- Of what a processor does, only its replies count for the calls. -/
lemma Exchange.congr (h : Exchange p form src before made outcome)
    (hq : ∀ before call, (q.answer before call).reply = (p.answer before call).reply) :
    Exchange q form src before made outcome := by
  have hconversion {expanded : Json} {o : OptionMap} {before made : List Call}
      {outcome : Except Failure Json}
      (h : Conversion p form src expanded o before made outcome) :
      Conversion q form src expanded o before made outcome := by
    cases h with
    | expanded hform => exact .expanded hform
    | noContext hform h => exact .noContext hform h
    | asked h =>
      rw [← hq]
      exact .asked h
  cases h with
  | noFrame hready => exact .noFrame hready
  | notRdf hready hstore => exact .notRdf hready hstore
  | rejected hready hstore hoptions => exact .rejected hready hstore hoptions
  | unexpanded hready hstore hoptions hreply =>
    exact .unexpanded hready hstore hoptions ((hq _ _).symm ▸ hreply)
  | expanded hready hstore hoptions hreply h =>
    exact .expanded hready hstore hoptions ((hq _ _).trans hreply) (hconversion h)

end Replies

/-- **A write asks for the expanded form, and then at most once for the document in its own form,
always with the options of the write.** Each call is handed them in an object of its own, and
whatever the processor does to these objects, the options of the write are what they were, and its
calls and its end are those that come of the replies alone. -/
theorem exchange_toJson (p : Processor) (form : Form) (src : Source) (t : Trace) :
    let written := (toJson p form src).runAfter t
    ∃ made, written.2.calls = t.calls ++ made ∧
      Exchange p form src t.calls made written.1 ∧
      (∀ made' outcome, Exchange p form src t.calls made' outcome → made' = made) ∧
      made.map (·.request.name) <+: "from_rdf" :: (if form = .expand then [] else [form.name]) ∧
      t.Isolated written.2 made ∧
      (Ready form src → ∃ r ∉ t.refs,
        written.2.Keeps r (.given (resolveOptions src.baseIri src.settings.options))) ∧
      ∀ q : Processor, (∀ before call, (q.answer before call).reply = (p.answer before call).reply) →
        ((toJson q form src).runAfter t).1 = written.1 ∧
          ((toJson q form src).runAfter t).2.calls = t.calls ++ made := by
  simp only
  obtain ⟨made, htrace, h⟩ := exists_exchange p form src t
  have hisolated := (src.start form t).isolated_play p made
  rw [← htrace] at hisolated
  refine ⟨made, by rw [htrace, Trace.calls_play, calls_start], h, fun _ _ h' => (h'.unique h).1,
    h.names, isolated_of_start hisolated, fun hready => ?_, fun q hq => ?_⟩
  · rw [start_of_ready hready] at hisolated
    have hkeeps := t.keeps_hold (.given (resolveOptions src.baseIri src.settings.options))
    exact ⟨t.fresh, t.fresh_notMem_refs, hisolated.kept _ _ hkeeps⟩
  · obtain ⟨made', htrace', h'⟩ := exists_exchange q form src t
    obtain ⟨rfl, hsame⟩ := h'.unique (h.congr hq)
    exact ⟨hsame, by rw [htrace', Trace.calls_play, calls_start]⟩

/-- A processor overwrites the options of every call, and with the second call those of the first
once more. The calls are those of one that leaves them alone, and so are the options of the write. -/
theorem exchange_toJson_meddling :
    let src : Source := { store := { kind := .graph }, base := .str "http://example.org/" }
    let overwrite (n : Nat) : Edit :=
      ⟨n, fun o => o.put (.text "compactArrays") (.bool false) |>.put (.text loaderKey) .null⟩
    let p : Processor :=
      ⟨fun before call => ⟨.value (Script.echo call.request),
        (List.range (before.length + 1)).map overwrite⟩⟩
    let q := Script.processor { fromRdf := .echo }
    let o : OptionMap := [(.text "useNativeTypes", .bool true), (.text "compactArrays", .bool true),
      (.text "base", .str "http://example.org/"), (.text loaderKey, defaultLoader)]
    (toJson p .compact src).run.1 = (toJson q .compact src).run.1 ∧
      (toJson p .compact src).run.2.calls.map (·.options) = [o, o] ∧
      ∃ r, (toJson p .compact src).run.2.Keeps r
        (.given (resolveOptions src.baseIri src.settings.options)) := by
  intro src overwrite p q o
  obtain ⟨made, hcalls, -, -, -, -, hkeeps, hsame⟩ := exchange_toJson p .compact src {}
  obtain ⟨r, -, hr⟩ := hkeeps nofun
  obtain ⟨hend, -⟩ := hsame q fun before call => by
    obtain ⟨request, options⟩ := call
    cases request <;> rfl
  exact ⟨hend.symm, rfl, r, hr⟩

end LinkedJson.Document
