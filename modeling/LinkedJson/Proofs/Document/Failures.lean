import LinkedJson.Proofs.Document.Calls
import LinkedJson.Proofs.Document.Text
import LinkedJson.Proofs.Rdf.Dataset

/-!
How a write fails, and what is told of it.

Of the settings only a missing frame stops a write, before anything is done. The steps that can
fail are taking the terms of the store, a call to the processor, and making the text of the result.
The failure bears the signs of its own step and of no other.
-/

namespace LinkedJson

/-! ### Errors of the processor -/

/-- The code that is told of an error: its own if it says something, else that of the error it
holds, or of the one it follows on if it holds none. -/
inductive ToldCode : ProcessorError → Option String → Prop
  | own {message : Option String} {type code : String} {held followed : Option ProcessorError}
    (h : code ≠ "") : ToldCode (.mk message type (some code) held followed) (some code)
  | held {message own : Option String} {type : String} {held : ProcessorError}
    {followed : Option ProcessorError} (h : own = none ∨ own = some "") :
    ToldCode (.mk message type own (some held) followed) held.code
  | followed {message own : Option String} {type : String} {followed : ProcessorError}
    (h : own = none ∨ own = some "") :
    ToldCode (.mk message type own none (some followed)) followed.code
  | none {message own : Option String} {type : String} (h : own = none ∨ own = some "") :
    ToldCode (.mk message type own none none) none

def codeNote : Option String → String
  | none | some "" => ""
  | some code => " (" ++ code ++ ")"

structure Tells (e : TransformError) (function : String) (j : ProcessorError) : Prop where
  operation : e.operation = some function
  cause : e.cause = some (@Cause.processor j)
  type : e.errorType = some j.type
  code : ToldCode j e.code
  text : e.text = "[" ++ function ++ "] " ++ j.message ++ codeNote e.code

lemma TransformError.text_eq {e : TransformError} {operation : String}
    (h : e.operation = some operation) (hne : operation ≠ "") :
    e.text = "[" ++ operation ++ "] " ++ e.message ++ codeNote e.code := by
  have hnote : ((e.code.filter (· ≠ "")).map fun c => " (" ++ c ++ ")").getD "" =
      codeNote e.code := by
    rcases e.code with _ | c
    · rfl
    · by_cases hc : c = ""
      · subst hc
        rfl
      · simp [codeNote, Option.filter, hc]
  rw [text, h, hnote]
  simp [Option.filter, hne]

lemma ProcessorError.toldCode (j : ProcessorError) (operation : String) :
    ToldCode j (j.toTransformError operation).code := by
  obtain ⟨message, type, own, held, followed⟩ := j
  have hsilent (h : own = none ∨ own = some "") :
      (ProcessorError.mk message type own held followed).ownCode? = none := by
    rcases h with rfl | rfl <;> rfl
  by_cases h : own = none ∨ own = some ""
  · rw [toTransformError, hsilent h]
    rcases held with _ | held
    · rcases followed with _ | followed
      · exact .none h
      · exact .followed h
    · exact .held h
  · obtain ⟨code, rfl⟩ := Option.ne_none_iff_exists'.mp fun hnone => h (.inl hnone)
    have hne : code ≠ "" := fun hcode => h (.inr (by rw [hcode]))
    have hown :
        (ProcessorError.mk message type (some code) held followed).ownCode? = some code := by
      simp [ownCode?, ProcessorError.code, hne]
    rw [toTransformError, hown]
    exact .own hne

lemma ProcessorError.tells (j : ProcessorError) {function : String} (h : function ≠ "") :
    Tells (j.toTransformError function) function j where
  operation := rfl
  cause := rfl
  type := rfl
  code := j.toldCode function
  text := TransformError.text_eq rfl h

lemma Request.name_ne_empty (request : Request) : request.name ≠ "" := by
  cases request <;> simp [name]

namespace Document

open Json Rdf

/-! ### How a write fails -/

/-- How a write fails, after some calls: for want of a frame, on a store that is not RDF, by an
accident of its own, or at its last call. -/
inductive Fails (p : Processor) (form : Form) (src : Source) (before : List Call) :
    List Call → Failure → Prop
  | noFrame (hready : ¬ Ready form src) : Fails p form src before [] (.configuration .noFrame)
  | notRdf {x : NotRdf} (hstore : Dataset.ofStore src.store = .error x) :
    Fails p form src before [] (.transform (.notRdf x))
  | accident {made : List Call} (hreturned : p.Returned before made) (a : Accident) :
    Fails p form src before made (.accident a)
  | call (earlier : List Call) {last : Call} {f : Failure} (hreturned : p.Returned before earlier)
    (hreply : (p.answer (before ++ earlier) last).reply.outcome last.request.name = .error f) :
    Fails p form src before (earlier ++ [last]) f

def callNames (form : Form) : List String :=
  "from_rdf" :: if form = .expand then [] else [form.name]

lemma Wanted.name_eq {form : Form} {src : Source} {expanded : Json} {request : Request}
    (h : Wanted src expanded form request) : form ≠ .expand ∧ request.name = form.name := by
  cases h <;> exact ⟨by simp, rfl⟩

section Exchange

variable {p : Processor} {form : Form} {src : Source} {before made : List Call}
  {outcome : Except Failure Json}

lemma Exchange.fails (h : Exchange p form src before made outcome) {f : Failure}
    (hf : outcome = .error f) : Fails p form src before made f := by
  cases h with
  | noFrame hready =>
    cases hf
    exact .noFrame hready
  | notRdf _ hstore =>
    cases hf
    exact .notRdf hstore
  | rejected =>
    cases hf
    exact .accident Processor.returned_nil _
  | unexpanded _ _ _ hreply =>
    cases hf
    exact .call [] trivial (by rwa [List.append_nil])
  | @expanded _ d _ o _ v hreply _ _ h =>
    have hfirst : p.Returned before [⟨.fromRdf d, o⟩] := ⟨⟨v, hreply⟩, trivial⟩
    cases h with
    | expanded => cases hf
    | noContext _ hcontext =>
      cases hf
      obtain ⟨x, rfl⟩ := context_eq_error hcontext
      exact .accident hfirst _
    | asked => exact .call [⟨.fromRdf d, o⟩] hfirst (Reply.map_outcome_eq_error_iff.mp hf)

/-- A write that gives a document has made all its calls, and all returned. -/
lemma Exchange.returned_of_ok (h : Exchange p form src before made outcome) {d : Json}
    (hd : outcome = .ok d) :
    p.Returned before made ∧ made.map (·.request.name) = callNames form := by
  cases h with
  | noFrame | notRdf | rejected | unexpanded => cases hd
  | @expanded _ d _ o _ v hreply _ _ h =>
    cases h with
    | expanded hform => exact ⟨⟨⟨v, hreply⟩, trivial⟩, by rw [callNames, if_pos hform]; rfl⟩
    | noContext => cases hd
    | asked h =>
      obtain ⟨hform, hname⟩ := h.name_eq
      obtain ⟨w, hlast, -⟩ := Reply.map_outcome_eq_ok_iff.mp hd
      refine ⟨⟨⟨v, hreply⟩, ⟨w, hlast⟩, trivial⟩, ?_⟩
      rw [List.map_cons, List.map_cons, hname, callNames, if_neg hform]
      rfl

/-- A call that ends on an error is the last of a write, which fails with that error. -/
lemma Exchange.of_error_reply (h : Exchange p form src before made outcome)
    {earlier later : List Call} {call : Call} {j : ProcessorError}
    (hmade : made = earlier ++ call :: later)
    (hj : (p.answer (before ++ earlier) call).reply = .error j) :
    later = [] ∧ p.Returned before earlier ∧
      outcome = .error (.transform (j.toTransformError call.request.name)) := by
  -- calls that all returned cannot have this one among them
  have hnot (rest : List Call) : ¬ p.Returned before (earlier ++ call :: rest) := by
    intro hreturned
    obtain ⟨-, ⟨v, hv⟩, -⟩ := Processor.returned_append.mp hreturned
    rw [hj] at hv
    cases hv
  subst hmade
  rcases outcome with f | d
  · have hfails := h.fails rfl
    generalize hmade : earlier ++ call :: later = made at hfails
    cases hfails with
    | noFrame | notRdf => simp at hmade
    | accident hreturned => exact (hnot later (hmade ▸ hreturned)).elim
    | @call earlier' last _ hearlier hreply =>
      -- the write ended with the call that failed, so nothing can have come later
      rcases List.eq_nil_or_concat later with rfl | ⟨rest, x, rfl⟩
      · obtain ⟨rfl, hcall⟩ := List.append_inj' hmade rfl
        obtain rfl := List.singleton_injective hcall
        rw [hj] at hreply
        exact ⟨rfl, hearlier, hreply.symm⟩
      · have hsplit : (earlier ++ call :: rest) ++ [x] = earlier' ++ [last] := by
          rw [← hmade]
          simp
        obtain ⟨rfl, -⟩ := List.append_inj' hsplit rfl
        exact (hnot rest hearlier).elim
  · exact (hnot later (h.returned_of_ok rfl).1).elim

end Exchange

/-! ### Faults of the settings -/

lemma not_ready_iff {form : Form} {src : Source} :
    ¬ Ready form src ↔ form = .frame ∧ src.settings.frame = .null := by
  rw [Ready, Classical.not_imp, ne_eq, not_not]

/-- Nothing but a missing frame is a fault of the settings. -/
lemma Fails.noFrame_of_configuration {p : Processor} {form : Form} {src : Source}
    {before made : List Call} {e : ConfigurationError}
    (h : Fails p form src before made (.configuration e)) : ¬ Ready form src ∧ e = .noFrame := by
  cases h with
  | noFrame hready => exact ⟨hready, rfl⟩
  | call _ _ hreply => exact (Reply.outcome_ne_configuration e hreply).elim

lemma toJson_of_not_ready {form : Form} {src : Source} (h : ¬ Ready form src) (p : Processor) :
    toJson p form src = Work.configuration .noFrame := by
  rw [toJson, check_of_not_ready h]

/-- **A write meets a fault of the settings exactly if it lacks the frame of its form.** It then
does so whatever the store and the processor, before anything is done with them. -/
theorem toJson_configuration_iff (p : Processor) (v : Variant) (src : Source) (t : Trace) :
    let built := (toJson p v.form src).runAfter t
    ((∃ e, built.1 = .error (.configuration e)) ↔ v.form = .frame ∧ src.settings.frame = .null) ∧
    ∀ e, built.1 = .error (.configuration e) →
      e = .noFrame ∧ built.2 = t ∧
        ∀ q store, toJson q v.form { src with store } = Work.configuration .noFrame := by
  obtain ⟨made, -, hexchange⟩ := exists_exchange p v.form src t
  refine ⟨?_, fun e he => ?_⟩
  · rw [← not_ready_iff]
    constructor
    · rintro ⟨e, he⟩
      exact (hexchange.fails he).noFrame_of_configuration.1
    · intro hready
      exact ⟨.noFrame, by rw [toJson_of_not_ready hready]; rfl⟩
  · obtain ⟨hready, rfl⟩ := (hexchange.fails he).noFrame_of_configuration
    exact ⟨rfl, by rw [toJson_of_not_ready hready]; rfl,
      fun q store => toJson_of_not_ready (show ¬ Ready v.form { src with store } from hready) q⟩

/-- A store that is not RDF does not hide that there is no frame. -/
theorem toJson_configuration_odd :
    let t : Triple := ⟨.var "s", .iri "http://example.org/name", .formula "o"⟩
    let src : Source := { store := ({ kind := .graph } : Store).add t none }
    (∃ x, Dataset.ofStore src.store = .error x) ∧
      (toJson (Script.processor {}) .frame src).runAfter {} =
        (.error (.configuration .noFrame), {}) := by
  intro t src
  obtain ⟨hiff, hfault⟩ := toJson_configuration_iff (Script.processor {}) ⟨.frame, true⟩ src {}
  obtain ⟨e, he⟩ := hiff.mpr ⟨rfl, rfl⟩
  obtain ⟨rfl, htrace, -⟩ := hfault e he
  exact ⟨⟨_, rfl⟩, Prod.ext he htrace⟩

/-! ### Failed steps -/

/-- The steps in which a write can fail: taking the terms of the store, a call to the processor,
and making the text of the result. -/
inductive Step where
  | terms
  | call
  | text

/-- The signs of the step in which a write failed, of the calls that it made after a trace. -/
inductive FailedAt (p : Processor) (v : Variant) (src : Source) (t : Trace) (made : List Call)
    (e : TransformError) : Step → Prop
  | terms (operation : e.operation = some "from_rdf") (cause : e.cause = none) (calls : made = [])
    (odd : ∃ q ∈ src.store.allQuads, ∃ x ∈ q.triple.terms, x.isRdf = false) :
    FailedAt p v src t made e .terms
  | call {earlier : List Call} {last : Call} {j : ProcessorError}
    (calls : made = earlier ++ [last])
    (reply : (p.answer (t.calls ++ earlier) last).reply = .error j)
    (tells : Tells e last.request.name j)
    (notice : ∃ n : Notice, n.level = .error ∧
      ((serialize p v src).runAfter t).2.notices = t.notices ++ [n]) :
    FailedAt p v src t made e .call
  | text (operation : e.operation = some "serialize")
    (calls : made.map (·.request.name) = callNames v.form)
    (returned : p.Returned t.calls made) {d part : Json}
    (result : ((toJson p v.form src).runAfter t).1 = .ok d) (hpart : Part part d)
    (unwritable : Unwritable part) : FailedAt p v src t made e .text

variable {p : Processor} {v : Variant} {src : Source} {t : Trace} {made : List Call}

lemma failedAt_terms {x : NotRdf} (hstore : Dataset.ofStore src.store = .error x)
    (hmade : made = []) : FailedAt p v src t made (.notRdf x) .terms :=
  .terms rfl rfl hmade (exists_ofStore_eq_error_iff.mp ⟨x, hstore⟩)

lemma failedAt_call {earlier : List Call} {last : Call} {j : ProcessorError}
    (hplay : ((toJson p v.form src).runAfter t).2 = (src.start v.form t).play p (earlier ++ [last]))
    (hearlier : p.Returned t.calls earlier)
    (hreply : (p.answer (t.calls ++ earlier) last).reply = .error j) :
    FailedAt p v src t (earlier ++ [last]) (j.toTransformError last.request.name) .call := by
  refine .call rfl hreply (j.tells last.request.name_ne_empty)
    ⟨j.notice last.request.name, rfl, ?_⟩
  have hreturned : p.Returned (src.start v.form t).calls earlier := by rwa [calls_start]
  rw [runAfter_serialize, hplay, Trace.play_append, Trace.play, Trace.play, Trace.notices_record,
    Trace.calls_play, calls_start, hreply, Trace.notices_play_of_returned hreturned,
    notices_start]
  rfl

lemma serialize_eq_error_iff {f : Failure} :
    ((serialize p v src).runAfter t).1 = .error f ↔
      ((toJson p v.form src).runAfter t).1 = .error f ∨
        ∃ d e, ((toJson p v.form src).runAfter t).1 = .ok d ∧ render v d = .error e ∧
          f = .transform e := by
  rw [runAfter_serialize]
  rcases ((toJson p v.form src).runAfter t).1 with f' | d
  · simp [Except.bind]
  · rcases hrender : render v d with e | s <;>
      simp [Except.bind, Except.mapError, hrender, eq_comm]

lemma failedAt_text {d : Json} {e : TransformError}
    (h : Exchange p v.form src t.calls made ((toJson p v.form src).runAfter t).1)
    (hd : ((toJson p v.form src).runAfter t).1 = .ok d) (hrender : render v d = .error e) :
    FailedAt p v src t made e .text := by
  obtain ⟨hreturned, hnames⟩ := h.returned_of_ok hd
  obtain ⟨part, hpart, hunwritable⟩ := exists_render_eq_error_iff.mp ⟨e, hrender⟩
  exact .text (operation_of_render hrender) hnames hreturned hd hpart hunwritable

/-- No failure bears the signs of two steps. -/
lemma FailedAt.unique {e : TransformError} {a b : Step} (ha : FailedAt p v src t made e a)
    (hb : FailedAt p v src t made e b) : a = b := by
  have hname (request : Request) : some request.name ≠ some "serialize" := by
    cases request <;> simp [Request.name]
  cases ha with
  | terms hoperation _ hmade =>
    cases hb with
    | terms => rfl
    | call hmade' => simp [hmade] at hmade'
    | text hoperation' => simp [hoperation] at hoperation'
  | call hmade _ htells =>
    cases hb with
    | terms _ _ hmade' => simp [hmade] at hmade'
    | call => rfl
    | text hoperation => exact (hname _ (htells.operation.symm.trans hoperation)).elim
  | text hoperation =>
    cases hb with
    | terms hoperation' => simp [hoperation] at hoperation'
    | call _ _ htells => exact (hname _ (htells.operation.symm.trans hoperation)).elim
    | text => rfl

lemma exists_failedAt {e : TransformError}
    (hplay : ((toJson p v.form src).runAfter t).2 = (src.start v.form t).play p made)
    (h : Exchange p v.form src t.calls made ((toJson p v.form src).runAfter t).1)
    (he : ((serialize p v src).runAfter t).1 = .error (.transform e)) :
    ∃ step, FailedAt p v src t made e step := by
  rcases serialize_eq_error_iff.mp he with hbuilt | ⟨d, e', hbuilt, hrender, heq⟩
  · cases h.fails hbuilt with
    | notRdf hstore => exact ⟨.terms, failedAt_terms hstore rfl⟩
    | call _ hearlier hlast =>
      obtain ⟨j, hreply, rfl⟩ := Reply.outcome_eq_transform_iff.mp hlast
      exact ⟨.call, failedAt_call hplay hearlier hreply⟩
  · cases heq
    exact ⟨.text, failedAt_text h hbuilt hrender⟩

/-- **A write that fails on a step bears the signs of that step alone.** A term that is not RDF
makes it fail before any call, an error of the processor at the call that raised it, and a part
that cannot be written at the text. -/
theorem serialize_failedAt (p : Processor) (v : Variant) (src : Source) (t : Trace) :
    let written := (serialize p v src).runAfter t
    ∃ made, written.2.calls = t.calls ++ made ∧
      (∀ e, written.1 = .error (.transform e) → ∃! step, FailedAt p v src t made e step) ∧
      (check (.form v.form) src.settings = .ok v.form →
        (∃ q ∈ src.store.allQuads, ∃ x ∈ q.triple.terms, x.isRdf = false) →
        ∃ e, written.1 = .error (.transform e) ∧ FailedAt p v src t made e .terms) ∧
      (∀ earlier call later j, made = earlier ++ call :: later →
        (p.answer (t.calls ++ earlier) call).reply = .error j →
        later = [] ∧ ∃ e, written.1 = .error (.transform e) ∧ FailedAt p v src t made e .call) ∧
      ∀ d part, ((toJson p v.form src).runAfter t).1 = .ok d → Part part d → Unwritable part →
        ∃ e, written.1 = .error (.transform e) ∧ FailedAt p v src t made e .text := by
  obtain ⟨made, hplay, h⟩ := exists_exchange p v.form src t
  simp only
  refine ⟨made, ?_, fun e he => ?_, fun hcheck hodd => ?_, fun earlier call later j hmade hj => ?_,
    fun d part hd hpart hunwritable => ?_⟩
  · rw [runAfter_serialize, hplay, Trace.calls_play, calls_start]
  · obtain ⟨step, hstep⟩ := exists_failedAt hplay h he
    exact ⟨step, hstep, fun _ hother => hother.unique hstep⟩
  · obtain ⟨x, hstore⟩ := exists_ofStore_eq_error_iff.mpr hodd
    have hready : Ready v.form src := by
      by_contra hnot
      rw [check_of_not_ready hnot] at hcheck
      cases hcheck
    obtain ⟨hmade, hbuilt⟩ := h.unique (.notRdf hready hstore)
    exact ⟨_, serialize_eq_error_iff.mpr (.inl hbuilt), failedAt_terms hstore hmade⟩
  · obtain ⟨rfl, hearlier, hbuilt⟩ := h.of_error_reply hmade hj
    subst hmade
    exact ⟨rfl, _, serialize_eq_error_iff.mpr (.inl hbuilt), failedAt_call hplay hearlier hj⟩
  · obtain ⟨e, hrender⟩ := exists_render_eq_error_iff.mpr ⟨part, hpart, hunwritable⟩
    exact ⟨e, serialize_eq_error_iff.mpr (.inr ⟨d, e, hd, hrender, rfl⟩),
      failedAt_text h hd hrender⟩

/-- A compaction that fails without a code of its own tells of that of the error it holds. -/
theorem serialize_failedAt_held :
    let held : ProcessorError :=
      .mk (some "No loader.") "jsonld.LoadDocumentError" (some "loading remote context failed") none
        none
    let j : ProcessorError := .mk (some "Not compacted.") "jsonld.CompactError" none held none
    let p := Script.processor { fromRdf := .echo, compact := .fail j }
    let src : Source := { store := { kind := .graph } }
    ∃ made e, ((serialize p ⟨.compact, true⟩ src).runAfter {}).1 = .error (.transform e) ∧
      FailedAt p ⟨.compact, true⟩ src {} made e .call ∧
      e.text = "[compact] Not compacted. (loading remote context failed)" := by
  intro held j p src
  obtain ⟨made, hcalls, -, -, hcall, -⟩ := serialize_failedAt p ⟨.compact, true⟩ src {}
  obtain ⟨-, e, he, hfailed⟩ := hcall [_] _ [] j hcalls.symm rfl
  exact ⟨made, e, he, hfailed, by cases he; decide⟩

end Document

end LinkedJson
