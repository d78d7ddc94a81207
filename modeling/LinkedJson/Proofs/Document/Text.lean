import LinkedJson.Document
import LinkedJson.Processor.Script
import LinkedJson.Proofs.Json.Names
import LinkedJson.Proofs.Json.RoundTrip
import LinkedJson.Proofs.Json.Spacing
import LinkedJson.Proofs.Processor

/-!
The texts of documents.

A text is a JSON text as far as its numbers are finite. It is read back as the document, and the
two layouts of a document differ only in space.
-/

namespace LinkedJson.Document

open Json Rdf

/-! ### Rendering -/

lemma render_of_obstacle {d : Json} {what : Obstacle} (h : d.obstacle? = some what) (v : Variant) :
    render v d = .error (.unserializable what) := by
  rw [render, text, h]

lemma render_of_writable {d : Json} (h : d.obstacle? = none) (v : Variant) :
    render v d = .ok (String.ofList (print (layout v) 0 d ++ ['\n'])) := by
  rw [render, text, h]
  simp

/-- Writing builds the document and renders it. -/
lemma runAfter_serialize (p : Processor) (v : Variant) (src : Source) (t : Trace) :
    let built := (toJson p v.form src).runAfter t
    (serialize p v src).runAfter t =
      (built.1.bind fun d => (render v d).mapError .transform, built.2) := by
  rw [serialize, Work.runAfter_bind]
  rcases (toJson p v.form src).runAfter t with ⟨f | d, t'⟩
  · rfl
  · rcases h : render v d with e | s <;> simp [h, Except.bind, Except.mapError]

/-! ### JSON texts -/

lemma exists_render_eq_error_iff {v : Variant} {d : Json} :
    (∃ e, render v d = .error e) ↔ ∃ part, Part part d ∧ Unwritable part := by
  have hpart : (∃ part, Part part d ∧ Unwritable part) ↔ d.obstacle? ≠ none := by
    rw [ne_eq, obstacle?_eq_none_iff]
    push Not
    rfl
  rw [hpart]
  rcases hobstacle : d.obstacle? with _ | what
  · simp [render_of_writable hobstacle]
  · simp [render_of_obstacle hobstacle]

lemma operation_of_render {v : Variant} {d : Json} {e : TransformError}
    (h : render v d = .error e) : e.operation = some "serialize" := by
  rcases hobstacle : d.obstacle? with _ | what
  · rw [render_of_writable hobstacle] at h
    cases h
  · rw [render_of_obstacle hobstacle] at h
    cases h
    rfl

lemma render_eq_ok {v : Variant} {d : Json} {s : String} (h : render v d = .ok s) :
    s = String.ofList (print (layout v) 0 d ++ ['\n']) := by
  rcases hobstacle : d.obstacle? with _ | what
  · exact (Except.ok.inj ((render_of_writable hobstacle v).symm.trans h)).symm
  · rw [render_of_obstacle hobstacle] at h
    cases h

/-- **Rendering fails on what cannot be written, a part that is not JSON or too long an integer, and
otherwise gives a JSON text exactly if all doubles are finite.** The names of the others stand in
the text outside of strings, and so in what a write gives. -/
theorem document_render_iff (v : Variant) (d : Json) :
    ((∃ e, render v d = .error e) ↔ ∃ part, Part part d ∧ Unwritable part) ∧
    (∀ e, render v d = .error e → e.operation = some "serialize") ∧
    ∀ s, render v d = .ok s →
      (Grammar.Document s.toList ↔ Finite d) ∧ (Nameless s.toList ↔ Finite d) ∧
      ∀ p src t, ((toJson p v.form src).runAfter t).1 = .ok d →
        ((serialize p v src).runAfter t).1 = .ok s := by
  refine ⟨exists_render_eq_error_iff, fun e he => operation_of_render he, fun s hs => ?_⟩
  obtain rfl := render_eq_ok hs
  refine ⟨?_, ?_, fun p src t hd => ?_⟩
  · rw [String.toList_ofList]
    exact document_print_iff (layout v) d
  · rw [String.toList_ofList]
    exact nameless_print_iff (layout v) d
  · rw [runAfter_serialize]
    simp only [hd, Except.bind, hs, Except.mapError]

/-- A literal of JSON content that is not a number is written by its name. -/
theorem not_document_serialize_nan :
    let node (name : String) : Term := .iri ("http://example.org/" ++ name)
    let t : Triple := ⟨node "s", node "p", .literal "NaN" (.datatype rdfJson)⟩
    let src : Source := { store := ({ kind := .graph } : Store).add t none }
    ∃ s, (serialize (Script.processor {}) ⟨.expand, false⟩ src).run.1 = .ok s ∧
      ¬ Grammar.Document s.toList := by
  refine ⟨"[\x7b\"@id\":\"http://example.org/s\",\"http://example.org/p\":" ++
    "[\x7b\"@value\":NaN,\"@type\":\"@json\"\x7d]\x7d]\n", by decide +kernel, fun h => ?_⟩
  exact (nameless_of_document h).2 'N' (by decide +kernel) (by decide)

/-! ### Reading back -/

lemma obstacle?_of_readable {d : Json} (h : Readable d) : d.obstacle? = none := by
  rw [obstacle?_eq_none_iff]
  intro part hpart hunwritable
  induction h with
  | arr _ ih =>
    cases hpart with
    | self => cases hunwritable
    | item hv hp => exact ih _ hv hp
  | obj _ _ ih =>
    cases hpart with
    | self => cases hunwritable
    | field hf hp => exact ih _ hf hp
  | int hn =>
    cases hpart
    cases hunwritable with
    | int hlong => exact absurd hlong (not_lt.mpr hn)
  | _ =>
    cases hpart
    cases hunwritable

/-- **A readable document is read back from its text, whatever the layout and the field that the
text is given for.** -/
theorem parseText_render (v : Variant) (field : String) {d : Json} (h : Readable d) :
    ∃ s, render v d = .ok s ∧ Settings.parseText field s = .ok d := by
  have hfeed : Grammar.Space ['\n'] := by simp [Grammar.Space, isSpace]
  refine ⟨_, render_of_writable (obstacle?_of_readable h) v, ?_⟩
  rw [Settings.parseText, parse, String.toList_ofList, parseChars_print h (layout v) hfeed]

/-- A document with empty containers, a negative number, and marks and controls in its strings. -/
theorem parseText_render_nested :
    let items : Json := .arr [.int (-120), .str "a\\b\n\u0001é", .null]
    let d : Json := .obj [("\"@id\"", items), ("", .obj []), ("list", .arr [])]
    Readable d ∧ ∃ s, render ⟨.frame, true⟩ d = .ok s ∧ Settings.parseText "frame" s = .ok d := by
  intro items d
  have hitems : Readable items := by
    refine .arr fun v hv => ?_
    simp only [List.mem_cons, List.not_mem_nil, or_false] at hv
    rcases hv with rfl | rfl | rfl
    · exact .int (by decide)
    · exact .str _
    · exact .null
  have hd : Readable d := by
    refine .obj (by decide) fun f hf => ?_
    simp only [List.mem_cons, List.not_mem_nil, or_false] at hf
    rcases hf with rfl | rfl | rfl
    · exact hitems
    · exact .obj (by decide) (by simp)
    · exact .arr (by simp)
  exact ⟨hd, parseText_render ⟨.frame, true⟩ "frame" hd⟩

/-! ### Layouts -/

/-- An indented text and one on one line that differ only in space. -/
structure Relaid (indented flat : String) : Prop where
  /-- Without the spaces and line feeds outside of strings, and with a line feed at its end, the
  indented text is the other. -/
  unspaced : unspaced indented.toList ++ ['\n'] = flat.toList
  line : ∃ line, flat.toList = line ++ ['\n'] ∧ NoControl line
  last : ∃ lines, indented.toList = lines ++ ['\n'] ∧ lines.getLast? ≠ some '\n'

inductive Alike {ε : Type} : Except ε String → Except ε String → Prop
  | error (e : ε) : Alike (.error e) (.error e)
  | ok {indented flat : String} (h : Relaid indented flat) : Alike (.ok indented) (.ok flat)

lemma Alike.mapError {ε ε' : Type} {x y : Except ε String} (h : Alike x y) (f : ε → ε') :
    Alike (x.mapError f) (y.mapError f) := by
  cases h with
  | error e => exact .error (f e)
  | ok h => exact .ok h

lemma relaid_print (d : Json) : Relaid (String.ofList (print .pretty 0 d ++ ['\n']))
    (String.ofList (print .flat 0 d ++ ['\n'])) where
  unspaced := by
    have hfeed : Json.unspaced ['\n'] = [] := rfl
    rw [String.toList_ofList, String.toList_ofList, unspaced_append (balanced_print .pretty 0 d),
      unspaced_print_pretty d 0 0, hfeed, List.append_nil]
  line := ⟨_, String.toList_ofList, noControl_print_flat d 0⟩
  last := ⟨_, String.toList_ofList, getLast?_print_ne .pretty 0 d⟩

lemma alike_render (form : Form) (d : Json) :
    Alike (render ⟨form, true⟩ d) (render ⟨form, false⟩ d) := by
  rcases h : d.obstacle? with _ | what
  · rw [render_of_writable h, render_of_writable h]
    exact .ok (relaid_print d)
  · rw [render_of_obstacle h, render_of_obstacle h]
    exact .error _

/-- **The two layouts of a form differ only in space.** They fail alike, and writes in them ask the
processor the same. -/
theorem alike_layouts (form : Form) :
    (∀ d, Alike (render ⟨form, true⟩ d) (render ⟨form, false⟩ d)) ∧
    ∀ p src t,
      let indented := (serialize p ⟨form, true⟩ src).runAfter t
      let flat := (serialize p ⟨form, false⟩ src).runAfter t
      indented.2 = flat.2 ∧ Alike indented.1 flat.1 := by
  refine ⟨alike_render form, fun p src t => ?_⟩
  simp only [runAfter_serialize, true_and]
  rcases ((toJson p form src).runAfter t).1 with f | d
  · exact .error f
  · exact (alike_render form d).mapError Failure.transform

end LinkedJson.Document
