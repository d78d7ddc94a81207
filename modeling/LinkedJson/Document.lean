import LinkedJson.Json.Shown
import LinkedJson.Processor
import LinkedJson.Text.Utf8

/-!
Writing the document of a store.

The document is complete before any of it is written, so work that fails leaves no part of a
document behind. Faults in the settings come before the processor is asked anything.
-/

namespace LinkedJson.Document

open LinkedJson.Rdf

/-! ### Forms -/

/-- A form, or a value that is none. -/
inductive FormChoice where
  | form (f : Form)
  | other (v : Json)

/-- The form, if it can be written under the settings. -/
def check (choice : FormChoice) (s : Settings) : Except ConfigurationError Form :=
  match choice with
  | .other v => .error (.unexpectedForm v.shown)
  | .form f => if f = .frame ∧ !s.hasFrame then .error .noFrame else .ok f

/-- The triples and bindings from which a context can be derived. -/
structure View where
  triples : List Triple
  bindings : Bindings

def viewOfDefault (s : Store) : View := ⟨s.defaultTriples, s.bindings⟩

def viewOfGraph (s : Store) : View := ⟨s.graphTriples, s.bindings⟩

/-- The context of the settings, or else one derived from a view. -/
def contextOf (s : Settings) (view : Option View) (prefixes : Option (Entries String)) :
    Except Failure Json :=
  if s.hasContext then .ok s.context
  else match view with
    | none => .error (.configuration .noGraph)
    | some view =>
      match Context.derive s.contextOptions (prefixes.getD view.bindings) view.triples with
      | .ok c => .ok (.obj c)
      | .error e => .error (.accident (.noText e.term))

/-- Replaces the context of a document that is an object with a context, in its place. -/
def substituteContext (document substitution : Json) : Json :=
  match document with
  | .obj fields =>
    if Entries.has fields "@context" then .obj (Entries.put fields "@context" substitution)
    else document
  | _ => document

/-- The replacement leaves the document as it is. -/
def keepsContext (document : Json) : Bool := (document.field? "@context").isNone

def substituted (s : Settings) (document : Json) : Json :=
  match s.contextSubstitution with
  | some substitution => substituteContext document substitution
  | none => document

/-- What is asked for a form that is written against a context. -/
def against (form : Form) (expanded context : Json) : Request :=
  if form = .compact then .compact expanded context else .flatten expanded context

/-- The document in a form, from its expanded form. -/
def inForm (p : Processor) (choice : FormChoice) (expanded : Json) (s : Settings) (options : Ref)
    (view : Option View) (prefixes : Option (Entries String)) : Work Json := do
  match check choice s with
  | .error e => Work.configuration e
  | .ok .expand => return expanded
  | .ok .frame => p.ask (.frame expanded s.frame) options
  | .ok form =>
    if !form.needsContext then Work.configuration (.unexpectedForm form.shown)
    else
      let context ← Work.ofExcept (contextOf s view prefixes)
      return substituted s (← p.ask (against form expanded context) options)

/-! ### Documents -/

/-- What a document is made from. -/
structure Source where
  store : Store
  prefixes : Option (Entries String) := none
  /-- Goes before the base of the settings. -/
  base : Json := .null
  settings : Settings := {}

def Source.baseIri (src : Source) : Json :=
  if src.base.isNull then src.settings.baseIri else src.base

/-- The document of a source in a form. -/
def toJson (p : Processor) (form : Form) (src : Source) : Work Json := do
  match check (.form form) src.settings with
  | .error e => Work.configuration e
  | .ok _ =>
    let derives := form.needsContext && !src.settings.hasContext
    let view := if derives then some (viewOfDefault src.store) else none
    let prefixes := if derives then some (src.prefixes.getD src.store.bindings) else src.prefixes
    let options ← Work.hold (resolveOptions src.baseIri src.settings.options)
    let expanded ← p.expandedForm src.store options
    inForm p (.form form) expanded src.settings options view prefixes

def layout (v : Variant) : Json.Layout := if v.pretty then .pretty else .flat

/-- The text of a document: one line feed ends it. -/
def render (v : Variant) (document : Json) : Except TransformError String :=
  match document.text (layout v) with
  | .ok text => .ok (text ++ "\n")
  | .error what => .error (.unserializable what)

def serialize (p : Processor) (v : Variant) (src : Source) : Work String := do
  match render v (← toJson p v.form src) with
  | .ok text => return text
  | .error e => throw (.transform e)

/-! ### Streams -/

/-- A stream that has taken some items and may take no more. -/
structure Sink (α : Type) where
  content : List α := []
  full : Bool := false

def Sink.take? (sink : Sink α) (items : List α) : Option (Sink α) :=
  if sink.full then none else some { sink with content := sink.content ++ items }

/-- The end of work whose result goes to a stream. -/
structure Delivery (α : Type) where
  outcome : Except Failure Unit
  trace : Trace
  sink : Sink α

/-- Hands a finished text to a stream. -/
def deliver (encode : String → List α) (sink : Sink α) (w : Work String) : Delivery α :=
  match w.run with
  | (.error f, trace) => ⟨.error f, trace, sink⟩
  | (.ok text, trace) =>
    match sink.take? (encode text) with
    | some sink => ⟨.ok (), trace, sink⟩
    | none => ⟨.error (.accident .streamFull), trace, sink⟩

def write (p : Processor) (v : Variant) (src : Source) (sink : Sink Char) : Delivery Char :=
  deliver String.toList sink (serialize p v src)

def writeBinary (p : Processor) (v : Variant) (src : Source) (sink : Sink UInt8) :
    Delivery UInt8 :=
  deliver Text.Utf8.encode sink (serialize p v src)

/-! ### Names -/

/-- The variant that a value names. -/
def variantOf (name : Json) : Except ConfigurationError Variant :=
  match Variant.ofName? name.plain with
  | some v => .ok v
  | none => .error (.unknownVariant name.plain)

/-- A writer of one variant, as messages show it. -/
def writerName (v : Variant) : String := "JsonLDWriter(" ++ Text.quoted v.name ++ ")"

end LinkedJson.Document
