import LinkedJson.Context
import LinkedJson.Failure
import LinkedJson.Notice

/-!
Settings for writing a document.

Values are kept as they are given. Settings that come as a mapping of keys may use either of two
names for a field, and give some of the fields as JSON text.
-/

namespace LinkedJson

structure Settings where
  baseIri : Json := .null
  context : Json := .null
  /-- What replaces the context of the finished document; a given null counts. -/
  contextSubstitution : Option Json := none
  frame : Json := .null
  options : Json := .null
  preferPrefixed : Json := .bool false
  sortTriples : Json := .bool false
  deriving Inhabited

namespace Settings

inductive Field where
  | baseIri
  | context
  | contextSubstitution
  | frame
  | options
  | preferPrefixed
  | sortTriples
  deriving DecidableEq, Repr

namespace Field

def all : List Field :=
  [.baseIri, .context, .contextSubstitution, .frame, .options, .preferPrefixed, .sortTriples]

def name : Field → String
  | .baseIri => "base_uri"
  | .context => "context"
  | .contextSubstitution => "context_substitution"
  | .frame => "frame"
  | .options => "options"
  | .preferPrefixed => "prefer_prefixed_properties"
  | .sortTriples => "sort_triples"

/-- The second name of a field. -/
def symbol? : Field → Option String
  | .context => some "JSONLD_CONTEXT"
  | .contextSubstitution => some "JSONLD_CONTEXT_SUBSTITUTION"
  | .frame => some "JSONLD_FRAME"
  | .options => some "JSONLD_OPTIONS"
  | .preferPrefixed => some "JSONLD_PREFER_PREFIXED_PROPS"
  | .baseIri | .sortTriples => none

def ofName? (s : String) : Option Field := all.find? (·.name = s)

/-- The field that a key names, by either of its names. -/
def ofKey? (s : String) : Option Field := (all.find? (·.symbol? = some s)).or (ofName? s)

/-- The field may be given as JSON text. -/
def isJsonText : Field → Bool
  | .context | .contextSubstitution | .frame => true
  | _ => false

def isFlag : Field → Bool
  | .preferPrefixed | .sortTriples => true
  | _ => false

end Field

def set (s : Settings) (f : Field) (v : Json) : Settings :=
  match f with
  | .baseIri => { s with baseIri := v }
  | .context => { s with context := v }
  | .contextSubstitution => { s with contextSubstitution := some v }
  | .frame => { s with frame := v }
  | .options => { s with options := v }
  | .preferPrefixed => { s with preferPrefixed := v }
  | .sortTriples => { s with sortTriples := v }

def hasContext (s : Settings) : Bool := !s.context.isNull

def hasContextSubstitution (s : Settings) : Bool := s.contextSubstitution.isSome

def hasFrame (s : Settings) : Bool := !s.frame.isNull

/-- How a context is derived under the settings. -/
def contextOptions (s : Settings) : Context.Options :=
  ⟨s.preferPrefixed.truthy, s.sortTriples.truthy⟩

/-- What is reported of settings when they are made: options that are no object. -/
def notices (s : Settings) : List Notice :=
  if s.options.isNull || s.options.isObject then []
  else [.warn <| s!"Processor options of type {s.options.kindName} are passed through " ++
    "unchanged; the JSON-LD processor expects a dict"]

/-- Settings with fields replaced by name. -/
def replace (s : Settings) (fields : Json.Object) : Except Accident Settings :=
  fields.foldlM (fun s f =>
    match Field.ofName? f.1 with
    | some field => .ok (s.set field f.2)
    | none => .error (.unknownField f.1)) s

/-- Settings with fields replaced, and what is reported of them. -/
def revise (s : Settings) (fields : Json.Object) : List Notice × Except Failure Settings :=
  match s.replace fields with
  | .ok s => (s.notices, .ok s)
  | .error a => ([], .error (.accident a))

/-- The JSON value of a text for a field. -/
def parseText (field text : String) : Except Failure Json :=
  match Json.parse text with
  | .ok v => .ok v
  | .error (.flaw what rest) =>
    .error (.configuration (.invalidJson field (what.report rest text.toList)))
  | .error (.tooLong digits) => .error (.accident (.tooLong digits))

/-- The value of a field that a mapping gives. -/
def fieldValue (f : Field) (v : Json) : Except Failure Json :=
  match f.isJsonText, v with
  | true, .str text => parseText f.name text
  | _, v => .ok (if f.isFlag then .bool v.truthy else v)

/-- Sets the fields that the keys of a mapping name, in order. Keys that name none are reported
and passed over. -/
def setKeys (s : Settings) (reported : List Notice) :
    List (String × Json) → List Notice × Except Failure Settings
  | [] => (reported ++ s.notices, .ok s)
  | (key, v) :: rest =>
    match Field.ofKey? key with
    | none =>
      setKeys s (reported ++ [.warn s!"Ignoring unknown serialization setting: {key}"]) rest
    | some f =>
      match fieldValue f v with
      | .ok v => setKeys (s.set f v) reported rest
      | .error e => (reported, .error e)

/-- The settings of a mapping, with what is reported of it. Nothing, or an empty one, gives the
defaults. -/
def ofMapping (mapping : Json) : List Notice × Except Failure Settings :=
  if !mapping.truthy then ([], .ok {})
  else match mapping with
    | .obj fields => setKeys {} [] fields
    | _ => ([], .error (.accident .settingsKind))

end Settings

end LinkedJson
