import LinkedJson.Files.Disk
import LinkedJson.Json.Parser
import LinkedJson.Rdf.Dataset
import LinkedJson.Variant

/-!
Why no document comes about.

A failure is a fault in the settings, a failed step of the transformation, or an accident: an input
that a step was never meant to take.
-/

namespace LinkedJson

inductive ConfigurationError where
  | unknownVariant (name : String)
  /-- A setting that is not JSON text: the field, and where and how it is flawed. -/
  | invalidJson (field report : String)
  /-- A form that is none of the four, as messages show it. -/
  | unexpectedForm (shown : String)
  | noFrame
  | noGraph
  deriving DecidableEq, Repr

def ConfigurationError.message : ConfigurationError → String
  | .unknownVariant name =>
    s!"Unknown JSON-LD variant '{name}'. Supported variants: {Text.quotedList Variant.names}"
  | .invalidJson field report =>
    s!"Invalid JSON for '{field}' at {report}. " ++
      "To use a bare IRI, pass it as a quoted JSON string."
  | .unexpectedForm shown => s!"Unexpected output form: {shown}"
  | .noFrame => "No frame object found in the serialization config"
  | .noGraph => "A graph is required to derive a default context"

/-- What a processor says of its failure. It may have been given no message, and may hold or follow
on an inner error. -/
inductive ProcessorError where
  | mk (message : Option String) (type : String) (code : Option String)
    (inner followed : Option ProcessorError)
  deriving Inhabited

namespace ProcessorError

mutual

/-- Errors are compared with all that they hold and follow on. -/
def decEq (a b : ProcessorError) : Decidable (a = b) :=
  match a, b with
  | .mk m t c i f, .mk m' t' c' i' f' =>
    have := decEqOption i i'
    have := decEqOption f f'
    decidable_of_iff (m = m' ∧ t = t' ∧ c = c' ∧ i = i' ∧ f = f') (by simp)

def decEqOption (a b : Option ProcessorError) : Decidable (a = b) :=
  match a, b with
  | none, none => .isTrue rfl
  | none, some _ | some _, none => .isFalse nofun
  | some a, some b =>
    have := decEq a b
    decidable_of_iff (a = b) (by simp)

end

instance : DecidableEq ProcessorError := decEq

end ProcessorError

/-- What a step failed on: the error of a processor, or a part of the result. -/
inductive Cause where
  | processor {error : ProcessorError}
  | unserializable (what : Obstacle)
  deriving DecidableEq

/-- A failed step, with what is known of its failure. -/
structure TransformError where
  message : String
  operation : Option String := some ""
  errorType : Option String := none
  code : Option String := none
  cause : Option Cause := none
  deriving DecidableEq

/-- The text of a failed step: the step in brackets, the message, the code in parentheses. -/
def TransformError.text (e : TransformError) : String :=
  let opening := ((e.operation.filter (· ≠ "")).map fun o => "[" ++ o ++ "] ").getD ""
  let closing := ((e.code.filter (· ≠ "")).map fun c => " (" ++ c ++ ")").getD ""
  opening ++ e.message ++ closing

/-- The processor was handed a term that is not RDF. -/
def TransformError.notRdf (e : Rdf.NotRdf) : TransformError :=
  let (kind, shown) := e.term.described
  { message := s!"Cannot represent {kind} term {shown} in JSON-LD", operation := some "from_rdf" }

/-- The result holds something that cannot be written. -/
def TransformError.unserializable (what : Obstacle) : TransformError :=
  { message := "Result is not serializable as JSON: " ++ what.message
    operation := some "serialize"
    cause := some (.unserializable what) }

inductive Accident where
  /-- Settings that are no object. -/
  | settingsKind
  /-- A field that settings do not have. -/
  | unknownField (name : String)
  /-- Options that are not pairs of a key and a value. -/
  | notPairs
  | pairLength
  | keyKind
  /-- A term with no text to sort by. -/
  | noText (term : Rdf.Term)
  /-- An integer too long to be read. -/
  | tooLong (digits : Nat)
  /-- A list that the nodes of a graph do not bear out. -/
  | brokenList
  /-- A datatype for direction that does not have three parts. -/
  | directionParts
  /-- A format of serialized datasets where a dataset is given. -/
  | serializedFormat
  | formatKind
  /-- The processor's own accident, by name. -/
  | processor (kind : String)
  /-- The stream takes no more. -/
  | streamFull
  /-- A log level that is no text, or a name of something else. -/
  | levelKind
  | levelName (shown : String)
  | levelTable
  | logFileKind
  /-- A time limit that is no number, or one too large. -/
  | timeLimitKind
  | timeLimitText (text : String)
  | timeLimitSize
  /-- A path that cannot even be looked for. -/
  | refusedPath (e : Files.FileError)
  /-- A path with a null character. -/
  | nullPath
  deriving DecidableEq, Repr

inductive Failure where
  | configuration (e : ConfigurationError)
  | transform (e : TransformError)
  | accident (a : Accident)
  deriving DecidableEq

namespace Accident

/-- The text of an accident that has one. -/
def text? : Accident → Option String
  | .tooLong digits => some (Json.tooLongMessage digits)
  | .streamFull => some "No space left on device"
  | .levelName shown => some s!"Unknown level: {shown}"
  | .timeLimitText text => some s!"could not convert string to float: {Text.quoted text}"
  | .nullPath => some "embedded null byte"
  | _ => none

def message (a : Accident) : String := a.text?.getD ""

end Accident

end LinkedJson
