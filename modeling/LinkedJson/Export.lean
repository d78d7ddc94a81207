import LinkedJson.Document

/-!
Exporting a store under keyword arguments.

The arguments may name a variant, a base and an encoding; the others are settings. The bytes are
UTF-8 whatever encoding is asked for.
-/

namespace LinkedJson.Export

structure Arguments where
  variant : Json
  base : Json
  encoding : Json
  settings : Json.Object

def defaultVariant : Variant := ⟨.compact, true⟩

/-- Tells the arguments from the settings. -/
def Arguments.of (keywords : Json.Object) : Arguments where
  variant := (Entries.find? keywords "variant").getD (.str defaultVariant.name)
  base := (Entries.find? keywords "base").getD .null
  encoding := (Entries.find? keywords "encoding").getD .null
  settings := keywords.filter fun k => k.1 ≠ "variant" && k.1 ≠ "base" && k.1 ≠ "encoding"

/-- An encoding that the bytes have, or none. -/
def isUtf8 : Json → Bool
  | .null => true
  | .str s => s = "utf-8" || s = "utf8" || s = "UTF-8"
  | _ => false

/-- What is reported of the encoding. -/
def encodingNotices (encoding : Json) : List Notice :=
  if isUtf8 encoding then []
  else [.warn s!"JSON-LD is always written as UTF-8, ignoring encoding={encoding.plain}"]

/-- The text of an export. Faults in the settings come before an unknown variant. -/
def text (p : Processor) (store : Rdf.Store) (a : Arguments) : Work String := do
  Work.report (encodingNotices a.encoding)
  let (notices, settings) := Settings.ofMapping (.obj a.settings)
  Work.report notices
  let settings ← Work.ofExcept settings
  match Document.variantOf a.variant with
  | .error e => Work.configuration e
  | .ok v => Document.serialize p v { store, base := a.base, settings }

/-- Exports a store into a stream. -/
def run (p : Processor) (store : Rdf.Store) (keywords : Json.Object)
    (sink : Document.Sink UInt8) : Document.Delivery UInt8 :=
  Document.deliver Text.Utf8.encode sink (text p store (.of keywords))

/-- The caller is given the bytes and not a text. -/
def givesBytes (keywords : Json.Object) : Bool := !(Arguments.of keywords).encoding.isNull

end LinkedJson.Export
