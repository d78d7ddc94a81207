import LinkedJson.Text.Blank
import LinkedJson.Text.Case
import LinkedJson.Text.Quoted

/-!
Document forms, and the variants in which a document is written: a form and a layout.
-/

namespace LinkedJson

inductive Form where
  | compact
  | expand
  | flatten
  | frame
  deriving DecidableEq, Repr

namespace Form

def all : List Form := [.compact, .expand, .flatten, .frame]

def name : Form → String
  | .compact => "compact"
  | .expand => "expand"
  | .flatten => "flatten"
  | .frame => "frame"

def ofName? (s : String) : Option Form := all.find? (·.name = s)

/-- A form, as messages show it. -/
def shown (f : Form) : String :=
  "<OutputForm." ++ String.ofList (f.name.toList.map Char.toUpper) ++ ": '" ++ f.name ++ "'>"

/-- The form is written against a context. -/
def needsContext : Form → Bool
  | .compact | .flatten => true
  | .expand | .frame => false

end Form

structure Variant where
  form : Form
  pretty : Bool
  deriving DecidableEq, Repr

namespace Variant

def all : List Variant := Form.all.flatMap fun f => [⟨f, true⟩, ⟨f, false⟩]

def label (v : Variant) : String := v.form.name ++ if v.pretty then "-pretty" else "-flat"

/-- The full name of a variant. -/
def name (v : Variant) : String := "jsonld-" ++ v.label

/-- The name of a variant among constants. -/
def constant (v : Variant) : String :=
  String.ofList (v.label.toList.map fun c => if c = '-' then '_' else c.toUpper)

/-- Short names. -/
def aliases : List (String × Variant) := [
  ("jsonld", ⟨.compact, true⟩), ("json-ld", ⟨.compact, true⟩),
  ("jsonld-pretty", ⟨.compact, true⟩), ("jsonld-flat", ⟨.compact, false⟩)]

/-- A name in small letters, trimmed, with hyphens for underscores. -/
def normalize (s : String) : String :=
  String.ofList ((Text.lower (Text.trim s.toList)).map fun c => if c = '_' then '-' else c)

/-- The variant of a normalized name: a short name, or a label that may follow `jsonld-`. -/
def ofNormalized? (s : String) : Option Variant :=
  match aliases.find? (·.1 = s) with
  | some (_, v) => some v
  | none =>
    let opening := "jsonld-".toList
    let label := if opening.isPrefixOf s.toList then s.toList.drop opening.length else s.toList
    all.find? (·.label.toList = label)

def ofName? (s : String) : Option Variant := ofNormalized? (normalize s)

/-- The full names in alphabetical order. -/
def names : List String := (all.map name).mergeSort fun a b => decide (a ≤ b)

end Variant

end LinkedJson
