import LinkedJson.Expanded

/-!
Processors that follow a script.

Each function of a scripted processor does one thing whatever it is asked. By default datasets are
really expanded, and the other requests are echoed: the algorithms behind them are not at hand, and
an echo shows what they would have been given.
-/

namespace LinkedJson

inductive Action where
  /-- Expands a dataset. -/
  | expand
  | echo
  | give (v : Json)
  | fail (e : ProcessorError)
  | crash (kind : String)
  /-- Gives something that is not JSON. -/
  | giveForeign
  /-- Writes into the options, then echoes. -/
  | meddle (fields : Json.Object)

/-- The action of each function. -/
structure Script where
  fromRdf : Action := .expand
  compact : Action := .echo
  expand : Action := .echo
  flatten : Action := .echo
  frame : Action := .echo

namespace Script

def action (s : Script) : Request → Action
  | .fromRdf _ => s.fromRdf
  | .compact .. => s.compact
  | .expand _ => s.expand
  | .flatten .. => s.flatten
  | .frame .. => s.frame

/-- What a request was given, as a document. -/
def echo : Request → Json
  | .fromRdf d => d.toJson
  | .expand document => .obj [("expanded", document)]
  | .compact document context => .obj [("@context", context), ("compacted", document)]
  | .flatten document context => .obj [("@context", context), ("flattened", document)]
  | .frame document frame =>
    .obj ([("framed", document), ("frame", frame)] ++
      ((frame.field? "@context").map fun c => ("@context", c)).toList)

def foreignResult : Json := .obj [("@context", .obj []), ("v", .foreign (.ofKind "set"))]

/-- The answer of an action to a call of a number. -/
def reply (a : Action) (number : Nat) (call : Call) : Answer :=
  match a with
  | .expand =>
    match call.request with
    | .fromRdf d => { reply := Expanded.reply call.options d }
    | request => { reply := .value (echo request) }
  | .echo => { reply := .value (echo call.request) }
  | .give v => { reply := .value v }
  | .fail e => { reply := .error e }
  | .crash kind => { reply := .accident (.processor kind) }
  | .giveForeign => { reply := .value foreignResult }
  | .meddle fields =>
    { reply := .value (echo call.request)
      edits := [⟨number, fun o => fields.foldl (fun o f => o.put (.text f.1) f.2) o⟩] }

def processor (s : Script) : Processor where
  answer before call := reply (s.action call.request) before.length call

end Script

end LinkedJson
