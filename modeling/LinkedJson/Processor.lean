import LinkedJson.Processor.Options
import LinkedJson.Settings

/-!
Document processors and the record of what is asked of them.

A processor answers requests; its answer may depend on all that it was asked before. Options are
objects that go by reference. A write keeps one, and each call is handed another, a copy. What a
processor was handed it may change, then and later.
-/

namespace LinkedJson

inductive Request where
  | fromRdf (dataset : Rdf.Dataset)
  | compact (document context : Json)
  | expand (document : Json)
  | flatten (document context : Json)
  | frame (document frame : Json)

def Request.name : Request → String
  | .fromRdf _ => "from_rdf"
  | .compact .. => "compact"
  | .expand _ => "expand"
  | .flatten .. => "flatten"
  | .frame .. => "frame"

/-- A request and the options that came with it, as they were then. -/
structure Call where
  request : Request
  options : OptionMap

namespace ProcessorError

def type : ProcessorError → String
  | .mk _ type _ _ _ => type

def code : ProcessorError → Option String
  | .mk _ _ code _ _ => code

/-- The code if it says something. -/
def ownCode? (e : ProcessorError) : Option String := e.code.filter (· ≠ "")

/-- The error that is held, or else the one that is followed on. -/
def inner? : ProcessorError → Option ProcessorError
  | .mk _ _ _ inner followed => inner.or followed

/-- The message; without one, the type and the code. -/
def message : ProcessorError → String
  | .mk (some message) _ _ _ _ => message
  | e@(.mk none type _ _ _) =>
    "()\nType: " ++ type ++ ((e.ownCode?.map ("\nCode: " ++ ·)).getD "")

/-- The failed step that the error makes. A code that says nothing gives way to that of the inner
error. -/
def toTransformError (e : ProcessorError) (operation : String) : TransformError where
  message := e.message
  operation := some operation
  errorType := some e.type
  code := match e.ownCode?, e.inner? with
    | some code, _ => some code
    | none, some inner => inner.code
    | none, none => none
  cause := some (@Cause.processor e)

/-- What is reported when a step fails. -/
def notice (e : ProcessorError) (operation : String) : Notice :=
  .error s!"JSON-LD {operation} failed: {e.message} [{e.type}]"

end ProcessorError

inductive Reply where
  | value (v : Json)
  | error (e : ProcessorError)
  | accident (a : Accident)

/-- A change to the options of a call, which is told by its number. -/
structure Edit where
  call : Nat
  change : OptionMap → OptionMap

/-- What comes of a call: a reply, and changes to the options of this call and of earlier ones. -/
structure Answer where
  reply : Reply
  edits : List Edit := []

/-- A processor, given the calls before. -/
structure Processor where
  answer : List Call → Call → Answer

/-! ### Options -/

/-- The key under which options hold the loader of remote documents. -/
def loaderKey : String := "documentLoader"

/-- The loader that is used if the options hold none. -/
def defaultLoader : Json := .str "<loader>"

/-- The options of a write: those of the caller if there are any, else defaults with the base. -/
def resolveOptions (base callerOptions : Json) : Json :=
  if !callerOptions.isNull then callerOptions
  else .obj ([("useNativeTypes", .bool true), ("compactArrays", .bool true)] ++
    if base.isNull then [] else [("base", base)])

/-- The two parts of a pair: of an array, of an object its keys, of a text its characters. -/
def pairOf (v : Json) : Except Accident (Key × Json) := do
  let parts ← match v with
    | .arr items => pure items
    | .obj fields => pure (fields.map fun f => Json.str f.1)
    | .str s => pure (s.toList.map fun c => Json.str (String.singleton c))
    | _ => throw Accident.notPairs
  match parts with
  | [k, v] =>
    match Key.ofJson? k with
    | some key => return (key, v)
    | none => throw .keyKind
  | _ => throw .pairLength

/-- A copy of options that a caller gave. What is empty is no options; an array may list pairs. -/
def copyOptions (options : Json) : Except Accident OptionMap :=
  if !options.truthy then .ok []
  else match options with
    | .obj fields => .ok (.ofFields fields)
    | .arr items => do return OptionMap.ofPairs (← items.mapM pairOf)
    | .str _ => .error .pairLength
    | _ => .error .notPairs

/-! ### Objects -/

abbrev Ref := Nat

/-- An object of options: a value that a caller gave, or a copy. -/
inductive Held where
  | given (v : Json)
  | copy (o : OptionMap)

namespace Held

def copied : Held → Except Accident OptionMap
  | .given v => copyOptions v
  | .copy o => .ok o

/-- What an object holds after a change. What is no options cannot be changed as such. -/
def change (h : Held) (f : OptionMap → OptionMap) : Held :=
  match h.copied with
  | .ok o => .copy (f o)
  | .error _ => h

end Held

/-- What has happened so far, and the objects of options that there are. -/
structure Trace where
  calls : List Call := []
  notices : List Notice := []
  heap : List (Ref × Held) := []
  /-- The objects that went with the calls. -/
  handed : List Ref := []

namespace Trace

/-- What an object holds; where there is none, nothing. -/
def held (t : Trace) (r : Ref) : Held :=
  ((t.heap.find? (·.1 = r)).map (·.2)).getD (.given .null)

/-- The references that are in use. -/
def refs (t : Trace) : List Ref := t.heap.map (·.1) ++ t.handed

/-- A reference that is not in use. -/
def fresh (t : Trace) : Ref := t.refs.foldr max 0 + 1

/-- Makes an object. -/
def hold (t : Trace) (h : Held) : Trace := { t with heap := t.heap ++ [(t.fresh, h)] }

/-- Hands the options of a call over, in an object of their own. -/
def send (t : Trace) (call : Call) : Trace :=
  { t.hold (.copy call.options) with
    calls := t.calls ++ [call]
    handed := t.handed ++ [t.fresh] }

/-- A change reaches the object that went with its call. -/
def edit (t : Trace) (e : Edit) : Trace :=
  match t.handed[e.call]? with
  | some r =>
    { t with heap := t.heap.map fun p => if p.1 = r then (r, p.2.change e.change) else p }
  | none => t

def report (t : Trace) (ns : List Notice) : Trace := { t with notices := t.notices ++ ns }

end Trace

/-- A step of work that may fail and leaves a trace. -/
abbrev Work (α : Type) := ExceptT Failure (StateM Trace) α

namespace Work

def run (w : Work α) : Except Failure α × Trace := StateT.run (ExceptT.run w) {}

def fail (f : Failure) : Work α := throw f

def configuration (e : ConfigurationError) : Work α := throw (.configuration e)

def report (ns : List Notice) : Work Unit := modify (·.report ns)

def ofExcept (e : Except Failure α) : Work α :=
  match e with
  | .ok a => pure a
  | .error f => throw f

/-- Keeps options as an object. -/
def hold (options : Json) : Work Ref := do
  let t ← get
  set (t.hold (.given options))
  return t.fresh

end Work

/-- The options that go with a call: a copy with a loader put in if there is none. -/
def callOptions (h : Held) : Except Accident OptionMap := do
  return OptionMap.putNew (← h.copied) (.text loaderKey) defaultLoader

namespace Processor

/-- Asks a processor with a copy of the options that are kept, and records the call. -/
def ask (p : Processor) (request : Request) (options : Ref) : Work Json := do
  let t ← get
  match callOptions (t.held options) with
  | .error a => throw (.accident a)
  | .ok o =>
    let answer := p.answer t.calls ⟨request, o⟩
    set (answer.edits.foldl Trace.edit (t.send ⟨request, o⟩))
    match answer.reply with
    | .value v => return v
    | .accident a => throw (.accident a)
    | .error e =>
      Work.report [e.notice request.name]
      throw (.transform (e.toTransformError request.name))

/-- Asks for the expanded document of a store. -/
def expandedForm (p : Processor) (s : Rdf.Store) (options : Ref) : Work Json :=
  match Rdf.Dataset.ofStore s with
  | .ok d => p.ask (.fromRdf d) options
  | .error e => throw (.transform (.notRdf e))

end Processor

end LinkedJson
