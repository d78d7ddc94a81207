import LinkedJson.Processor

/-!
Datasets as expanded documents.

Each graph becomes a map of nodes, and each statement a value of its subject's node. A chain of
list nodes that is used only once becomes one list at the place of its use. Values are known by
their place, the number of their statement in the dataset, so that a value can be replaced by a
list wherever it has come to stand.
-/

namespace LinkedJson.Expanded

open LinkedJson.Rdf

/-! ### Options -/

structure Options where
  useRdfType : Bool
  useNativeTypes : Bool
  /-- Read language and direction from datatypes. -/
  directions : Bool

def Options.of (options : OptionMap) : Options where
  useRdfType := ((options.named? "useRdfType").map Json.truthy).getD false
  useNativeTypes := ((options.named? "useNativeTypes").map Json.truthy).getD false
  directions := match options.named? "rdfDirection" with
    | some (.str s) => s = "i18n-datatype"
    | _ => false

/-- A reply in place of a result. -/
abbrev Result (α : Type) := Except Reply α

def accident (a : Accident) : Result α := .error (.accident a)

/-- A serialization format among the options is refused: there is no text to parse. -/
def checkFormat (options : OptionMap) : Result Unit :=
  match options.named? "format" with
  | none => .ok ()
  | some (.str s) =>
    if s = "application/n-quads" ∨ s = "application/nquads" then accident .serializedFormat
    else .error (.error (.mk (some "Unknown input format.") "jsonld.UnknownFormat" none none none))
  | some (.arr _) | some (.obj _) => accident .formatKind
  | some _ =>
    .error (.error (.mk (some "Unknown input format.") "jsonld.UnknownFormat" none none none))

/-! ### Literals -/

def directionNamespace : String := "https://www.w3.org/ns/i18n#"

/-- Splits a text at every number sign and underscore. -/
def splitMarks : List Char → List (List Char)
  | [] => [[]]
  | c :: rest =>
    match splitMarks rest with
    | [] => [[]]
    | part :: parts => if c = '#' ∨ c = '_' then [] :: part :: parts else (c :: part) :: parts

/-- A whole number in digits of any script, with an optional sign. A line feed at the end is
tolerated. -/
def wholeNumber? (s : String) : Option (Bool × List Nat) :=
  let (negative, rest) := Digits.signed s.toList
  let cs := Text.dropLineFeed rest
  if cs.isEmpty then none else (cs.mapM Text.digitValue?).map (negative, ·)

/-- The native value of a literal, if its datatype has one that its text denotes. -/
def native? (lexical datatype : String) : Result (Option Json) :=
  if datatype = xsdBoolean then
    .ok (if lexical = "true" ∨ lexical = "1" then some (.bool true)
      else if lexical = "false" ∨ lexical = "0" then some (.bool false)
      else none)
  else if datatype = xsdInteger then
    match wholeNumber? lexical with
    | none => .ok none
    | some (negative, ds) =>
      if Json.maxDigits < ds.length then accident (.tooLong ds.length)
      else
        let n : Int := Double.ofDigits ds
        .ok (some (.int (if negative then -n else n)))
  else if datatype = xsdDouble then
    .ok (((Double.ofText? lexical).filter Double.isFinite).map .double)
  else .ok none

/-- The fields that a datatype adds to a value object. -/
def typeFields (datatype : String) : Json.Object :=
  if datatype = xsdString then [] else [("@type", .str datatype)]

def directionFields (datatype : String) : Result Json.Object :=
  match (splitMarks datatype.toList).map String.ofList with
  | [_, language, direction] =>
    .ok ((if language = "" then [] else [("@language", .str language)]) ++
      [("@direction", .str direction)])
  | _ => accident .directionParts

/-- The value and the datatype of a literal, JSON being read as such. -/
def jsonContent (lexical datatype : String) : Result (Json × String) :=
  if datatype ≠ rdfJson then .ok (.str lexical, datatype)
  else match Json.parse lexical with
    | .ok v => .ok (v, "@json")
    | .error (.tooLong digits) => accident (.tooLong digits)
    | .error (.flaw ..) =>
      .error (.error (.mk (some "JSON literal could not be parsed.") "jsonld.InvalidJsonLiteral"
        (some "invalid JSON literal") none none))

/-- The value object of a literal. -/
def literalValue (o : Options) (lexical datatype : String) (language : Option String) :
    Result Json :=
  match language with
  | some tag => .ok (.obj [("@value", .str lexical), ("@language", .str tag)])
  | none => do
    let (value, datatype) ← jsonContent lexical datatype
    if o.useNativeTypes then
      match ← native? lexical datatype with
      | some v => return .obj [("@value", v)]
      | none => return .obj (("@value", value) :: typeFields datatype)
    else if o.directions ∧ directionNamespace.toList.isPrefixOf datatype.toList then
      return .obj (("@value", value) :: (← directionFields datatype))
    else return .obj (("@value", value) :: typeFields datatype)

/-! ### Node maps -/

inductive Item where
  /-- A type of the node. -/
  | type (iri : String)
  /-- A value and its place. -/
  | value (place : Nat) (content : Json)

/-- The fields of a node besides its name. -/
abbrev NodeFields := Entries (List Item)

abbrev NodeMap := Entries NodeFields

/-- A use of a node: the value at a place, in a field of a node of a graph. -/
structure Usage where
  graph : String
  subject : String
  property : String
  place : Nat
  content : Json

/-- Graphs as far as they are built. -/
structure Build where
  graphs : Entries NodeMap := [(defaultKey, [])]
  /-- The only use of a node so far, or nothing if there are several. -/
  references : Entries (Option Usage) := []
  /-- The uses of the empty list in each graph. -/
  nilUsages : Entries (List Usage) := []
  nextPlace : Nat := 0

def addItem (fields : NodeFields) (key : String) (item : Item) : NodeFields :=
  Entries.put fields key (((Entries.find? fields key).getD []) ++ [item])

/-- Adds an item to a node of a map. -/
def addToNode (m : NodeMap) (subject key : String) (item : Item) : NodeMap :=
  Entries.put m subject (addItem ((Entries.find? m subject).getD []) key item)

def isResource : Node → Bool
  | .literal .. => false
  | _ => true

/-- The value that a node has as an object. -/
def objectValue (o : Options) : Node → Result Json
  | .literal lexical datatype language => literalValue o lexical datatype language
  | n => .ok (.obj [("@id", .str n.value)])

/-- Records the use of a node. -/
def noteUsage (b : Build) (target : String) (u : Usage) : Build :=
  if target = rdfNil then
    { b with nilUsages :=
        Entries.put b.nilUsages u.graph (((Entries.find? b.nilUsages u.graph).getD []) ++ [u]) }
  else if Entries.has b.references target then
    { b with references := Entries.put b.references target none }
  else { b with references := Entries.put b.references target (some u) }

def addStatement (o : Options) (graph : String) (b : Build) (s : Statement) : Result Build := do
  let subject := s.subject.value
  let property := s.predicate.value
  let target := s.object.value
  let map := (Entries.find? b.graphs graph).getD []
  let map := Entries.putNew map subject []
  let map := if isResource s.object then Entries.putNew map target [] else map
  if property = rdfType ∧ !o.useRdfType ∧ isResource s.object then
    return { b with
      graphs := Entries.put b.graphs graph (addToNode map subject "@type" (.type target)) }
  else
    let content ← objectValue o s.object
    let place := b.nextPlace
    let b := { b with
      graphs := Entries.put b.graphs graph (addToNode map subject property (.value place content))
      nextPlace := place + 1 }
    return if isResource s.object then noteUsage b target ⟨graph, subject, property, place, content⟩
      else b

/-- Starts a graph; a named graph is also a node of the default graph. -/
def openGraph (b : Build) (name : String) : Build :=
  let graphs := Entries.putNew b.graphs name []
  if name = defaultKey then { b with graphs }
  else
    let defaults := (Entries.find? graphs defaultKey).getD []
    { b with graphs := Entries.put graphs defaultKey (Entries.putNew defaults name []) }

def build (o : Options) (d : Dataset) : Result Build :=
  d.foldlM (fun b g => g.2.foldlM (addStatement o g.1) (openGraph b g.1)) {}

/-! ### Lists -/

/-- The node of a usage. -/
def Usage.node (u : Usage) (b : Build) : NodeFields :=
  ((Entries.find? b.graphs u.graph).bind (Entries.find? · u.subject)).getD []

/-- Besides its name a list node has its two fields and at most the type of lists. -/
def hasListShape (fields : NodeFields) : Bool :=
  fields.length = 2 ||
    (fields.length = 3 && match Entries.find? fields "@type" with
      | some [.type iri] => iri = rdfList
      | _ => false)

/-- The item that a list node holds and the one use of the node, if it is a well-formed list node.
A node that is used once must have a first item. -/
def listNode? (b : Build) (u : Usage) : Result (Option (Item × Usage)) :=
  if u.property ≠ rdfRest then .ok none
  else match Entries.find? b.references u.subject with
    | some (some next) =>
      match Entries.find? (u.node b) rdfFirst with
      | none => accident .brokenList
      | some [item] =>
        match Entries.find? (u.node b) rdfRest with
        | some [_] => .ok (if hasListShape (u.node b) then some (item, next) else none)
        | _ => .ok none
      | some _ => .ok none
    | _ => .ok none

/-- A list read from its end: the use of its head, its items and its nodes. -/
structure Chain where
  head : Usage
  items : List Item
  nodes : List String

/-- Follows list nodes from the end of a list to its head. The head is the first use by a node that
is no list node, or by a node that is not blank. -/
def chain (b : Build) (fuel : Nat) (c : Chain) : Result Chain :=
  match fuel with
  | 0 => .ok c
  | fuel + 1 => do
    match ← listNode? b c.head with
    | none => return c
    | some (item, next) =>
      let c : Chain := ⟨next, item :: c.items, c.nodes ++ [c.head.subject]⟩
      if next.subject.startsWith "_:" then chain b fuel c else return c

/-- The graphs without the list nodes, and the lists by the place of their heads. -/
structure Lists where
  graphs : Entries NodeMap
  lists : List (Nat × List Item) := []

def removeNode (graph : String) (l : Lists) (node : String) : Result Lists :=
  let map := (Entries.find? l.graphs graph).getD []
  if Entries.has map node then
    .ok { l with graphs := Entries.put l.graphs graph (Entries.erase map node) }
  else accident .brokenList

/-- Makes a list of the chain that ends at a use of the empty list. A head becomes a list only
once. -/
def convert (b : Build) (graph : String) (l : Lists) (u : Usage) : Result Lists := do
  let c ← chain b b.nextPlace ⟨u, [], []⟩
  if l.lists.any (·.1 = c.head.place) then accident .brokenList
  else
    let l := { l with lists := l.lists ++ [(c.head.place, c.items)] }
    c.nodes.foldlM (removeNode graph) l

def convertAll (b : Build) : Result Lists :=
  b.graphs.foldlM (fun l g =>
    ((Entries.find? b.nilUsages g.1).getD []).foldlM (convert b g.1) l) { graphs := b.graphs }

/-! ### Documents -/

/-- An item with lists put in the place of their heads. -/
def itemJson (lists : List (Nat × List Item)) (fuel : Nat) : Item → Json
  | .type iri => .str iri
  | .value place content =>
    match fuel, lists.find? (·.1 = place) with
    | _, none => content
    | 0, some _ => .foreign .enclosing
    | fuel + 1, some (_, items) => .obj [("@list", .arr (items.map (itemJson lists fuel)))]

def nodeJson (l : Lists) (node : String × NodeFields) : Json.Object :=
  ("@id", .str node.1) ::
    node.2.map fun f => (f.1, .arr (f.2.map (itemJson l.lists (l.lists.length + 1))))

/-- The nodes of a map in the order of their names. -/
def sortedNodes (m : NodeMap) : List (String × NodeFields) :=
  m.mergeSort fun a b => decide (a.1 ≤ b.1)

/-- A node that has more than a name. -/
def hasContent (fields : Json.Object) : Bool := 1 < fields.length

def graphJson (l : Lists) (m : NodeMap) : Json :=
  .arr (((sortedNodes m).map (nodeJson l)).filter hasContent |>.map .obj)

/-- A node of the default graph, with the graph that it names. -/
def topNode (l : Lists) (node : String × NodeFields) : Json.Object :=
  match Entries.find? l.graphs node.1 with
  | some m => Entries.put (nodeJson l node) "@graph" (graphJson l m)
  | none => nodeJson l node

def document (l : Lists) : Json :=
  let defaults := (Entries.find? l.graphs defaultKey).getD []
  .arr (((sortedNodes defaults).map (topNode l)).filter hasContent |>.map .obj)

/-- The expanded document of a dataset. -/
def ofDataset (options : OptionMap) (d : Dataset) : Result Json := do
  checkFormat options
  let b ← build (Options.of options) d
  return document (← convertAll b)

/-- The processor's answer to a dataset. -/
def reply (options : OptionMap) (d : Dataset) : Reply :=
  match ofDataset options d with
  | .ok v => .value v
  | .error r => r

end LinkedJson.Expanded
