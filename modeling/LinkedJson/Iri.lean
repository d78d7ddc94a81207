import LinkedJson.Rdf.Bindings

/-!
Short names of IRIs: local names, and prefixed names under a map of prefixes.
-/

namespace LinkedJson.Iri

/-- Splits a text after the last place where a character stands. -/
def splitLast? (mark : Char) (cs : List Char) : Option (List Char × List Char) :=
  if cs.contains mark then
    let tail := (cs.reverse.takeWhile (· ≠ mark)).reverse
    some (cs.take (cs.length - tail.length), tail)
  else none

/-- Namespace and local name: parted after the last number sign, or if there is none after the last
slash. An IRI with neither is all local name. -/
def split (iri : String) : String × String :=
  match (splitLast? '#' iri.toList).or (splitLast? '/' iri.toList) with
  | some (ns, name) => (String.ofList ns, String.ofList name)
  | none => ("", iri)

/-- The local name, or the whole IRI if its local name is empty. -/
def localName (iri : String) : String :=
  let name := (split iri).2
  if name = "" then iri else name

/-- What may follow a prefix: not empty, and free of separators. -/
def isSafeLocal (name : String) : Bool :=
  name ≠ "" && !name.toList.any fun c => c = '/' || c = '#' || c = '?' || c = ':'

/-- The rest of an IRI after a namespace. -/
def after? (ns iri : String) : Option String :=
  if ns.toList.isPrefixOf iri.toList then
    some (String.ofList (iri.toList.drop ns.toList.length))
  else none

/-- The local part that a binding leaves of an IRI, if the binding can abbreviate it. -/
def usable? (iri : String) (binding : String × String) : Option String :=
  if binding.1 = "" || binding.2 = "" then none
  else (after? binding.2 iri).filter isSafeLocal

/-- The longer of two namespaces, the earlier if they are equally long. -/
def longer (best : Option (String × String)) (binding : String × String) : String × String :=
  match best with
  | some b => if b.2.length < binding.2.length then binding else b
  | none => binding

/-- The binding with the longest namespace that can abbreviate an IRI. -/
def bestBinding? (iri : String) (prefixes : Entries String) : Option (String × String) :=
  prefixes.foldl (fun best b => if (usable? iri b).isSome then some (longer best b) else best) none

/-- The prefixed name of an IRI. -/
def abbreviate? (iri : String) (prefixes : Entries String) : Option String :=
  (bestBinding? iri prefixes).bind fun b => (usable? iri b).map fun name => b.1 ++ ":" ++ name

end LinkedJson.Iri
