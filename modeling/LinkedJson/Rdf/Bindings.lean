import LinkedJson.Entries

/-!
Namespace bindings of a graph, in the order in which they were made.

A namespace is bound to one prefix at a time. A prefix that is taken by another namespace is
numbered until it is free.
-/

namespace LinkedJson.Rdf

/-- Namespaces by prefix. -/
abbrev Bindings := Entries String

namespace Bindings

/-- The prefix under which a namespace can be bound, if it is not bound under one of those tried:
the numbered forms of a prefix in turn. -/
def freePrefix? (b : Bindings) (base ns : String) : Option String :=
  let tried := (List.range (b.length + 1)).map fun n => base ++ toString (n + 1)
  (tried.find? fun p => (Entries.find? b p).all (· = ns)).filter fun p => !Entries.has b p

/-- Moves a namespace to a prefix. -/
def assign (b : Bindings) (p ns : String) : Bindings := b.filter (·.2 ≠ ns) ++ [(p, ns)]

/-- Binds a namespace; nothing if the prefix has a space in it. -/
def bind? (b : Bindings) (p ns : String) : Option Bindings :=
  if p.toList.contains ' ' then none
  else match Entries.find? b p with
    | some bound =>
      if bound = ns then some b
      else
        let base := if p = "" then "default" else p
        some (((freePrefix? b base ns).map (assign b · ns)).getD b)
    | none => some (assign b p ns)

end Bindings

end LinkedJson.Rdf
