import LinkedJson.Proofs.Context.Sorted
import LinkedJson.Proofs.Iri.PrefixedNames
import Mathlib.Data.List.TakeWhile

/-!
What the keys of a derived context mean under that context.

A key with a colon may be read as a prefix and a local name. The key of a property then has to
stand for the IRI that its own definition gives, and these are the exact conditions under which it
does.
-/

namespace LinkedJson

def Iri.splitColon? (s : String) : Option (String × String) :=
  if ':' ∈ s.toList then
    some (String.ofList (s.toList.takeWhile (· ≠ ':')),
      String.ofList ((s.toList.dropWhile (· ≠ ':')).drop 1))
  else none

namespace Context

open LinkedJson.Rdf
open LinkedJson.Iri (splitColon? localName bestBinding? abbreviate? isSafeLocal)

def isDelimiter (c : Char) : Bool :=
  c = ':' || c = '/' || c = '?' || c = '#' || c = '[' || c = ']' || c = '@'

def EndsInDelimiter (ns : String) : Prop := ∃ c, ns.toList.getLast? = some c ∧ isDelimiter c = true

instance (ns : String) : Decidable (EndsInDelimiter ns) :=
  decidable_of_iff (ns.toList.getLast?.any isDelimiter = true) (Option.any_eq_true _ _)

/-- The namespace that a context gives a prefix: a plain text that ends in a delimiter. -/
def namespaceOf? (context : Json.Object) (pre : String) : Option String :=
  match Entries.find? context pre with
  | some (.str ns) => if EndsInDelimiter ns then some ns else none
  | _ => none

/-- Namespace and local name of a key that a context reads as a prefixed name. A blank node and an
IRI with an authority are none. -/
def redirect? (context : Json.Object) (key : String) : Option (String × String) :=
  (splitColon? key).bind fun (pre, name) =>
    if pre = "_" ∨ "//".toList <+: name.toList then none
    else (namespaceOf? context pre).map (·, name)

/-- What a key stands for: the IRI of a prefixed name, and else the key itself. -/
def expandKey (context : Json.Object) (key : String) : String :=
  match redirect? context key with
  | some (ns, name) => ns ++ name
  | none => key

def iriOf? : Json → Option String
  | .str iri => some iri
  | .obj definition =>
    match Entries.find? definition "@id" with
    | some (.str iri) => some iri
    | _ => none
  | _ => none

def propertyKeys (preferPrefixed : Bool) (prefixes : Entries String) (triples : List Triple) :
    List String :=
  (triples.filterMap property?).map (propertyKey preferPrefixed prefixes)

/-! ### Prefixed names -/

lemma splitColon?_eq_some_iff {k a b : String} :
    splitColon? k = some (a, b) ↔ k = a ++ ":" ++ b ∧ ':' ∉ a.toList := by
  simp only [splitColon?, Option.ite_none_right_eq_some, Option.some.injEq, Prod.mk.injEq]
  constructor
  · rintro ⟨hmem, rfl, rfl⟩
    have hdrop : k.toList.dropWhile (· ≠ ':') ≠ [] := by
      intro hnil
      simpa using List.dropWhile_eq_nil_iff.mp hnil ':' hmem
    have hhead : (k.toList.dropWhile (· ≠ ':')).head hdrop = ':' := by
      simpa using List.head_dropWhile_not (· ≠ ':') hdrop
    have hcons : k.toList.dropWhile (· ≠ ':') =
        ':' :: (k.toList.dropWhile (· ≠ ':')).drop 1 := by
      conv_lhs => rw [← List.cons_head_tail hdrop, hhead]
      rw [List.drop_one]
    refine ⟨?_, fun h => ?_⟩
    · rw [← String.toList_inj]
      simp only [String.toList_append, String.toList_ofList, List.append_assoc]
      rw [show ":".toList = [':'] from rfl, List.singleton_append, ← hcons,
        List.takeWhile_append_dropWhile]
    · rw [String.toList_ofList] at h
      simpa using List.mem_takeWhile_imp h
  · rintro ⟨rfl, ha⟩
    have hkeep : ∀ c ∈ a.toList, decide (c ≠ ':') = true := by
      intro c hc
      simp only [decide_eq_true_eq]
      rintro rfl
      exact ha hc
    simp only [String.toList_append, List.append_assoc]
    rw [List.takeWhile_append_of_pos hkeep, List.dropWhile_append_of_pos hkeep]
    simp

lemma exists_splitColon? {s : String} (h : ':' ∈ s.toList) : ∃ a b, splitColon? s = some (a, b) := by
  rw [splitColon?, if_pos h]
  exact ⟨_, _, rfl⟩

lemma prefix_append_iff_of_forall_not_mem {p x y : List Char} (h : ∀ c ∈ p, c ∉ y) :
    p <+: x ++ y ↔ p <+: x := by
  refine ⟨fun hp => ?_, fun hp => hp.trans (List.prefix_append _ _)⟩
  rcases List.prefix_or_prefix_of_prefix hp (List.prefix_append x y) with hpx | ⟨rest, rfl⟩
  · exact hpx
  · rcases rest with _ | ⟨c, rest⟩
    · simp
    · have hc : c ∈ y := ((List.prefix_append_right_inj x).mp hp).subset List.mem_cons_self
      exact absurd hc (h c (by simp))

/-- A name without slashes that follows a prefix stays what it is. -/
lemma expandKey_append (context : Json.Object) {x y : String} (hx : ':' ∈ x.toList)
    (hy : '/' ∉ y.toList) : expandKey context (x ++ y) = expandKey context x ++ y := by
  obtain ⟨a, b, hab⟩ := exists_splitColon? hx
  obtain ⟨hxab, ha⟩ := splitColon?_eq_some_iff.mp hab
  have hxy : splitColon? (x ++ y) = some (a, b ++ y) :=
    splitColon?_eq_some_iff.mpr ⟨by rw [hxab, String.append_assoc], ha⟩
  have hslashes : "//".toList <+: (b ++ y).toList ↔ "//".toList <+: b.toList := by
    rw [String.toList_append, prefix_append_iff_of_forall_not_mem]
    rintro c hc
    rw [show "//".toList = ['/', '/'] from rfl, List.mem_pair, or_self] at hc
    rwa [hc]
  simp only [expandKey, redirect?, hab, hxy, Option.bind_some, hslashes]
  by_cases hnone : a = "_" ∨ "//".toList <+: b.toList
  · simp only [if_pos hnone]
  · simp only [if_neg hnone]
    rcases namespaceOf? context a with _ | ns
    · rfl
    · exact String.append_assoc.symm

lemma expandKey_namespace {context : Json.Object} {pre ns : String} (hcolon : ':' ∉ pre.toList)
    (hblank : pre ≠ "_") (hns : EndsInDelimiter ns)
    (hfind : Entries.find? context pre = some (.str ns)) : expandKey context (pre ++ ":") = ns := by
  have hsplit : splitColon? (pre ++ ":") = some (pre, "") :=
    splitColon?_eq_some_iff.mpr ⟨by simp, hcolon⟩
  have hnamespace : namespaceOf? context pre = some ns := by
    simp only [namespaceOf?, hfind, if_pos hns]
  simp [expandKey, redirect?, hsplit, hblank, hnamespace]

lemma iriOf?_of_definition? {p : String} {o : Term} {d : Json} (h : definition? p o = some d) :
    iriOf? d = some p := by
  have hcoerced (type : String) : iriOf? (coerced p type) = some p := by
    simp [iriOf?, coerced, Entries.find?]
  rcases o with _ | _ | ⟨_, _ | type | _⟩ | _ | _ <;>
    simp only [definition?, Option.some.injEq, reduceCtorEq] at h
  · rw [← h, hcoerced]
  · rw [← h, hcoerced]
  · rw [← h, iriOf?]
  · split at h <;> rw [← Option.some.inj h]
    · rw [iriOf?]
    · rw [hcoerced]
  · rw [← h, iriOf?]

/-! ### Derived contexts -/

/-- A context is that of some order of its triples. -/
lemma exists_perm_of_derive {options : Options} {prefixes : Entries String}
    {triples : List Triple} {context : Json.Object}
    (h : derive options prefixes triples = .ok context) : ∃ ordered, ordered.Perm triples ∧
      context = addPrefixes (terms options.preferPrefixed prefixes ordered) prefixes := by
  obtain ⟨preferPrefixed, _ | _⟩ := options
  · exact ⟨triples, List.Perm.refl _, (Except.ok.inj h).symm⟩
  · by_cases htexts : ∀ t ∈ triples, HasTexts t
    · obtain ⟨ordered, hordered, hperm, -⟩ := sorted_eq_ok htexts
      rw [derive_eq_ok preferPrefixed prefixes hordered] at h
      exact ⟨ordered, hperm, (Except.ok.inj h).symm⟩
    · push Not at htexts
      obtain ⟨e, he⟩ := sorted_eq_error htexts
      rw [derive_eq_error preferPrefixed prefixes he] at h
      cases h

lemma mem_propertyKeys {preferPrefixed : Bool} {prefixes : Entries String}
    {triples : List Triple} {k : String} : k ∈ propertyKeys preferPrefixed prefixes triples ↔
      ∃ t ∈ triples, ∃ p, property? t = some p ∧ propertyKey preferPrefixed prefixes p = k := by
  rw [← mem_keys_terms, keys_terms, List.mem_eraseDups, propertyKeys]

section Derived

variable {options : Options} {prefixes : Entries String} {triples : List Triple}
  {context : Json.Object} {k : String}

lemma find?_of_mem_propertyKeys (h : derive options prefixes triples = .ok context)
    (hk : k ∈ propertyKeys options.preferPrefixed prefixes triples) :
    ∃ t ∈ triples, ∃ p d, property? t = some p ∧
      propertyKey options.preferPrefixed prefixes p = k ∧
      Entries.find? context k = some d ∧ iriOf? d = some p := by
  obtain ⟨ordered, hperm, rfl⟩ := exists_perm_of_derive h
  obtain ⟨t, ht, p, hp, hpk⟩ := mem_propertyKeys.mp hk
  have hmem : k ∈ Entries.keys (terms options.preferPrefixed prefixes ordered) :=
    (mem_keys_terms _ _).mpr ⟨t, hperm.mem_iff.mpr ht, p, hp, hpk⟩
  obtain ⟨d, hd⟩ := Entries.exists_find? hmem
  obtain ⟨before, u, after, q, rfl, hq, hqk, hdef, -⟩ :=
    (find?_terms_eq_some_iff options.preferPrefixed prefixes).mp hd
  refine ⟨u, hperm.mem_iff.mp (by simp), q, d, hq, hqk, ?_, iriOf?_of_definition? hdef⟩
  rw [find?_addPrefixes, hd]
  rfl

lemma find?_of_not_mem_propertyKeys (hmap : (Entries.keys prefixes).Nodup)
    (h : derive options prefixes triples = .ok context) {pre ns : String} (hb : (pre, ns) ∈ prefixes)
    (hpre : pre ≠ "") (hkey : pre ∉ propertyKeys options.preferPrefixed prefixes triples) :
    Entries.find? context pre = some (.str ns) := by
  obtain ⟨ordered, hperm, rfl⟩ := exists_perm_of_derive h
  have hnone : Entries.find? (terms options.preferPrefixed prefixes ordered) pre = none := by
    rw [Entries.find?_eq_none_iff, mem_keys_terms]
    rintro ⟨t, ht, hp⟩
    exact hkey (mem_propertyKeys.mpr ⟨t, hperm.mem_iff.mp ht, hp⟩)
  rw [find?_addPrefixes, hnone, Option.none_or,
    Entries.find?_eq_some_iff (keys_namedPrefixes_nodup hmap)]
  exact List.mem_map.mpr ⟨(pre, ns), by simp [hb, hpre], rfl⟩

variable (context) in
/-- A prefixed name stands for its IRI if its prefix stands for the namespace. -/
lemma expandKey_abbreviated {p : String} {b : String × String}
    (hb : bestBinding? p prefixes = some b) : ∃ name, propertyKey true prefixes p =
      b.1 ++ ":" ++ name ∧ p = b.2 ++ name ∧ b.1 ≠ "" ∧ b ∈ prefixes ∧
      (expandKey context (b.1 ++ ":" ++ name) = p ↔ expandKey context (b.1 ++ ":") = b.2) := by
  obtain ⟨name, hlongest, habbreviate⟩ := Iri.abbreviate?_of_bestBinding? hb
  have hp := hlongest.usable.iri_eq
  refine ⟨name, ?_, hp, hlongest.usable.named, hlongest.mem, ?_⟩
  · simp [propertyKey, habbreviate]
  · rw [expandKey_append context (by simp) (hlongest.usable.plain '/' (by simp)), hp,
      String.append_left_inj]

lemma propertyKey_eq_localName {preferPrefixed : Bool} {p : String}
    (hb : preferPrefixed = true → bestBinding? p prefixes = none) :
    propertyKey preferPrefixed prefixes p = localName p := by
  cases preferPrefixed with
  | false => rfl
  | true => simp [propertyKey, Iri.abbreviate?_of_bestBinding?_eq_none (hb rfl)]

/-- Where no binding abbreviates an IRI, its key is its end. -/
lemma exists_append_propertyKey {preferPrefixed : Bool} {p : String}
    (hb : preferPrefixed = true → bestBinding? p prefixes = none) :
    ∃ rest, p = rest ++ propertyKey preferPrefixed prefixes p := by
  rw [propertyKey_eq_localName hb]
  exact Iri.exists_append_localName p

/-- **What property keys stand for**: a prefixed name stands for the IRI of its definition exactly
if its prefix stands for the namespace, and so it does unless a property key has taken its place or
the binding is none that may stand for one. Any other key is the end of its IRI, and stands for it
exactly if it is all of it, or is read as a prefixed name whose namespace gives back the rest. -/
theorem expandKey_eq_iff (hmap : (Entries.keys prefixes).Nodup)
    (hderive : derive options prefixes triples = .ok context)
    (hk : k ∈ propertyKeys options.preferPrefixed prefixes triples) :
    ∃ t ∈ triples, ∃ p d, property? t = some p ∧
      propertyKey options.preferPrefixed prefixes p = k ∧
      Entries.find? context k = some d ∧ iriOf? d = some p ∧
      ((∃ pre ns name, options.preferPrefixed = true ∧
          bestBinding? p prefixes = some (pre, ns) ∧ k = pre ++ ":" ++ name ∧ p = ns ++ name ∧
          (expandKey context k = p ↔ expandKey context (pre ++ ":") = ns) ∧
          (':' ∉ pre.toList → pre ≠ "_" → EndsInDelimiter ns →
            pre ∉ propertyKeys options.preferPrefixed prefixes triples →
            expandKey context k = p)) ∨
        (∃ rest, (options.preferPrefixed = true → bestBinding? p prefixes = none) ∧
          p = rest ++ k ∧
          (redirect? context k = none → (expandKey context k = p ↔ rest = "")) ∧
          (∀ ns a name, redirect? context k = some (ns, name) → splitColon? k = some (a, name) →
            (expandKey context k = p ↔ ns = rest ++ a ++ ":")))) := by
  obtain ⟨t, ht, p, d, hp, hpk, hd, hiri⟩ := find?_of_mem_propertyKeys hderive hk
  refine ⟨t, ht, p, d, hp, hpk, hd, hiri, ?_⟩
  by_cases hb : options.preferPrefixed = true → bestBinding? p prefixes = none
  · obtain ⟨rest, hrest⟩ := exists_append_propertyKey hb
    rw [hpk] at hrest
    refine Or.inr ⟨rest, hb, hrest, fun hnone => ?_, fun ns a name hredirect hsplit => ?_⟩
    · rw [hrest, expandKey, hnone, eq_comm, String.append_eq_right_iff]
    · have hkey : k = a ++ ":" ++ name := (splitColon?_eq_some_iff.mp hsplit).1
      have hp' : p = rest ++ a ++ ":" ++ name := by
        simpa only [hkey, String.append_assoc] using hrest
      rw [expandKey, hredirect, hp']
      exact String.append_left_inj name
  · push Not at hb
    obtain ⟨hprefer, hb⟩ := hb
    obtain ⟨⟨pre, ns⟩, hb⟩ := Option.ne_none_iff_exists'.mp hb
    obtain ⟨name, hname, hns, hpre, hmem, hiff⟩ := expandKey_abbreviated context hb
    have hkey : k = pre ++ ":" ++ name := by
      rw [← hpk, hprefer, hname]
    rw [← hkey] at hiff
    refine Or.inl ⟨pre, ns, name, hprefer, hb, hkey, hns, hiff, ?_⟩
    intro hcolon hblank hdelimiter hfree
    have hfind := find?_of_not_mem_propertyKeys hmap hderive hmem hpre hfree
    exact hiff.mpr (expandKey_namespace hcolon hblank hdelimiter hfind)

end Derived

def described (iris : List String) : List Triple :=
  iris.map fun p => ⟨.iri "http://example.org/Alice", .iri p, .literal "x" .plain⟩

def examplePrefixes : Entries String := [("ex", "http://example.org/")]

theorem expandKey_eq_iff_described : (Entries.keys examplePrefixes).Nodup ∧
    ∃ context, derive ⟨true, false⟩ examplePrefixes (described ["http://example.org/name"]) =
        .ok context ∧
      "ex:name" ∈ propertyKeys true examplePrefixes (described ["http://example.org/name"]) ∧
      expandKey context "ex:name" = "http://example.org/name" := by
  have hmap : (Entries.keys examplePrefixes).Nodup := by decide
  have hderive : derive ⟨true, false⟩ examplePrefixes (described ["http://example.org/name"]) =
      .ok (addPrefixes (terms true examplePrefixes (described ["http://example.org/name"]))
        examplePrefixes) := rfl
  have hk : "ex:name" ∈ propertyKeys true examplePrefixes
      (described ["http://example.org/name"]) := by decide +kernel
  refine ⟨hmap, _, hderive, hk, ?_⟩
  obtain ⟨t, ht, p, d, hp, -, -, -, h⟩ := expandKey_eq_iff hmap hderive hk
  obtain rfl : t = ⟨.iri "http://example.org/Alice", .iri "http://example.org/name",
      .literal "x" .plain⟩ := by simpa [described] using ht
  obtain rfl : "http://example.org/name" = p := by
    simpa using (property?_eq_some_iff.mp hp).1
  have hbest : bestBinding? "http://example.org/name" examplePrefixes =
      some ("ex", "http://example.org/") := by decide +kernel
  rcases h with ⟨pre, ns, name, -, hb, -, -, -, hexpand⟩ | ⟨rest, hnone, -⟩
  · obtain ⟨rfl, rfl⟩ : "ex" = pre ∧ "http://example.org/" = ns := by
      simpa using hbest.symm.trans hb
    exact hexpand (by decide) (by decide) (by decide) (by decide +kernel)
  · rw [hnone rfl] at hbest
    cases hbest

def IriShaped (key : String) : Prop :=
  '/' ∈ key.toList ∨ ∃ a b, a ≠ "" ∧ b ≠ "" ∧ key = a ++ ":" ++ b

/-- Each property key of the shape of an IRI stands for the IRI of its own definition. -/
def KeysExpand (options : Options) (prefixes : Entries String) (triples : List Triple) : Prop :=
  ∀ context, derive options prefixes triples = .ok context →
    ∀ k ∈ propertyKeys options.preferPrefixed prefixes triples, IriShaped k →
      (Entries.find? context k).bind iriOf? = some (expandKey context k)

/-- A key that takes the place of a prefix, and a slash in a fragment, leave other keys without
their IRIs. -/
theorem not_keysExpand :
    ¬ KeysExpand ⟨true, false⟩ examplePrefixes
      (described ["http://other.org/ex", "http://example.org/name"]) ∧
    ¬ KeysExpand ⟨false, false⟩ [] (described ["http://example.org/vocab#a/b"]) := by
  refine ⟨fun h => ?_, fun h => ?_⟩
  · have hname := h _ rfl "ex:name" (by decide +kernel)
      (Or.inr ⟨"ex", "name", by decide, by decide, by decide +kernel⟩)
    exact absurd hname (by decide +kernel)
  · have hslash := h _ rfl "a/b" (by decide +kernel) (Or.inl (by decide +kernel))
    exact absurd hslash (by decide +kernel)

end Context

end LinkedJson
