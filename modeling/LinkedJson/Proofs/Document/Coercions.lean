import LinkedJson.Proofs.Context.Expansion
import LinkedJson.Proofs.Document.Calls
import LinkedJson.Proofs.Expanded.Settled
import LinkedJson.Proofs.Expanded.Values
import LinkedJson.Proofs.Rdf.Grouping

/-!
Whether values have the types to which a derived context coerces them.

By default the expanded document has native numbers and truth values, and these have no type,
while the context coerces their property to the datatype of the literals. Other typed literals keep
their datatype, but for JSON, which has a type of its own.
-/

namespace LinkedJson

/-- The text by which documents know a term. -/
def Rdf.Term.written? (t : Rdf.Term) : Option String := t.node?.map (·.value)

namespace Context

open Rdf

/-- What coerces to a datatype is a literal of this datatype, and no text. -/
lemma eq_literal_of_definition? {p q d : String} {o : Term}
    (h : definition? p o = some (coerced q d)) (hid : d ≠ "@id") :
    (∃ lexical, o = .literal lexical (.datatype d)) ∧ d ≠ xsdString := by
  have hsame {e : String} (h : some (coerced p e) = some (coerced q d)) : e = d :=
    (coerced_inj.mp (Option.some.inj h)).2
  rcases o with value | label | ⟨lexical, _ | e | tag⟩ | name | name
  · exact absurd (hsame h).symm hid
  · exact absurd (hsame h).symm hid
  · cases h
  · rw [definition?] at h
    split at h
    · exact absurd (Option.some.inj h).symm (coerced_ne_str _ _ _)
    · next htext =>
      obtain rfl := hsame h
      exact ⟨⟨lexical, rfl⟩, (not_or.mp htext).1⟩
  · cases h
  · cases h
  · cases h

lemma ne_xsdString_of_coerced {options : Options} {prefixes : Entries String}
    {triples : List Triple} {context : Json.Object}
    (h : derive options prefixes triples = .ok context) {k p d : String}
    (hk : Entries.find? context k = some (coerced p d)) (hid : d ≠ "@id") : d ≠ xsdString := by
  obtain ⟨ordered, -, rfl⟩ := exists_perm_of_derive h
  rw [find?_addPrefixes, Option.or_eq_some_iff] at hk
  rcases hk with hk | ⟨-, hk⟩
  · obtain ⟨-, t, -, q, -, -, -, hdef, -⟩ := (find?_terms_eq_some_iff _ _).mp hk
    exact (eq_literal_of_definition? hdef hid).2
  · obtain ⟨b, -, hb⟩ := List.mem_map.mp (Entries.mem_of_find? hk)
    exact absurd (Prod.mk.inj hb).2.symm (coerced_ne_str _ _ _)

end Context

namespace Document

open Rdf Context Expanded

/-! ### Values -/

inductive Native (lexical d : String) : Json → Prop
  | true (hd : d = xsdBoolean) (h : lexical = "true" ∨ lexical = "1") :
    Native lexical d (.bool true)
  | false (hd : d = xsdBoolean) (h : lexical = "false" ∨ lexical = "0") :
    Native lexical d (.bool false)
  | integer (hd : d = xsdInteger) {negative : Bool} {ds : List Nat}
    (h : wholeNumber? lexical = some (negative, ds)) :
    Native lexical d (.int (if negative then -(Double.ofDigits ds : Int) else Double.ofDigits ds))
  | double (hd : d = xsdDouble) {x : Double} (h : Double.ofText? lexical = some x)
    (hfinite : x.isFinite = Bool.true) : Native lexical d (.double x)

section Native

variable {lexical d : String}

lemma native_boolean_iff {n : Json} (hd : d = xsdBoolean) : Native lexical d n ↔
    (if lexical = "true" ∨ lexical = "1" then some (.bool true)
      else if lexical = "false" ∨ lexical = "0" then some (.bool false) else none) = some n := by
  subst hd
  constructor
  · rintro (⟨-, h⟩ | ⟨-, h⟩ | ⟨hd⟩ | ⟨hd⟩)
    · rw [if_pos h]
    · have hnot : ¬ (lexical = "true" ∨ lexical = "1") := by
        rcases h with rfl | rfl <;> decide
      rw [if_neg hnot, if_pos h]
    · exact absurd hd (by decide)
    · exact absurd hd (by decide)
  · intro h
    split_ifs at h with htrue hfalse <;> cases h
    · exact .true rfl htrue
    · exact .false rfl hfalse

lemma native_integer_iff {n : Json} (hd : d = xsdInteger) : Native lexical d n ↔
    ∃ negative ds, wholeNumber? lexical = some (negative, ds) ∧
      .int (if negative then -(Double.ofDigits ds : Int) else Double.ofDigits ds) = n := by
  subst hd
  constructor
  · rintro (⟨hd⟩ | ⟨hd⟩ | @⟨-, negative, ds, h⟩ | ⟨hd⟩)
    · exact absurd hd (by decide)
    · exact absurd hd (by decide)
    · exact ⟨negative, ds, h, rfl⟩
    · exact absurd hd (by decide)
  · rintro ⟨negative, ds, h, rfl⟩
    exact .integer rfl h

lemma native_double_iff {n : Json} (hd : d = xsdDouble) : Native lexical d n ↔
    ((Double.ofText? lexical).filter Double.isFinite).map .double = some n := by
  subst hd
  simp only [Option.map_eq_some_iff, Option.filter_eq_some_iff]
  constructor
  · rintro (⟨hd⟩ | ⟨hd⟩ | ⟨hd⟩ | @⟨-, x, h, hfinite⟩)
    · exact absurd hd (by decide)
    · exact absurd hd (by decide)
    · exact absurd hd (by decide)
    · exact ⟨x, ⟨h, hfinite⟩, rfl⟩
  · rintro ⟨x, ⟨h, hfinite⟩, rfl⟩
    exact .double rfl h hfinite

lemma not_native (hboolean : d ≠ xsdBoolean) (hinteger : d ≠ xsdInteger) (hdouble : d ≠ xsdDouble)
    (n : Json) : ¬ Native lexical d n := by
  rintro (⟨hd⟩ | ⟨hd⟩ | ⟨hd⟩ | ⟨hd⟩)
  · exact hboolean hd
  · exact hboolean hd
  · exact hinteger hd
  · exact hdouble hd

lemma native_iff {r : Option Json} (h : native? lexical d = .ok r) (n : Json) :
    Native lexical d n ↔ r = some n := by
  unfold native? at h
  by_cases hboolean : d = xsdBoolean
  · rw [if_pos hboolean] at h
    rw [native_boolean_iff hboolean, Except.ok.inj h]
  rw [if_neg hboolean] at h
  by_cases hinteger : d = xsdInteger
  · rw [if_pos hinteger] at h
    rw [native_integer_iff hinteger]
    rcases hnumber : wholeNumber? lexical with _ | ⟨negative, ds⟩ <;> simp only [hnumber] at h
    · cases h
      simp
    · by_cases hlong : Json.maxDigits < ds.length
      · rw [if_pos hlong] at h
        cases h
      · rw [if_neg hlong] at h
        cases h
        simp
  rw [if_neg hinteger] at h
  by_cases hdouble : d = xsdDouble
  · rw [if_pos hdouble] at h
    rw [native_double_iff hdouble, Except.ok.inj h]
  rw [if_neg hdouble] at h
  cases h
  simpa using not_native hboolean hinteger hdouble n

end Native

inductive Presented (lexical d : String) : Json → Prop
  | native {n : Json} (h : Native lexical d n) : Presented lexical d (.obj [("@value", n)])
  | typed (hjson : d ≠ rdfJson) (h : ∀ n, ¬ Native lexical d n) :
    Presented lexical d (.obj [("@value", .str lexical), ("@type", .str d)])
  | json {v : Json} (hjson : d = rdfJson) (h : Json.parse lexical = .ok v) :
    Presented lexical d (.obj [("@value", v), ("@type", .str "@json")])

/-- A literal has its datatype unless it is native or JSON. -/
lemma Presented.type_iff {lexical d : String} {v : Json} (h : Presented lexical d v) :
    v.field? "@type" = some (.str d) ↔ (∀ n, ¬ Native lexical d n) ∧ d ≠ rdfJson := by
  cases h with
  | @native n h =>
    have hnone : (Json.obj [("@value", n)]).field? "@type" = none := rfl
    simp only [hnone, reduceCtorEq, false_iff, not_and]
    exact fun hnot => absurd h (hnot n)
  | typed hjson h => exact ⟨fun _ => ⟨h, hjson⟩, fun _ => rfl⟩
  | @json v hjson =>
    have htype : (Json.obj [("@value", v), ("@type", .str "@json")]).field? "@type" =
        some (.str "@json") := rfl
    have hne : "@json" ≠ rdfJson := by decide
    simp [htype, hjson, hne]

lemma presented_of_literalValue {o : Expanded.Options} (hnative : o.useNativeTypes = true)
    {lexical d : String} (hstring : d ≠ xsdString) {v : Json}
    (h : literalValue o lexical d none = .ok v) : Presented lexical d v := by
  obtain ⟨⟨w, d'⟩, hcontent, h⟩ := exists_ok_of_bind h
  simp only [hnative, if_true] at h
  obtain ⟨r, hr, h⟩ := exists_ok_of_bind h
  unfold jsonContent at hcontent
  split at hcontent
  · next hjson =>
    cases hcontent
    rcases r with _ | n <;> cases h
    · rw [typeFields, if_neg hstring]
      exact .typed hjson fun n hn => by simpa using (native_iff hr n).mp hn
    · exact .native ((native_iff hr n).mpr rfl)
  · next hjson =>
    split at hcontent
    · next hparse =>
      cases hcontent
      have hnone : native? lexical "@json" = .ok none := rfl
      cases hnone.symm.trans hr
      cases h
      exact .json (not_not.mp hjson) hparse
    · cases hcontent
    · cases hcontent

/-! ### Writes -/

/-- Under a property that has only literals, the processor lists no value objects but those which
the options ask for these literals. -/
def Expands (p : Processor) : Prop :=
  ∀ before d o rep, (p.answer before ⟨.fromRdf d, o⟩).reply = .value rep →
    ∀ property, (∀ st ∈ d.flatMap (·.2), st.predicate.value = property →
      isResource st.object = false) →
    ∀ v, Listed rep property v → IsValue v →
      ∃ st ∈ d.flatMap (·.2), st.predicate.value = property ∧
        objectValue (Expanded.Options.of o) st.object = .ok v

/-- The processor that makes expanded documents is one of these. -/
lemma expands_of_reply {p : Processor}
    (h : ∀ before d o, (p.answer before ⟨.fromRdf d, o⟩).reply = Expanded.reply o d) :
    Expands p := fun before d o _ hreply _ hliterals _ hlisted hvalue =>
  listed_of_literals (reply_eq_value_iff.mp ((h before d o).symm.trans hreply)) hliterals hlisted
    hvalue

def compactCalls (p : Processor) (src : Source) : List Call := (toJson p .compact src).run.2.calls

section Writes

variable {p : Processor} {src : Source} {rep context : Json} {o : OptionMap}

lemma mem_compactCalls_iff : ⟨.compact rep context, o⟩ ∈ compactCalls p src ↔
    ∃ d, Dataset.ofStore src.store = .ok d ∧ Sent src o ∧
      (p.answer [] ⟨.fromRdf d, o⟩).reply = .value rep ∧ src.context = .ok context := by
  obtain ⟨made, hcalls, hexchange⟩ := exists_exchange p .compact src {}
  have hmade : compactCalls p src = made := by
    rw [compactCalls, Work.run_eq, hcalls, Trace.calls_play, calls_start]
    rfl
  rw [hmade]
  generalize ((toJson p .compact src).runAfter {}).1 = outcome at hexchange
  constructor
  · intro hmem
    cases hexchange with
    | noFrame | notRdf | rejected => simp at hmem
    | unexpanded => simp at hmem
    | expanded _ hstore hsent hreply hconversion =>
      cases hconversion with
      | expanded | noContext => simp at hmem
      | asked hwanted =>
        cases hwanted with
        | compact hcontext =>
          obtain ⟨⟨rfl, rfl⟩, rfl⟩ : (rep = _ ∧ context = _) ∧ o = _ := by simpa using hmem
          exact ⟨_, hstore, hsent, hreply, hcontext⟩
  · rintro ⟨d, hstore, hsent, hreply, hcontext⟩
    have hready : Ready .compact src := fun hform => by cases hform
    have hasked := Exchange.expanded hready hstore hsent hreply (.asked (.compact hcontext))
    rw [(hexchange.unique hasked).1]
    simp

/-- Without options of its own a write asks for native values, and for nothing else that matters to
an expanded document. -/
lemma useNativeTypes_of_sent (h : Sent src o) (hoptions : src.settings.options = .null) :
    (Expanded.Options.of o).useNativeTypes = true := by
  have hchosen {o : OptionMap} (h : Chosen src o) :
      OptionMap.named? o "useNativeTypes" = some (.bool true) := by
    cases h with
    | defaults | based => rfl
    | falsy h => exact absurd hoptions h
    | object h | pairs h => cases h.symm.trans hoptions
  have hfind : OptionMap.named? o "useNativeTypes" = some (.bool true) := by
    cases h with
    | kept h => exact hchosen h
    | added h =>
      have hnamed := hchosen h
      rw [OptionMap.named?] at hnamed ⊢
      rw [OptionMap.find?_append, hnamed, Option.some_or]
  simp [Expanded.Options.of, hfind, Json.truthy]

lemma exists_derive_of_context (hcontext : src.settings.context = .null)
    (h : src.context = .ok context) : ∃ fields,
      derive src.settings.contextOptions (src.prefixes.getD src.store.bindings)
        src.store.defaultTriples = .ok fields ∧ context = .obj fields := by
  have hnone : src.settings.hasContext = false := by
    rw [Settings.hasContext, hcontext]
    rfl
  simp only [Source.context, contextOf, hnone, viewOfDefault, Bool.false_eq_true, if_false] at h
  split at h
  · next fields hderive =>
    cases h
    exact ⟨fields, hderive, rfl⟩
  · cases h

lemma mem_defaultTriples_of_mem_allQuads {s : Store} (hkind : s.kind = .graph)
    (hreachable : s.Reachable) {q : Quad} (hq : q ∈ s.allQuads) : q.triple ∈ s.defaultTriples := by
  have hmem := (Store.mem_allQuads.mp hq).1
  have hdefault : q.graph = .default := by
    rcases hgraph : q.graph with _ | x
    · rfl
    · have hnamed := hreachable.coherent.named q hmem x hgraph
      rw [hkind] at hnamed
      cases hnamed
  exact List.mem_map.mpr ⟨q, List.mem_filter.mpr ⟨hmem, by simpa using hdefault⟩, rfl⟩

lemma exists_triple_of_statement {s : Store} (hkind : s.kind = .graph) (hreachable : s.Reachable)
    {d : Dataset} (hstore : Dataset.ofStore s = .ok d) {st : Statement}
    (hst : st ∈ d.flatMap (·.2)) : ∃ t ∈ s.defaultTriples,
      t.predicate.written? = some st.predicate.value ∧ t.object.node? = some st.object := by
  obtain ⟨q, hq, hstates⟩ := (ofStore_eq_ok_iff.mp hstore).exists_quad hst
  obtain ⟨-, hpredicate, hobject⟩ := statement_eq_ok_iff.mp hstates
  refine ⟨q.triple, mem_defaultTriples_of_mem_allQuads hkind hreachable hq, ?_, hobject⟩
  rw [Term.written?, hpredicate, Option.map_some]

end Writes

/-- **Where values have the types of their coercions**: when a graph is compacted with the default
options and a derived context, and this coerces a property to the datatype of all its objects, each
value under the property is that of one of its triples. It has the datatype for its type exactly if
the literal has no native value and is not JSON. -/
theorem coerced_value_type_iff {p : Processor} (hp : Expands p) {src : Source}
    (hkind : src.store.kind = .graph) (hreachable : src.store.Reachable)
    (hoptions : src.settings.options = .null) (hcontext : src.settings.context = .null)
    {rep context : Json} {o : OptionMap}
    (hcall : ⟨.compact rep context, o⟩ ∈ compactCalls p src) {k property d : String}
    (hentry : context.field? k = some (coerced property d)) (hid : d ≠ "@id") (hempty : d ≠ "")
    (hobjects : ∀ t ∈ src.store.defaultTriples, t.predicate.written? = some property →
      ∃ lexical, t.object = .literal lexical (.datatype d))
    {v : Json} (hlisted : Listed rep property v) (hvalue : IsValue v) :
    ∃ t ∈ src.store.defaultTriples, ∃ lexical, t.predicate.written? = some property ∧
      t.object = .literal lexical (.datatype d) ∧ Presented lexical d v ∧
      (v.field? "@type" = some (.str d) ↔ (∀ n, ¬ Native lexical d n) ∧ d ≠ rdfJson) := by
  obtain ⟨data, hstore, hsent, hreply, hderived⟩ := mem_compactCalls_iff.mp hcall
  obtain ⟨fields, hderive, rfl⟩ := exists_derive_of_context hcontext hderived
  have hstring : d ≠ xsdString := ne_xsdString_of_coerced hderive hentry hid
  have hliteral {st : Statement} (hst : st ∈ data.flatMap (·.2))
      (hproperty : st.predicate.value = property) : ∃ t ∈ src.store.defaultTriples, ∃ lexical,
        t.predicate.written? = some property ∧ t.object = .literal lexical (.datatype d) ∧
        st.object = .literal lexical d none := by
    obtain ⟨t, ht, hwritten, hobject⟩ := exists_triple_of_statement hkind hreachable hstore hst
    rw [hproperty] at hwritten
    obtain ⟨lexical, hlexical⟩ := hobjects t ht hwritten
    rw [hlexical, Term.node?, datatypeOr, if_neg hempty] at hobject
    exact ⟨t, ht, lexical, hwritten, hlexical, (Option.some.inj hobject).symm⟩
  have hliterals : ∀ st ∈ data.flatMap (·.2), st.predicate.value = property →
      isResource st.object = false := by
    intro st hst hproperty
    obtain ⟨-, -, lexical, -, -, hobject⟩ := hliteral hst hproperty
    rw [hobject]
    rfl
  obtain ⟨st, hst, hproperty, hcontent⟩ := hp _ _ _ _ hreply _ hliterals _ hlisted hvalue
  obtain ⟨t, ht, lexical, hwritten, hlexical, hobject⟩ := hliteral hst hproperty
  rw [hobject] at hcontent
  have hpresented := presented_of_literalValue (useNativeTypes_of_sent hsent hoptions) hstring
    hcontent
  exact ⟨t, ht, lexical, hwritten, hlexical, hpresented, hpresented.type_iff⟩

def single (property : String) (o : Term) : Source where
  store := Input.addAll { kind := .graph }
    [(⟨.iri "http://example.org/Alice", .iri property, o⟩, none)]

def defaultOptions : OptionMap :=
  [(.text "useNativeTypes", .bool true), (.text "compactArrays", .bool true),
    (.text loaderKey, defaultLoader)]

lemma reply_script (before : List Call) (d : Dataset) (o : OptionMap) :
    ((Script.processor {}).answer before ⟨.fromRdf d, o⟩).reply = Expanded.reply o d := rfl

lemma expands_script : Expands (Script.processor {}) := expands_of_reply reply_script

lemma sent_single (property : String) (o : Term) : Sent (single property o) defaultOptions :=
  .added (.defaults rfl rfl) (by decide)

lemma mem_compactCalls_single {property : String} {value : Term} {rep context : Json} {d : Dataset}
    (hstore : Dataset.ofStore (single property value).store = .ok d)
    (hrep : Expanded.reply defaultOptions d = .value rep)
    (hcontext : (single property value).context = .ok context) :
    ⟨.compact rep context, defaultOptions⟩ ∈
      compactCalls (Script.processor {}) (single property value) :=
  mem_compactCalls_iff.mpr
    ⟨d, hstore, sent_single _ _, (reply_script _ _ _).trans hrep, hcontext⟩

def singleDocument (property : String) (v : Json) : Json :=
  .arr [.obj [("@id", .str "http://example.org/Alice"), (property, .arr [v])]]

lemma listed_singleDocument (property : String) (v : Json) :
    Listed (singleDocument property v) property v :=
  ⟨_, .default List.mem_cons_self (by simp), [v], by simp, .here (by simp)⟩

/-- A date has the type to which its property is coerced. -/
theorem coerced_value_type_iff_born :
    let d := xsdNamespace ++ "date"
    let p := Script.processor {}
    let src := single "http://example.org/born" (.literal "2024-02-29" (.datatype d))
    Expands p ∧ src.store.kind = .graph ∧ src.store.Reachable ∧
    ∃ rep context v, ⟨.compact rep context, defaultOptions⟩ ∈ compactCalls p src ∧
      context.field? "born" = some (coerced "http://example.org/born" d) ∧
      Listed rep "http://example.org/born" v ∧ IsValue v ∧ v.field? "@type" = some (.str d) := by
  intro d p src
  let value : Json := .obj [("@value", .str "2024-02-29"), ("@type", .str d)]
  have hvalue : IsValue value := isValue_cons (by simp [valueKeys])
  have hreachable : src.store.Reachable := (Store.Reachable.empty .graph).addAll _
  have hcall : ⟨.compact (singleDocument "http://example.org/born" value)
      (.obj [("born", coerced "http://example.org/born" d)]), defaultOptions⟩ ∈
        compactCalls p src :=
    mem_compactCalls_single rfl (by with_unfolding_all rfl) (by with_unfolding_all rfl)
  have hentry : (Json.obj [("born", coerced "http://example.org/born" d)]).field? "born" =
      some (coerced "http://example.org/born" d) := rfl
  have hlisted := listed_singleDocument "http://example.org/born" value
  have hobjects : ∀ t ∈ src.store.defaultTriples,
      t.predicate.written? = some "http://example.org/born" →
        ∃ lexical, t.object = .literal lexical (.datatype d) := by
    intro t ht _
    rw [List.mem_singleton.mp ht]
    exact ⟨_, rfl⟩
  obtain ⟨t, ht, lexical, -, hobject, -, htype⟩ := coerced_value_type_iff expands_script rfl
    hreachable rfl rfl hcall hentry (by decide) (by decide) hobjects hlisted hvalue
  refine ⟨expands_script, rfl, hreachable, _, _, value, hcall, hentry, hlisted, hvalue,
    htype.mpr ⟨not_native (by decide) (by decide) (by decide), by decide⟩⟩

/-- Each value has the type to which the context coerces it, where a key has one property and this
has the datatype for all its objects. -/
def CoercionsMatch (p : Processor) (src : Source) : Prop :=
  ∀ rep context o, ⟨.compact rep context, o⟩ ∈ compactCalls p src →
    ∀ k property d, context.field? k = some (coerced property d) → d ≠ "@id" →
      (∀ t ∈ src.store.defaultTriples, ∀ q, property? t = some q →
        propertyKey src.settings.contextOptions.preferPrefixed
          (src.prefixes.getD src.store.bindings) q = k → q = property) →
      (∀ t ∈ src.store.defaultTriples, t.predicate = .iri property →
        ∃ lexical, t.object = .literal lexical (.datatype d)) →
      ∀ v, Listed rep property v → IsValue v → v.field? "@type" = some (.str d)

/-- A number is native, while the context coerces its property to the datatype. -/
theorem not_coercionsMatch : ¬ CoercionsMatch (Script.processor {})
    (single "http://example.org/age" (.literal "42" (.datatype xsdInteger))) := by
  intro h
  let value : Json := .obj [("@value", .int 42)]
  have hcall : ⟨.compact (singleDocument "http://example.org/age" value)
      (.obj [("age", coerced "http://example.org/age" xsdInteger)]), defaultOptions⟩ ∈
        compactCalls (Script.processor {})
          (single "http://example.org/age" (.literal "42" (.datatype xsdInteger))) :=
    mem_compactCalls_single rfl (by with_unfolding_all rfl) (by with_unfolding_all rfl)
  have htype := h _ _ _ hcall "age" "http://example.org/age" xsdInteger rfl (by decide) ?_ ?_ value
    (listed_singleDocument _ _) (isValue_cons (by simp))
  · cases htype
  · intro t ht q hq _
    rw [List.mem_singleton.mp ht] at hq
    exact (Term.iri.inj (property?_eq_some_iff.mp hq).1).symm
  · intro t ht _
    rw [List.mem_singleton.mp ht]
    exact ⟨_, rfl⟩

end Document

end LinkedJson
