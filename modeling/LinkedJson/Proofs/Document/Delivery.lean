import LinkedJson.Export
import LinkedJson.Proofs.Document.Failures

/-!
What streams are given.

A document goes to a stream when it is complete, so a stream takes all of it or is left alone. This
is so on each way on which a document can go to a stream, and all of them give the same document and
fail alike.
-/

namespace LinkedJson

namespace Trace

def followed (t u : Trace) : Trace where
  calls := t.calls ++ u.calls
  notices := t.notices ++ u.notices
  heap := t.heap ++ u.heap
  handed := t.handed ++ u.handed

def reported (ns : List Notice) : Trace := { notices := ns }

lemma report_empty (ns : List Notice) : ({} : Trace).report ns = reported ns := rfl

lemma report_reported (ns ns' : List Notice) :
    (reported ns).report ns' = reported (ns ++ ns') := rfl

section Followed

variable (ns : List Notice)

lemma followed_empty : (reported ns).followed {} = reported ns := by simp [reported, followed]

lemma edit_followed (u : Trace) (e : Edit) :
    ((reported ns).followed u).edit e = (reported ns).followed (u.edit e) := by
  have hhanded : ((reported ns).followed u).handed = u.handed := List.nil_append _
  rw [edit, edit, hhanded]
  split <;> rfl

lemma record_followed (u : Trace) (call : Call) (answer : Answer) :
    ((reported ns).followed u).record call answer =
      (reported ns).followed (u.record call answer) := by
  have hedits (u : Trace) (edits : List Edit) : edits.foldl edit ((reported ns).followed u) =
      (reported ns).followed (edits.foldl edit u) := by
    induction edits generalizing u with
    | nil => rfl
    | cons e rest ih => rw [List.foldl_cons, List.foldl_cons, edit_followed, ih]
  have hsend : ((reported ns).followed u).send call = (reported ns).followed (u.send call) := rfl
  rw [record, record, hsend, hedits]
  simp [report, followed]

/-- What becomes of calls does not depend on what was reported before. -/
lemma play_followed (p : Processor) (u : Trace) (made : List Call) :
    ((reported ns).followed u).play p made = (reported ns).followed (u.play p made) := by
  induction made generalizing u with
  | nil => rfl
  | cons call rest ih =>
    have hcalls : ((reported ns).followed u).calls = u.calls := List.nil_append _
    rw [play, play, hcalls, record_followed, ih]

end Followed

end Trace

namespace Document

open Rdf

/-! ### Orders -/

/-- A variant, as itself or by a name. -/
inductive VariantChoice where
  | variant (v : Variant)
  | name (n : Json)

def VariantChoice.resolve : VariantChoice → Except ConfigurationError Variant
  | .variant v => .ok v
  | .name n => variantOf n

/-- Settings, as themselves or as a mapping of keys. -/
inductive SettingsChoice where
  | settings (s : Settings)
  | mapping (m : Json)

def SettingsChoice.resolve : SettingsChoice → List Notice × Except Failure Settings
  | .settings s => ([], .ok s)
  | .mapping m => Settings.ofMapping m

/-- What a caller gives for a document. -/
structure Order where
  variant : VariantChoice
  store : Store
  prefixes : Option (Entries String) := none
  base : Json := .null
  settings : SettingsChoice

namespace Order

/-- The variant and the source of an order. The variant is looked for first. -/
def prepare (o : Order) : Work (Variant × Source) := do
  let v ← Work.ofExcept (o.variant.resolve.mapError .configuration)
  Work.report o.settings.resolve.1
  let settings ← Work.ofExcept o.settings.resolve.2
  return (v, { store := o.store, prefixes := o.prefixes, base := o.base, settings })

def serialize (o : Order) (p : Processor) : Work String := do
  let (v, src) ← o.prepare
  Document.serialize p v src

/-- What becomes of an order on a way to a stream, which is gone when the order is prepared. -/
def deliver {α : Type} (o : Order) (way : Variant → Source → Sink α → Delivery α)
    (sink : Sink α) : Delivery α :=
  match o.prepare.run with
  | (.error f, trace) => ⟨.error f, trace, sink⟩
  | (.ok (v, src), trace) => { way v src sink with trace := trace.followed (way v src sink).trace }

end Order

/-! ### Deliveries -/

/-- A stream has taken all of a text, or nothing if there is none, as the caller is told. -/
structure Delivered {α : Type} (encode : String → List α) (made : Except Failure String × Trace)
    (before : Sink α) (d : Delivery α) : Prop where
  outcome : d.outcome = made.1.map fun _ => ()
  trace : d.trace = made.2
  taken : ∀ text, made.1 = .ok text →
    d.sink = { before with content := before.content ++ encode text }
  untouched : ∀ f, made.1 = .error f → d.sink = before

section Deliveries

variable {α : Type} {encode : String → List α} {sink : Sink α}

lemma delivered_deliver (hopen : sink.full = false) (w : Work String) :
    Delivered encode w.run sink (Document.deliver encode sink w) := by
  rw [Document.deliver]
  rcases w.run with ⟨f | text, trace⟩
  · exact ⟨rfl, rfl, by simp, fun _ _ => rfl⟩
  · simp only [Sink.take?, hopen, Bool.false_eq_true, if_false]
    refine ⟨rfl, rfl, ?_, by simp⟩
    rintro _ ⟨⟩
    rw [← hopen]

structure Delivery.Alike (d e : Delivery α) : Prop where
  outcome : d.outcome = e.outcome
  calls : d.trace.calls = e.trace.calls
  sink : d.sink = e.sink

lemma Delivered.alike {made made' : Except Failure String × Trace} {d e : Delivery α}
    (h : Delivered encode made sink d) (h' : Delivered encode made' sink e)
    (htext : made.1 = made'.1) (hcalls : made.2.calls = made'.2.calls) : d.Alike e where
  outcome := by rw [h.outcome, h'.outcome, htext]
  calls := by rw [h.trace, h'.trace, hcalls]
  sink := by
    rcases hmade : made.1 with f | text
    · rw [h.untouched f hmade, h'.untouched f (htext ▸ hmade)]
    · rw [h.taken text hmade, h'.taken text (htext ▸ hmade)]

end Deliveries

/-- A write does not depend on what was reported before, and leaves it. -/
lemma runAfter_serialize_reported (p : Processor) (v : Variant) (src : Source)
    (ns : List Notice) : (serialize p v src).runAfter (.reported ns) =
      ((serialize p v src).run.1, (Trace.reported ns).followed (serialize p v src).run.2) := by
  have hstart : src.start v.form (.reported ns) =
      (Trace.reported ns).followed (src.start v.form {}) := by
    rw [Source.start, Source.start]
    split
    · simp [Trace.reported, Trace.followed, Trace.hold, Trace.fresh, Trace.refs]
    · rw [Trace.followed_empty]
  obtain ⟨made, hplay, h⟩ := exists_exchange p v.form src (.reported ns)
  obtain ⟨made', hplay', h'⟩ := exists_exchange p v.form src {}
  obtain ⟨rfl, hbuilt⟩ := h.unique h'
  rw [Work.run_eq, runAfter_serialize, runAfter_serialize, hbuilt, hplay, hplay', hstart,
    Trace.play_followed]

namespace Order

lemma exists_prepare_eq (o : Order) : ∃ ns, o.prepare.run.2 = .reported ns := by
  rw [prepare, Work.run_eq]
  simp only [Work.runAfter_bind, Work.runAfter_ofExcept]
  rcases o.variant.resolve with _ | v
  · exact ⟨[], rfl⟩
  · rcases o.settings.resolve.2 with _ | s <;> exact ⟨_, rfl⟩

lemma delivered {α : Type} {encode : String → List α} {sink : Sink α} {p : Processor}
    {way : Variant → Source → Sink α → Delivery α}
    (h : ∀ v src, Delivered encode (Document.serialize p v src).run sink (way v src sink))
    (o : Order) : Delivered encode (o.serialize p).run sink (o.deliver way sink) := by
  obtain ⟨ns, hns⟩ := o.exists_prepare_eq
  rw [serialize, deliver, Work.run_eq, Work.runAfter_bind, ← Work.run_eq]
  rcases hprepare : o.prepare.run with ⟨f | ⟨v, src⟩, trace⟩
  · exact ⟨rfl, rfl, by simp, fun _ _ => rfl⟩
  · obtain rfl : trace = .reported ns := (congrArg Prod.snd hprepare).symm.trans hns
    simp only [runAfter_serialize_reported p v src ns]
    obtain ⟨houtcome, htrace, htaken, huntouched⟩ := h v src
    exact ⟨houtcome, by rw [htrace], htaken, huntouched⟩

end Order

/-! ### Exports -/

def ofArguments (store : Store) (a : Export.Arguments) : Order where
  variant := .name a.variant
  store := store
  base := a.base
  settings := .mapping (.obj a.settings)

/-- An export with settings ends as its order, and one without ends on their fault. -/
lemma run_text (p : Processor) (store : Store) (a : Export.Arguments) :
    let exported := (Export.text p store a).run
    (∀ f, (Settings.ofMapping (.obj a.settings)).2 = .error f →
      exported.1 = .error f ∧ exported.2.calls = []) ∧
    ∀ s, (Settings.ofMapping (.obj a.settings)).2 = .ok s →
      exported.1 = ((ofArguments store a).serialize p).run.1 ∧
        exported.2.calls = ((ofArguments store a).serialize p).run.2.calls := by
  simp only [Export.text, Order.serialize, Order.prepare, ofArguments, Work.run_eq,
    Work.runAfter_bind, Work.runAfter_report, Work.runAfter_ofExcept, SettingsChoice.resolve,
    VariantChoice.resolve]
  rcases hsettings : Settings.ofMapping (.obj a.settings) with ⟨notices, f | s⟩
  · refine ⟨?_, by simp⟩
    rintro f ⟨⟩
    exact ⟨rfl, rfl⟩
  · refine ⟨by simp, ?_⟩
    rintro s ⟨⟩
    rcases variantOf a.variant with e | v
    · exact ⟨rfl, rfl⟩
    · simp only [Except.mapError, Work.runAfter_pure, Trace.report_empty, Trace.report_reported,
        runAfter_serialize_reported, true_and]
      rfl

/-- Exports of one order differ only in what is reported. -/
lemma run_text_congr (p : Processor) {store : Store} {a b : Export.Arguments}
    (h : ofArguments store a = ofArguments store b) :
    (Export.text p store a).run.1 = (Export.text p store b).run.1 ∧
      (Export.text p store a).run.2.calls = (Export.text p store b).run.2.calls := by
  obtain ⟨hfault, hok⟩ := run_text p store a
  obtain ⟨hfault', hok'⟩ := run_text p store b
  have hsettings : a.settings = b.settings := by
    simpa [ofArguments] using congrArg Order.settings h
  rcases hmapping : (Settings.ofMapping (.obj a.settings)).2 with f | s
  · rw [(hfault f hmapping).1, (hfault f hmapping).2]
    rw [hsettings] at hmapping
    rw [(hfault' f hmapping).1, (hfault' f hmapping).2]
    exact ⟨rfl, rfl⟩
  · rw [(hok s hmapping).1, (hok s hmapping).2, h]
    rw [hsettings] at hmapping
    exact ⟨(hok' s hmapping).1.symm, (hok' s hmapping).2.symm⟩

/-- An encoding that is asked for does not change the order. -/
lemma ofArguments_put_encoding (store : Store) (keywords : Json.Object) (e : Json) :
    ofArguments store (.of (Entries.put keywords "encoding" e)) =
      ofArguments store (.of keywords) := by
  have hsettings : (Export.Arguments.of (Entries.put keywords "encoding" e)).settings =
      (Export.Arguments.of keywords).settings := by
    simp only [Export.Arguments.of]
    induction keywords with
    | nil => rfl
    | cons k rest ih =>
      by_cases hk : k.1 = "encoding"
      · simp [Entries.put, hk]
      · simp only [Entries.put, hk, if_false, List.filter_cons, ih]
  rw [ofArguments, hsettings, ofArguments]
  simp [Export.Arguments.of, Entries.find?_put]

lemma variantOf_name (v : Variant) : variantOf (.str v.name) = .ok v := by
  obtain ⟨form, pretty⟩ := v
  cases form <;> cases pretty <;> rfl

/-- **A stream takes the whole of a document or is left alone**, on each of the ways to a stream.
A text stream takes the text that a caller is given otherwise, a byte stream the bytes of that text,
and an export the same bytes whatever encoding it is asked for. All of them fail as making the text
does, but an export meets a fault of the settings before it looks for the variant. -/
theorem deliveries_agree (p : Processor) (o : Order) (keywords : Json.Object) {chars : Sink Char}
    {bytes : Sink UInt8} (hchars : chars.full = false) (hbytes : bytes.full = false) :
    Delivered String.toList (o.serialize p).run chars (o.deliver (write p) chars) ∧
    Delivered Text.Utf8.encode (o.serialize p).run bytes (o.deliver (writeBinary p) bytes) ∧
    (∀ v : Variant, VariantChoice.resolve (.name (.str v.name)) = .ok v) ∧
    let a := Export.Arguments.of keywords
    let exported := Export.run p o.store keywords bytes
    (∀ f, (Settings.ofMapping (.obj a.settings)).2 = .error f →
      exported.outcome = .error f ∧ exported.trace.calls = [] ∧ exported.sink = bytes) ∧
    (∀ s, (Settings.ofMapping (.obj a.settings)).2 = .ok s →
      exported.Alike ((ofArguments o.store a).deliver (writeBinary p) bytes)) ∧
    ∀ e, (Export.run p o.store (Entries.put keywords "encoding" e) bytes).Alike exported := by
  have hexport (a : Export.Arguments) : Delivered Text.Utf8.encode (Export.text p o.store a).run
      bytes (deliver Text.Utf8.encode bytes (Export.text p o.store a)) := delivered_deliver hbytes _
  have hbinary (o : Order) : Delivered Text.Utf8.encode (o.serialize p).run bytes
      (o.deliver (writeBinary p) bytes) := o.delivered fun v src => delivered_deliver hbytes _
  refine ⟨o.delivered fun v src => delivered_deliver hchars _, hbinary o, variantOf_name, ?_, ?_,
    fun e => ?_⟩
  · intro f hf
    obtain ⟨herror, hcalls⟩ := (run_text p o.store _).1 f hf
    refine ⟨?_, ?_, (hexport _).untouched f herror⟩
    · rw [Export.run, (hexport _).outcome, herror]
      rfl
    · rw [Export.run, (hexport _).trace, hcalls]
  · intro s hs
    obtain ⟨htext, hcalls⟩ := (run_text p o.store _).2 s hs
    exact (hexport _).alike (hbinary _) htext hcalls
  · obtain ⟨htext, hcalls⟩ := run_text_congr p (ofArguments_put_encoding o.store keywords e)
    exact (hexport _).alike (hexport _) htext hcalls

/-- A document in the expanded form, exported and written under the name of its variant, goes to
the end of what the streams hold. Without a frame there is no framed document, and they are left
alone. -/
theorem deliveries_agree_named :
    let p := Script.processor { fromRdf := .echo }
    let order (name : String) : Order :=
      { variant := .name (.str name), store := { kind := .graph }, settings := .mapping .null }
    let chars : Sink Char := { content := ['#'] }
    let bytes : Sink UInt8 := { content := [35] }
    let keywords (name : String) : Json.Object :=
      [("variant", .str name), ("encoding", .str "latin-1")]
    let text := "\x7b\"@default\":[]\x7d\n"
    ((order "expand_flat").deliver (write p) chars).sink.content = ('#' :: text.toList) ∧
    ((order "expand_flat").deliver (writeBinary p) bytes).sink.content =
      35 :: text.toUTF8.toList ∧
    (Export.run p { kind := .graph } (keywords "EXPAND-FLAT") bytes).sink.content =
      35 :: text.toUTF8.toList ∧
    ((order "frame-flat").deliver (write p) chars).outcome =
      .error (.configuration .noFrame) ∧
    ((order "frame-flat").deliver (write p) chars).sink = chars := by
  intro p order chars bytes keywords text
  have hopen : chars.full = false ∧ bytes.full = false := ⟨rfl, rfl⟩
  obtain ⟨hchars, hbytes, -⟩ := deliveries_agree p (order "expand_flat") [] hopen.1 hopen.2
  have htext : ((order "expand_flat").serialize p).run.1 = .ok text := by decide +kernel
  -- the export is compared with the order that it carries out
  let asked := ofArguments { kind := .graph } (.of (keywords "EXPAND-FLAT"))
  obtain ⟨-, hasked, -, -, hexport, -⟩ :=
    deliveries_agree p asked (keywords "EXPAND-FLAT") hopen.1 hopen.2
  have hsame : (asked.serialize p).run.1 = .ok text := by decide +kernel
  obtain ⟨hframe, -⟩ := deliveries_agree p (order "frame-flat") [] hopen.1 hopen.2
  have hfails : ((order "frame-flat").serialize p).run.1 = .error (.configuration .noFrame) := by
    decide +kernel
  refine ⟨?_, ?_, ?_, ?_, hframe.untouched _ hfails⟩
  · rw [hchars.taken text htext]
    rfl
  · rw [hbytes.taken text htext]
    rfl
  · have hsink : (Export.run p { kind := .graph } (keywords "EXPAND-FLAT") bytes).sink =
        { bytes with content := bytes.content ++ Text.Utf8.encode text } :=
      (hexport _ rfl).sink.trans (hasked.taken text hsame)
    rw [hsink]
    rfl
  · rw [hframe.outcome, hfails]
    rfl

end Document

end LinkedJson
