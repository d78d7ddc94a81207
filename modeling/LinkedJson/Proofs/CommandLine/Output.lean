import LinkedJson.Processor.Script
import LinkedJson.Proofs.CommandLine.Stages
import LinkedJson.Proofs.Context.Expansion
import LinkedJson.Proofs.Document.Failures
import LinkedJson.Rdf.Reader

/-!
What commands leave behind.

Up to its document a command changes no file but its log and prints nothing. So a command that
fails leaves no part of a document, and one that succeeds leaves all of it where it was asked for.
-/

namespace LinkedJson.CommandLine

open Files Disk Rdf World

variable {w w₁ : World}

/-! ### The log -/

/-- Where the log of a command is written, if the configuration asks for one. -/
def Common.logPlaces (c : Common) (w : World) : Set Location :=
  {l | ∃ config path, configuration w.disk c = .ok config ∧ logPath config = .ok path ∧
    l ∈ (Log.openFile w.shelters w.disk path).places}

lemma Common.subsingleton_logPlaces (c : Common) (w : World) : (c.logPlaces w).Subsingleton := by
  rintro l ⟨config, path, hconfig, hpath, hl⟩ l' ⟨config', path', hconfig', hpath', hl'⟩
  obtain rfl := Except.ok.inj (hconfig.symm.trans hconfig')
  obtain rfl := Except.ok.inj (hpath.symm.trans hpath')
  exact Log.Opened.subsingleton_places _ hl hl'

lemma AsksLog.places_subset {c : Common} {config : Json.Object} {level path : String}
    (h : AsksLog c w config level path) :
    (Log.openFile w.shelters w.disk path).places ⊆ c.logPlaces w :=
  fun _ hl => ⟨config, path, h.hconfig, h.hpath, hl⟩

lemma follows_opened (w : World) (path : String) :
    Follows (Log.openFile w.shelters w.disk path).places w (w.opened path) :=
  ⟨Log.keptBut_openFile w.shelters w.disk path, rfl⟩

lemma continues_logging (threshold : Level) {path : String} {file : Option String}
    (hfile : (Log.openFile w.shelters w.disk path).path = .ok file) :
    Continues (Log.openFile w.shelters w.disk path).places w (w.logging threshold path file) := by
  have hopened : Continues (Log.openFile w.shelters w.disk path).places w
      { w.opened path with
        threshold, logFile := file.map (Log.openFile w.shelters w.disk path).disk.absolute } := by
    refine ⟨⟨(follows_opened w path).disk, rfl⟩, ?_⟩
    rintro l ⟨absolute, habsolute, hl⟩
    obtain ⟨path', rfl, rfl⟩ := Option.map_eq_some_iff.mp habsolute
    exact ⟨path', hfile, hl⟩
  exact hopened.keepAll _

lemma Logs.continues {c : Common} {config : Json.Object} (h : Logs c w config w₁) :
    Continues (c.logPlaces w) w w₁ := by
  obtain ⟨hopens, -⟩ := h
  exact (continues_logging _ hopens.hfile).mono hopens.places_subset

/-! ### Settings -/

/-- Up to its settings a command changes no file but its log, and with settings its log stays where
it is. -/
lemma Preparation.follows {c : Conversion} {r : Except Fault (Json.Object × Settings) × World}
    (h : Preparation c w r) : Follows (c.common.logPlaces w) w r.2 ∧
      ∀ settled, r.1 = .ok settled → Continues (c.common.logPlaces w) w r.2 := by
  cases h with
  | unread | noLevelName | noLogPath => exact ⟨.refl _ w, nofun⟩
  | noLog hasks => exact ⟨(follows_opened w _).mono hasks.places_subset, nofun⟩
  | noLevel hopens => exact ⟨(follows_opened w _).mono hopens.places_subset, nofun⟩
  | unsettled hlogs | ungiven hlogs => exact ⟨(hlogs.continues.keepAll _).toFollows, nofun⟩
  | settled hlogs =>
    have hsettled (ns ns' : List Notice) := (hlogs.continues.keepAll ns).keepAll ns'
    exact ⟨(hsettled _ _).toFollows, fun _ _ => hsettled _ _⟩

lemma follows_prepare {c : Conversion} {f : Fault}
    (h : (prepare c).runIn w = (.error f, w₁)) : Follows (c.common.logPlaces w) w w₁ := by
  have hprepare := preparation c w
  rw [h] at hprepare
  exact hprepare.follows.1

lemma continues_prepare {c : Conversion} {settled : Json.Object × Settings}
    (h : (prepare c).runIn w = (.ok settled, w₁)) : Continues (c.common.logPlaces w) w w₁ := by
  have hprepare := preparation c w
  rw [h] at hprepare
  exact hprepare.follows.2 settled rfl

lemma follows_prepareDocument {c : Conversion} {f : Fault}
    (h : (prepareDocument c).runIn w = (.error f, w₁)) : Follows (c.common.logPlaces w) w w₁ := by
  have hdocument := documentPreparation c w
  rw [h] at hdocument
  cases hdocument with
  | unprepared hprepare => exact follows_prepare hprepare
  | unlimited hprepare | noVariant hprepare => exact (continues_prepare hprepare).toFollows

lemma continues_prepareDocument {c : Conversion} {prepared : Settings × Variant}
    (h : (prepareDocument c).runIn w = (.ok prepared, w₁)) :
    Continues (c.common.logPlaces w) w w₁ := by
  have hdocument := documentPreparation c w
  rw [h] at hdocument
  cases hdocument with
  | prepared hprepare => exact continues_prepare hprepare

/-! ### Documents -/

/-- Nothing is reported of a document that is made. -/
lemma notices_of_serialize {p : Processor} {v : Variant} {src : Document.Source} {text : String}
    {t : Trace} (h : (Document.serialize p v src).run = (.ok text, t)) : t.notices = [] := by
  obtain ⟨made, hplay, hexchange⟩ := Document.exists_exchange p v.form src {}
  rw [Work.run_eq, Document.runAfter_serialize] at h
  rcases hbuilt : ((Document.toJson p v.form src).runAfter {}).1 with f | d
  · rw [hbuilt] at h
    cases h
  · obtain ⟨hreturned, -⟩ := hexchange.returned_of_ok hbuilt
    have ht : ((Document.toJson p v.form src).runAfter {}).2 = t := congrArg Prod.snd h
    rw [← ht, hplay, Trace.notices_play_of_returned (by rwa [Document.calls_start]),
      Document.notices_start]

/-- A text is where it was asked for, and nowhere else: at the end of what has been printed, or in
a file that holds nothing but the text. -/
inductive Placed (output : Option String) (text : String) (w : World) : World → Prop
  | printed (h : filled output = none) : Placed output text w (w.print text)
  | written {path : String} (h : filled output = some path) {disk : Disk}
    (hread : disk.read? path = some (Text.Utf8.encode text))
    (hkept : KeptBut {l | w.disk.writable path = .ok l} w.disk disk) :
    Placed output text w ({ w with disk }.say ("✓ Saved to: " ++ path))

lemma deliver_spec (output : Option String) (text : String) (w : World) (places : Set Location) :
    let ended := (deliver output text).run w
    (ended.1 = .code .success → Placed output text w ended.2) ∧
      (ended.1 ≠ .code .success → Follows places w ended.2) := by
  simp only [run_deliver]
  rcases hfilled : filled output with _ | path
  · exact ⟨fun _ => .printed hfilled, fun h => (h rfl).elim⟩
  simp only
  rcases hwrite : w.disk.write path (Text.Utf8.encode text) with ⟨t, _⟩ | disk
  · cases t with
    | null => exact ⟨nofun, fun _ => .refl places w⟩
    | _ => exact ⟨nofun, fun _ => follows_say places w _⟩
  · obtain ⟨l, hl, -, hkept, -⟩ := write_eq_ok hwrite
    exact ⟨fun _ => .written hfilled (read?_of_write hwrite)
      (hkept.mono (Set.singleton_subset_iff.mpr hl)), fun h => (h rfl).elim⟩

lemma follows_failWith (places : Set Location) (code : ExitCode) (message : String) (w : World) :
    Follows places w ((failWith code message).run w).2 := follows_say places w _

lemma follows_refuse (places : Set Location) (f : Fault) (w : World) :
    Follows places w ((refuse f).run w).2 := by
  rw [refuse]
  rcases f.report with a | message
  · exact .refl places w
  · exact follows_failWith places _ _ w

lemma follows_refuseInput (places : Set Location) (e : InputFault) (w : World) :
    Follows places w ((refuseInput e).run w).2 := by
  rw [refuseInput]
  rcases e.report with a | message
  · exact .refl places w
  · exact follows_failWith places _ _ w

lemma follows_refuseDocument (places : Set Location) (f : Failure) (w : World) :
    Follows places w ((refuseDocument f).run w).2 := by
  cases f with
  | configuration | transform => exact follows_failWith places _ _ w
  | accident => exact .refl places w

lemma World.Continues.asked {places : Set Location} (h : Continues places w w₁) (t : Trace) :
    Continues places w (w₁.asked t) := by
  obtain ⟨⟨hdisk, houtput⟩, hlog⟩ := h.keepAll t.notices
  exact ⟨⟨hdisk, houtput⟩, hlog⟩

/-- What a conversion leaves that has made the document of its settings and its input: up to the
document, no file has changed but its log and nothing has been printed, and then the text is where
it was asked for. -/
inductive Conversion.Delivers (lib : Library) (p : Processor) (c : Conversion) (w : World) :
    World → Prop
  | mk {s : Settings} {v : Variant} {w₁ : World}
    (hprepare : (prepareDocument c).runIn w = (.ok (s, v), w₁)) {store : Store}
    (hinput : inputStore lib w₁.disk c.common = .ok store) {text : String} {t : Trace}
    (hmade : (Document.serialize p v { store, settings := s }).run = (.ok text, t))
    (hquiet : t.notices = [])
    (hfollows : Follows (c.common.logPlaces w) w (w₁.keepAll (inputNotices (.ok store))))
    {final : World} (hplaced : Placed c.output text
      ((w₁.keepAll (inputNotices (.ok store))).asked t) final) : Delivers lib p c w final

lemma Conversion.delivered (lib : Library) (p : Processor) (c : Conversion) (w : World) :
    let ended := (runConversion lib p c).run w
    (ended.1 = .code .success → c.Delivers lib p w ended.2) ∧
      (ended.1 ≠ .code .success → Follows (c.common.logPlaces w) w ended.2) := by
  have hcourse := c.course lib p w
  generalize (runConversion lib p c).run w = ended at hcourse
  cases hcourse with
  | unprepared hprepare =>
    exact ⟨fun h => (refuse_ne_success _ _ h).elim,
      fun _ => (follows_prepareDocument hprepare).trans (follows_refuse _ _ _)⟩
  | unread hprepare =>
    have hread (ns : List Notice) := (continues_prepareDocument hprepare).keepAll ns
    exact ⟨fun h => (refuseInput_ne_success _ _ h).elim,
      fun _ => (hread _).toFollows.trans (follows_refuseInput _ _ _)⟩
  | unmade hprepare =>
    have hasked (ns : List Notice) (t : Trace) :=
      ((continues_prepareDocument hprepare).keepAll ns).asked t
    exact ⟨fun h => (refuseDocument_ne_success _ _ h).elim,
      fun _ => (hasked _ _).toFollows.trans (follows_refuseDocument _ _ _)⟩
  | @made s v w₁ hprepare store hinput text t hmade =>
    -- making the document is not reported, so no line of the log comes between
    have hread := (continues_prepareDocument hprepare).keepAll (inputNotices (.ok store))
    have hasked := hread.asked t
    obtain ⟨hplaced, hkept⟩ := deliver_spec c.output text
      ((w₁.keepAll (inputNotices (.ok store))).asked t) (c.common.logPlaces w)
    exact ⟨fun h => .mk hprepare hinput hmade (notices_of_serialize hmade) hread.toFollows
      (hplaced h), fun h => hasked.toFollows.trans (hkept h)⟩

/-! ### Contexts -/

lemma readable_of_definition? {iri : String} {o : Term} {d : Json}
    (h : Context.definition? iri o = some d) : Json.Readable d := by
  have hcoerced (type : String) : Json.Readable (Context.coerced iri type) := by
    refine .obj (by simp) fun f hf => ?_
    simp only [List.mem_cons, List.not_mem_nil, or_false] at hf
    rcases hf with rfl | rfl <;> exact .str _
  rcases o with _ | _ | ⟨_, _ | type | _⟩ | _ | _ <;>
    simp only [Context.definition?, Option.some.injEq, reduceCtorEq] at h
  · rw [← h]
    exact hcoerced _
  · rw [← h]
    exact hcoerced _
  · rw [← h]
    exact .str _
  · split at h <;> rw [← Option.some.inj h]
    · exact .str _
    · exact hcoerced _
  · rw [← h]
    exact .str _

/-- A derived context is a map of texts and coercions, and is read back from its text. -/
lemma readable_of_derive {options : Context.Options} {prefixes : Entries String}
    {triples : List Triple} {context : Json.Object}
    (h : Context.derive options prefixes triples = .ok context) : Json.Readable (.obj context) := by
  obtain ⟨ordered, -, rfl⟩ := Context.exists_perm_of_derive h
  have hnodup := Context.nodup_keys_terms options.preferPrefixed prefixes ordered
  have hkeys := Context.nodup_keys_addPrefixes prefixes hnodup
  refine .obj hkeys fun f hf => ?_
  have hfound := (Entries.find?_eq_some_iff hkeys).mpr hf
  rw [Context.find?_addPrefixes, Option.or_eq_some_iff] at hfound
  rcases hfound with hterm | ⟨-, hprefix⟩
  · obtain ⟨_, t, _, p, -, -, -, hd, -⟩ := (Context.find?_terms_eq_some_iff _ _).mp hterm
    exact readable_of_definition? hd
  · obtain ⟨b, -, hb⟩ := List.mem_map.mp (Entries.mem_of_find? hprefix)
    rw [← (Prod.mk.inj hb).2]
    exact .str _

structure Pretty (d : Json) (text : String) : Prop where
  rendered : Document.render ⟨.compact, true⟩ d = .ok text
  parsed : Json.parse text = .ok d
  last : ∃ lines, text.toList = lines ++ ['\n'] ∧ lines.getLast? ≠ some '\n'

lemma pretty_contextText {context : Json.Object} (h : Json.Readable (.obj context)) :
    Pretty (.obj [("@context", .obj context)]) (contextText context) := by
  have hd : Json.Readable (.obj [("@context", .obj context)]) :=
    .obj (by simp) (by simpa using h)
  have hfeed : Json.Grammar.Space ['\n'] := by simp [Json.Grammar.Space, Json.isSpace]
  have htext : contextText context =
      String.ofList (Json.print .pretty 0 (.obj [("@context", .obj context)]) ++ ['\n']) := by
    rw [contextText, String.ofList_append]
  refine ⟨?_, ?_, _, by rw [htext, String.toList_ofList], Json.getLast?_print_ne .pretty 0 _⟩
  · rw [Document.render_of_writable (Document.obstacle?_of_readable hd), htext]
    rfl
  · rw [Json.parse, htext, String.toList_ofList, Json.parseChars_print hd .pretty hfeed]

/-- What a command leaves that has printed the context of its input: up to it, no file has changed
but the log and nothing has been printed. -/
inductive Common.Prints (lib : Library) (c : Common) (w : World) : World → Prop
  | mk {config : Json.Object} {s : Settings} {w₁ : World}
    (hprepare : (prepare c.conversion).runIn w = (.ok (config, s), w₁)) {store : Store}
    (hinput : inputStore lib w₁.disk c = .ok store) {context : Json.Object}
    (hmade : Context.ofStore s.contextOptions none store = .ok context)
    (hfollows : Follows (c.logPlaces w) w (w₁.keepAll (inputNotices (.ok store))))
    {text : String} (htext : Pretty (.obj [("@context", .obj context)]) text) :
    Prints lib c w ((w₁.keepAll (inputNotices (.ok store))).print text)

lemma Common.printed (lib : Library) (c : Common) (w : World) :
    let ended := (runContext lib c).run w
    (ended.1 = .code .success → c.Prints lib w ended.2) ∧
      (ended.1 ≠ .code .success → Follows (c.logPlaces w) w ended.2) := by
  have hcourse := c.course lib w
  generalize (runContext lib c).run w = ended at hcourse
  cases hcourse with
  | unprepared hprepare =>
    exact ⟨fun h => (refuse_ne_success _ _ h).elim,
      fun _ => (follows_prepare hprepare).trans (follows_refuse _ _ _)⟩
  | unread hprepare =>
    have hread (ns : List Notice) := (continues_prepare hprepare).keepAll ns
    exact ⟨fun h => (refuseInput_ne_success _ _ h).elim,
      fun _ => (hread _).toFollows.trans (follows_refuseInput _ _ _)⟩
  | unmade hprepare => exact ⟨nofun, fun _ => ((continues_prepare hprepare).keepAll _).toFollows⟩
  | @made _ _ _ hprepare store hinput _ hmade =>
    have hread := (continues_prepare hprepare).keepAll (inputNotices (.ok store))
    have htext := pretty_contextText (readable_of_derive hmade)
    exact ⟨fun _ => .mk hprepare hinput hmade hread.toFollows htext, fun h => (h rfl).elim⟩

/-! ### Commands -/

inductive Command.Leaves (lib : Library) (p : Processor) (w : World) : Command → World → Prop
  | document {c : Conversion} {final : World} (h : c.Delivers lib p w final) :
    Leaves lib p w (.convert c) final
  | context {c : Common} {final : World} (h : c.Prints lib w final) :
    Leaves lib p w (.context c) final

/-- **A command that succeeds leaves all of its text where it was asked for, and one that does not
leaves nothing of it.** Without success nothing has been printed, and no file has changed but the
one of the log. -/
theorem run_output (lib : Library) (p : Processor) (command : Command) (w : World) :
    let ended := (command.run lib p).run w
    (ended.1 = .code .success → command.Leaves lib p w ended.2) ∧
    (ended.1 ≠ .code .success → Follows (command.common.logPlaces w) w ended.2) ∧
    (command.common.logPlaces w).Subsingleton := by
  cases command with
  | convert c =>
    obtain ⟨hdelivers, hkept⟩ := c.delivered lib p w
    exact ⟨fun h => .document (hdelivers h), hkept, c.common.subsingleton_logPlaces w⟩
  | context c =>
    obtain ⟨hprints, hkept⟩ := c.printed lib w
    exact ⟨fun h => .context (hprints h), hkept, c.subsingleton_logPlaces w⟩

lemma Common.logPlaces_eq_empty {c : Common} (h : filled c.config = none) (w : World) :
    c.logPlaces w = ∅ := by
  rw [Set.eq_empty_iff_forall_notMem]
  rintro l ⟨config, path, hconfig, hpath, _, hopened, -⟩
  rw [configuration, h] at hconfig
  obtain rfl := Except.ok.inj hconfig
  obtain rfl := Except.ok.inj hpath
  cases hopened

/-- A conversion replaces the file that it reads. If it does not find what to read, that file is as
it was. A context is all that its command prints. -/
theorem run_output_replaced :
    let lib := Reader.library []
    let p := Script.processor { fromRdf := .echo }
    let w : World := .ofFiles "" "<http://e.org/s> <http://e.org/p> \"o\" .\n"
    let convert (input : String) : Command :=
      .convert { common := { input }, output := some "in.nt", variant := "expand-flat" }
    let replaced := ((convert "in.nt").run lib p).run w
    let refused := ((convert "out.nt").run lib p).run w
    let printed := ((Command.context { input := "in.nt" }).run lib p).run w
    (replaced.1 = .code .success ∧ replaced.2.output = "" ∧
      ∃ text, replaced.2.disk.read? "in.nt" = some (Text.Utf8.encode text)) ∧
    (refused.1 = .code .input ∧ refused.2.output = "" ∧
      refused.2.disk.fileAt? ["in.nt"] = w.disk.fileAt? ["in.nt"]) ∧
    printed.1 = .code .success ∧
      ∃ context, Pretty (.obj [("@context", .obj context)]) printed.2.output := by
  intro lib p w convert replaced refused printed
  have hreplaced : replaced.1 = .code .success := by decide +kernel
  have hrefused : refused.1 = .code .input := by decide +kernel
  obtain ⟨hleaves, -⟩ := run_output lib p (convert "in.nt") w
  obtain ⟨-, hkept, -⟩ := run_output lib p (convert "out.nt") w
  have hfollows := hkept fun h => nomatch hrefused.symm.trans h
  have hprinted : printed.1 = .code .success := by decide +kernel
  obtain ⟨hprints, -⟩ := run_output lib p (.context { input := "in.nt" }) w
  refine ⟨⟨hreplaced, ?_⟩, ⟨hrefused, hfollows.output, hfollows.disk.files _ ?_⟩, hprinted, ?_⟩
  · obtain ⟨hdelivers⟩ := hleaves hreplaced
    generalize replaced.2 = final at hdelivers
    obtain ⟨-, -, -, hquiet, hfollows, hplaced⟩ := hdelivers
    cases hplaced with
    | printed hnone => cases hnone
    | written hpath hread =>
      cases hpath
      refine ⟨?_, _, hread⟩
      rw [World.say, World.asked, hquiet]
      exact hfollows.output
  · rw [Command.common, Common.logPlaces_eq_empty rfl]
    exact Set.notMem_empty _
  · obtain _ | ⟨hprints⟩ := hprints hprinted
    generalize printed.2 = final at hprints
    obtain @⟨_, _, _, _, _, _, _, _, hfollows, text, htext⟩ := hprints
    have houtput : w.output ++ text = text := String.empty_append
    rw [← houtput, ← hfollows.output] at htext
    exact ⟨_, htext⟩

end LinkedJson.CommandLine
