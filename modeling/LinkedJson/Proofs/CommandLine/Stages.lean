import LinkedJson.CommandLine.Run
import LinkedJson.Proofs.CommandLine.World

/-!
The stages of a command.

A command reads its configuration, opens its log, gets its settings together and reads its input,
and only then does its work. Each stage ends the command or leaves a world to the next one.
-/

namespace LinkedJson.CommandLine

open Files Rdf

def Command.common : Command → Common
  | .convert c => c.common
  | .context c => c

/-! ### Steps -/

namespace Act

variable {α β : Type}

def runIn (a : Act α) (w : World) : Except Fault α × World := StateT.run (ExceptT.run a) w

@[simp] lemma runIn_pure (a : α) (w : World) : runIn (pure a) w = (.ok a, w) := rfl

@[simp] lemma runIn_get (w : World) : runIn get w = (.ok w, w) := rfl

@[simp] lemma runIn_set (w w' : World) : runIn (set w') w = (.ok ⟨⟩, w') := rfl

@[simp] lemma runIn_modify (f : World → World) (w : World) :
    runIn (modify f) w = (.ok ⟨⟩, f w) := rfl

@[simp] lemma runIn_ofExcept (e : Except Fault α) (w : World) : runIn (ofExcept e) w = (e, w) := by
  cases e <;> rfl

@[simp] lemma runIn_ofFile (e : Except JsonFile.Fault α) (w : World) :
    runIn (ofFile e) w = (e.mapError .file, w) := runIn_ofExcept _ w

@[simp] lemma runIn_ofFailure (e : Except Failure α) (w : World) :
    runIn (ofFailure e) w = (e.mapError .failure, w) := runIn_ofExcept _ w

@[simp] lemma runIn_ofAccident (e : Except Accident α) (w : World) :
    runIn (ofAccident e) w = (e.mapError fun a => .failure (.accident a), w) := by
  rw [ofAccident, runIn_ofFailure]
  cases e <;> rfl

/-- A step that follows on a step is taken in the world that it leaves, and not at all if it
failed. -/
lemma runIn_bind (a : Act α) (f : α → Act β) (w : World) :
    runIn (a >>= f) w = match runIn a w with
      | (.ok a, w) => runIn (f a) w
      | (.error e, w) => (.error e, w) := by
  unfold runIn
  simp only [bind, ExceptT.bind, ExceptT.mk, ExceptT.run, StateT.run, StateT.bind,
    ExceptT.bindCont]
  rcases a w with ⟨_ | _, _⟩ <;> rfl

lemma run_run (a : Act α) (w : World) : (ExceptT.run a).run w = a.runIn w := rfl

end Act

lemma run_bind {α β : Type} (a : StateM World α) (f : α → StateM World β) (w : World) :
    (a >>= f).run w = (f (a.run w).1).run (a.run w).2 := rfl

/-! ### The log -/

/-- The world in which a log is opened, whether or not its level is one. -/
def World.opened (w : World) (path : String) : World :=
  let o := Log.openFile w.shelters w.disk path
  { w with disk := o.disk, messages := w.messages ++ o.messages }

def World.logging (w : World) (threshold : Level) (path : String) (file : Option String) : World :=
  let o := Log.openFile w.shelters w.disk path
  { w.opened path with threshold, logFile := file.map o.disk.absolute }.keepAll
    (file.toList.map fun path => .info ("Logging to: " ++ path))

lemma runIn_openLog (level path : String) (w : World) :
    (openLog level path).runIn w =
      match (Log.openFile w.shelters w.disk path).path with
      | .error a => (.error (.failure (.accident a)), w.opened path)
      | .ok file =>
        match Log.levelOfName level with
        | .ok threshold => (.ok file, w.logging threshold path file)
        | .error a => (.error (.failure (.accident a)), w.opened path) := by
  rw [openLog]
  simp only [Act.runIn_bind, Act.runIn_get, Act.runIn_set, Act.runIn_ofAccident, World.logging,
    World.opened]
  generalize Log.openFile w.shelters w.disk path = o
  rcases o with ⟨disk, a | file, messages⟩
  · rfl
  simp only [Except.mapError]
  rcases Log.levelOfName level with a | threshold
  · rfl
  · cases file <;> rfl

structure AsksLog (c : Common) (w : World) (config : Json.Object) (level path : String) :
    Prop where
  hconfig : configuration w.disk c = .ok config
  hlevel : levelName c config = .ok level
  hpath : logPath config = .ok path

structure OpensLog (c : Common) (w : World) (config : Json.Object) (level path : String)
    (file : Option String) : Prop extends AsksLog c w config level path where
  hfile : (Log.openFile w.shelters w.disk path).path = .ok file

inductive Logs (c : Common) (w : World) (config : Json.Object) : World → Prop
  | mk {level path : String} {file : Option String} (hopens : OpensLog c w config level path file)
    {threshold : Level} (hthreshold : Log.levelOfName level = .ok threshold) :
    Logs c w config (w.logging threshold path file)

/-! ### Settings -/

def settingsPart (config : Json.Object) : Json :=
  (Entries.find? config "serialization").getD .null

abbrev configured (config : Json.Object) : List Notice × Except Failure Settings :=
  Settings.ofMapping (settingsPart config)

def revisedNotices (s : Settings) (fields : List (Settings.Field × Json)) : List Notice :=
  if fields.isEmpty then [] else (setFields s fields).notices

lemma runIn_settingsOf (config : Json.Object) (c : Conversion) (w : World) :
    (settingsOf config c).runIn w =
      match (configured config).2 with
      | .error f => (.error (.failure f), w.keepAll (configured config).1)
      | .ok s =>
        match givenFields (w.keepAll (configured config).1).disk c with
        | .error f => (.error f, w.keepAll (configured config).1)
        | .ok fields => (.ok (setFields s fields),
          (w.keepAll (configured config).1).keepAll (revisedNotices s fields)) := by
  have hconfigured : Settings.ofMapping ((Entries.find? config "serialization").getD .null) =
      configured config := rfl
  rw [settingsOf, hconfigured]
  generalize configured config = settings
  obtain ⟨notices, f | s⟩ := settings
  · rfl
  simp only [Act.runIn_bind, Act.runIn_modify, Act.runIn_ofFailure, Except.mapError,
    Act.runIn_get, Act.runIn_ofExcept]
  rcases givenFields (w.keepAll notices).disk c with f | fields
  · rfl
  · rcases fields with _ | ⟨field, rest⟩ <;> rfl

/-- The ways of a command to its settings. It ends at its configuration, at its log, at the settings
of the configuration or at those of the command line, or it gets through. -/
inductive Preparation (c : Conversion) (w : World) :
    Except Fault (Json.Object × Settings) × World → Prop
  | unread {e : JsonFile.Fault} (hconfig : configuration w.disk c.common = .error e) :
    Preparation c w (.error (.file e), w)
  | noLevelName {config : Json.Object} (hconfig : configuration w.disk c.common = .ok config)
    {a : Accident} (hlevel : levelName c.common config = .error a) :
    Preparation c w (.error (.failure (.accident a)), w)
  | noLogPath {config : Json.Object} (hconfig : configuration w.disk c.common = .ok config)
    {level : String} (hlevel : levelName c.common config = .ok level)
    {a : Accident} (hpath : logPath config = .error a) :
    Preparation c w (.error (.failure (.accident a)), w)
  | noLog {config : Json.Object} {level path : String}
    (hasks : AsksLog c.common w config level path)
    {a : Accident} (hfile : (Log.openFile w.shelters w.disk path).path = .error a) :
    Preparation c w (.error (.failure (.accident a)), w.opened path)
  | noLevel {config : Json.Object} {level path : String} {file : Option String}
    (hopens : OpensLog c.common w config level path file)
    {a : Accident} (hthreshold : Log.levelOfName level = .error a) :
    Preparation c w (.error (.failure (.accident a)), w.opened path)
  | unsettled {config : Json.Object} {w₁ : World} (hlogs : Logs c.common w config w₁)
    {f : Failure} (hsettings : (configured config).2 = .error f) :
    Preparation c w (.error (.failure f), w₁.keepAll (configured config).1)
  | ungiven {config : Json.Object} {w₁ : World} (hlogs : Logs c.common w config w₁)
    {s : Settings} (hsettings : (configured config).2 = .ok s) {f : Fault}
    (hfields : givenFields (w₁.keepAll (configured config).1).disk c = .error f) :
    Preparation c w (.error f, w₁.keepAll (configured config).1)
  | settled {config : Json.Object} {w₁ : World} (hlogs : Logs c.common w config w₁)
    {s : Settings} (hsettings : (configured config).2 = .ok s)
    {fields : List (Settings.Field × Json)}
    (hfields : givenFields (w₁.keepAll (configured config).1).disk c = .ok fields) :
    Preparation c w (.ok (config, setFields s fields),
      (w₁.keepAll (configured config).1).keepAll (revisedNotices s fields))

lemma preparation (c : Conversion) (w : World) : Preparation c w ((prepare c).runIn w) := by
  rw [prepare]
  simp only [Act.runIn_bind, Act.runIn_get, Act.runIn_ofFile]
  rcases hconfig : configuration w.disk c.common with e | config
  · exact .unread hconfig
  simp only [Except.mapError, setUpLog, Act.runIn_bind, Act.runIn_ofAccident]
  rcases hlevel : levelName c.common config with a | level
  · exact .noLevelName hconfig hlevel
  rcases hpath : logPath config with a | path
  · exact .noLogPath hconfig hlevel hpath
  have hasks : AsksLog c.common w config level path := ⟨hconfig, hlevel, hpath⟩
  simp only [runIn_openLog]
  rcases hfile : (Log.openFile w.shelters w.disk path).path with a | file
  · exact .noLog hasks hfile
  simp only
  rcases hthreshold : Log.levelOfName level with a | threshold
  · exact .noLevel ⟨hasks, hfile⟩ hthreshold
  have hlogs : Logs c.common w config (w.logging threshold path file) :=
    ⟨⟨hasks, hfile⟩, hthreshold⟩
  simp only [runIn_settingsOf]
  generalize w.logging threshold path file = w₁ at hlogs ⊢
  rcases hsettings : (configured config).2 with f | s
  · exact .unsettled hlogs hsettings
  simp only
  rcases hfields : givenFields (w₁.keepAll (configured config).1).disk c with f | fields
  · exact .ungiven hlogs hsettings hfields
  · exact .settled hlogs hsettings hfields

/-- There is no other way. -/
lemma Preparation.run_eq {c : Conversion} {w : World}
    {r : Except Fault (Json.Object × Settings) × World} (h : Preparation c w r) :
    (prepare c).runIn w = r := by
  cases h with
  | unread hconfig => simp [prepare, Act.runIn_bind, hconfig, Except.mapError]
  | noLevelName hconfig hlevel =>
    simp [prepare, setUpLog, Act.runIn_bind, hconfig, hlevel, Except.mapError]
  | noLogPath hconfig hlevel hpath =>
    simp [prepare, setUpLog, Act.runIn_bind, hconfig, hlevel, hpath, Except.mapError]
  | noLog hasks hfile =>
    simp [prepare, setUpLog, Act.runIn_bind, runIn_openLog, hasks.hconfig, hasks.hlevel,
      hasks.hpath, hfile, Except.mapError]
  | noLevel hopens hthreshold =>
    simp [prepare, setUpLog, Act.runIn_bind, runIn_openLog, hopens.hconfig, hopens.hlevel,
      hopens.hpath, hopens.hfile, hthreshold, Except.mapError]
  | unsettled hlogs hsettings =>
    obtain ⟨hopens, hthreshold⟩ := hlogs
    simp [-bind_pure_comp, prepare, setUpLog, Act.runIn_bind, runIn_openLog, hopens.hconfig,
      hopens.hlevel, hopens.hpath, hopens.hfile, hthreshold, Except.mapError, runIn_settingsOf, hsettings]
  | ungiven hlogs hsettings hfields =>
    obtain ⟨hopens, hthreshold⟩ := hlogs
    simp [-bind_pure_comp, prepare, setUpLog, Act.runIn_bind, runIn_openLog, hopens.hconfig,
      hopens.hlevel, hopens.hpath, hopens.hfile, hthreshold, Except.mapError, runIn_settingsOf, hsettings, hfields]
  | settled hlogs hsettings hfields =>
    obtain ⟨hopens, hthreshold⟩ := hlogs
    simp [-bind_pure_comp, prepare, setUpLog, Act.runIn_bind, runIn_openLog, hopens.hconfig,
      hopens.hlevel, hopens.hpath, hopens.hfile, hthreshold, Except.mapError, runIn_settingsOf, hsettings, hfields]

/-! ### Documents -/

/-- What a configuration says of time has to be a limit. -/
def limited (config : Json.Object) : Except Accident Unit :=
  match Entries.find? config "remote_context_timeout" with
  | some v => (timeLimit v).map fun _ => ()
  | none => .ok ()

lemma runIn_prepareDocument_of_error {c : Conversion} {w w₁ : World} {f : Fault}
    (hprepare : (prepare c).runIn w = (.error f, w₁)) :
    (prepareDocument c).runIn w = (.error f, w₁) := by
  rw [prepareDocument, Act.runIn_bind, hprepare]

/-- With settings, a command lacks a limit, or else a variant, or it has all for a document. -/
lemma runIn_prepareDocument {c : Conversion} {w w₁ : World} {config : Json.Object} {s : Settings}
    (hprepare : (prepare c).runIn w = (.ok (config, s), w₁)) :
    (prepareDocument c).runIn w =
      match limited config with
      | .error a => (.error (.failure (.accident a)), w₁)
      | .ok () =>
        match Document.variantOf (.str c.variant) with
        | .error e => (.error (.failure (.configuration e)), w₁)
        | .ok v => (.ok (s, v), w₁) := by
  have hdiscard (v : Json) : (discard (Act.ofAccident (timeLimit v))).runIn w₁ =
      ((timeLimit v).mapError (fun a => .failure (.accident a)) |>.map fun _ => (), w₁) := by
    rcases timeLimit v <;> rfl
  rw [prepareDocument, limited, Act.runIn_bind, hprepare]
  simp only
  rcases Entries.find? config "remote_context_timeout" with _ | v
  · simp only [Act.runIn_bind, Act.runIn_ofFailure]
    rcases Document.variantOf (.str c.variant) <;> rfl
  · simp only [Act.runIn_bind, Act.runIn_ofFailure, hdiscard]
    rcases timeLimit v
    · rfl
    · rcases Document.variantOf (.str c.variant) <;> rfl

inductive DocumentPreparation (c : Conversion) (w : World) :
    Except Fault (Settings × Variant) × World → Prop
  | unprepared {f : Fault} {w₁ : World} (hprepare : (prepare c).runIn w = (.error f, w₁)) :
    DocumentPreparation c w (.error f, w₁)
  | unlimited {config : Json.Object} {s : Settings} {w₁ : World}
    (hprepare : (prepare c).runIn w = (.ok (config, s), w₁)) {a : Accident}
    (hlimit : limited config = .error a) :
    DocumentPreparation c w (.error (.failure (.accident a)), w₁)
  | noVariant {config : Json.Object} {s : Settings} {w₁ : World}
    (hprepare : (prepare c).runIn w = (.ok (config, s), w₁)) (hlimit : limited config = .ok ())
    {e : ConfigurationError} (hvariant : Document.variantOf (.str c.variant) = .error e) :
    DocumentPreparation c w (.error (.failure (.configuration e)), w₁)
  | prepared {config : Json.Object} {s : Settings} {w₁ : World}
    (hprepare : (prepare c).runIn w = (.ok (config, s), w₁)) (hlimit : limited config = .ok ())
    {v : Variant} (hvariant : Document.variantOf (.str c.variant) = .ok v) :
    DocumentPreparation c w (.ok (s, v), w₁)

lemma documentPreparation (c : Conversion) (w : World) :
    DocumentPreparation c w ((prepareDocument c).runIn w) := by
  rcases hprepare : (prepare c).runIn w with ⟨f | ⟨config, s⟩, w₁⟩
  · rw [runIn_prepareDocument_of_error hprepare]
    exact .unprepared hprepare
  rw [runIn_prepareDocument hprepare]
  rcases hlimit : limited config with a | _
  · exact .unlimited hprepare hlimit
  simp only
  rcases hvariant : Document.variantOf (.str c.variant) with e | v
  · exact .noVariant hprepare hlimit hvariant
  · exact .prepared hprepare hlimit hvariant

def World.asked (w : World) (t : Trace) : World :=
  { w.keepAll t.notices with calls := w.calls ++ t.calls }

lemma run_readInput (lib : Library) (c : Common) (w : World) : (readInput lib c).run w =
    (inputStore lib w.disk c, w.keepAll (inputNotices (inputStore lib w.disk c))) := rfl

lemma run_documentText (p : Processor) (v : Variant) (src : Document.Source) (w : World) :
    (documentText p v src).run w =
      ((Document.serialize p v src).run.1, w.asked (Document.serialize p v src).run.2) := rfl

lemma run_deliver (output : Option String) (text : String) (w : World) :
    (deliver output text).run w =
      match filled output with
      | none => (.code .success, w.print text)
      | some path =>
        match w.disk.write path (Text.Utf8.encode text) with
        | .error ⟨.null, _⟩ => (.crash .nullPath, w)
        | .error e => (.code .output, w.say ("✗ " ++ ("Error writing output: " ++ e.message)))
        | .ok disk => (.code .success, { w with disk }.say ("✓ Saved to: " ++ path)) := by
  rw [deliver]
  rcases filled output with _ | path
  · rfl
  · have hget : (get : StateM World World).run w = (w, w) := rfl
    simp only [run_bind, hget]
    rcases w.disk.write path (Text.Utf8.encode text) with ⟨t, _⟩ | disk
    · cases t <;> rfl
    · rfl

lemma refuse_ne_success (f : Fault) (w : World) : ((refuse f).run w).1 ≠ .code .success := by
  rw [refuse]
  rcases f.report with a | message <;> exact nofun

lemma refuseInput_ne_success (e : InputFault) (w : World) :
    ((refuseInput e).run w).1 ≠ .code .success := by
  rw [refuseInput]
  rcases e.report with a | message <;> exact nofun

lemma refuseDocument_ne_success (f : Failure) (w : World) :
    ((refuseDocument f).run w).1 ≠ .code .success := by
  rcases f with e | e | a <;> exact nofun

/-- The ways of a conversion. It ends before it has settings, at its input, or without a document,
or it has one and delivers it. -/
inductive Conversion.Course (lib : Library) (p : Processor) (c : Conversion) (w : World) :
    Ending × World → Prop
  | unprepared {f : Fault} {w₁ : World} (hprepare : (prepareDocument c).runIn w = (.error f, w₁)) :
    Course lib p c w ((refuse f).run w₁)
  | unread {s : Settings} {v : Variant} {w₁ : World}
    (hprepare : (prepareDocument c).runIn w = (.ok (s, v), w₁)) {e : InputFault}
    (hinput : inputStore lib w₁.disk c.common = .error e) :
    Course lib p c w ((refuseInput e).run (w₁.keepAll (inputNotices (.error e))))
  | unmade {s : Settings} {v : Variant} {w₁ : World}
    (hprepare : (prepareDocument c).runIn w = (.ok (s, v), w₁)) {store : Store}
    (hinput : inputStore lib w₁.disk c.common = .ok store) {f : Failure} {t : Trace}
    (hmade : (Document.serialize p v { store, settings := s }).run = (.error f, t)) :
    Course lib p c w ((refuseDocument f).run ((w₁.keepAll (inputNotices (.ok store))).asked t))
  | made {s : Settings} {v : Variant} {w₁ : World}
    (hprepare : (prepareDocument c).runIn w = (.ok (s, v), w₁)) {store : Store}
    (hinput : inputStore lib w₁.disk c.common = .ok store) {text : String} {t : Trace}
    (hmade : (Document.serialize p v { store, settings := s }).run = (.ok text, t)) :
    Course lib p c w ((deliver c.output text).run ((w₁.keepAll (inputNotices (.ok store))).asked t))

lemma Conversion.course (lib : Library) (p : Processor) (c : Conversion) (w : World) :
    Course lib p c w ((runConversion lib p c).run w) := by
  rw [runConversion, run_bind, Act.run_run]
  rcases hprepare : (prepareDocument c).runIn w with ⟨f | ⟨s, v⟩, w₁⟩
  · exact .unprepared hprepare
  simp only [run_bind, run_readInput]
  rcases hinput : inputStore lib w₁.disk c.common with e | store
  · exact .unread hprepare hinput
  simp only [run_bind, run_documentText]
  rcases hmade : (Document.serialize p v { store, settings := s }).run with ⟨f | text, t⟩
  · exact .unmade hprepare hinput hmade
  · exact .made hprepare hinput hmade

lemma Conversion.Course.run_eq {lib : Library} {p : Processor} {c : Conversion} {w : World}
    {r : Ending × World} (h : Course lib p c w r) : (runConversion lib p c).run w = r := by
  rw [runConversion, run_bind, Act.run_run]
  cases h with
  | unprepared hprepare => rw [hprepare]
  | unread hprepare hinput => simp only [hprepare, run_bind, run_readInput, hinput]
  | unmade hprepare hinput hmade =>
    simp only [hprepare, run_bind, run_readInput, hinput, run_documentText, hmade]
  | made hprepare hinput hmade =>
    simp only [hprepare, run_bind, run_readInput, hinput, run_documentText, hmade]

/-! ### Contexts -/

inductive Common.Course (lib : Library) (c : Common) (w : World) : Ending × World → Prop
  | unprepared {f : Fault} {w₁ : World}
    (hprepare : (prepare c.conversion).runIn w = (.error f, w₁)) :
    Course lib c w ((refuse f).run w₁)
  | unread {config : Json.Object} {s : Settings} {w₁ : World}
    (hprepare : (prepare c.conversion).runIn w = (.ok (config, s), w₁)) {e : InputFault}
    (hinput : inputStore lib w₁.disk c = .error e) :
    Course lib c w ((refuseInput e).run (w₁.keepAll (inputNotices (.error e))))
  | unmade {config : Json.Object} {s : Settings} {w₁ : World}
    (hprepare : (prepare c.conversion).runIn w = (.ok (config, s), w₁)) {store : Store}
    (hinput : inputStore lib w₁.disk c = .ok store) {e : Context.NoText}
    (hmade : Context.ofStore s.contextOptions none store = .error e) :
    Course lib c w (.crash (.noText e.term), w₁.keepAll (inputNotices (.ok store)))
  | made {config : Json.Object} {s : Settings} {w₁ : World}
    (hprepare : (prepare c.conversion).runIn w = (.ok (config, s), w₁)) {store : Store}
    (hinput : inputStore lib w₁.disk c = .ok store) {context : Json.Object}
    (hmade : Context.ofStore s.contextOptions none store = .ok context) :
    Course lib c w
      (.code .success, (w₁.keepAll (inputNotices (.ok store))).print (contextText context))

lemma Common.course (lib : Library) (c : Common) (w : World) :
    Course lib c w ((runContext lib c).run w) := by
  rw [runContext, run_bind, Act.run_run]
  rcases hprepare : (prepare c.conversion).runIn w with ⟨f | ⟨config, s⟩, w₁⟩
  · exact .unprepared hprepare
  simp only [run_bind, run_readInput]
  rcases hinput : inputStore lib w₁.disk c with e | store
  · exact .unread hprepare hinput
  simp only
  rcases hmade : Context.ofStore s.contextOptions none store with e | context
  · exact .unmade hprepare hinput hmade
  · exact .made hprepare hinput hmade

lemma Common.Course.run_eq {lib : Library} {c : Common} {w : World} {r : Ending × World}
    (h : Course lib c w r) : (runContext lib c).run w = r := by
  rw [runContext, run_bind, Act.run_run]
  cases h with
  | unprepared hprepare => rw [hprepare]
  | unread hprepare hinput => simp only [hprepare, run_bind, run_readInput, hinput]
  | unmade hprepare hinput hmade =>
    simp only [hprepare, run_bind, run_readInput, hinput, hmade]
    rfl
  | made hprepare hinput hmade =>
    simp only [hprepare, run_bind, run_readInput, hinput, hmade]
    rfl

end LinkedJson.CommandLine
