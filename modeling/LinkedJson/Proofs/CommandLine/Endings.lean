import LinkedJson.Processor.Script
import LinkedJson.Proofs.CommandLine.Stages
import LinkedJson.Proofs.Document.Failures
import LinkedJson.Rdf.Reader

/-!
How commands end.

A command tells what it fails on by its code. What it has no code for are accidents without a text:
values of a configuration that are of a kind that no step was meant to take, and the accidents of
making a document or a context.
-/

namespace LinkedJson.CommandLine

open Files Rdf

/-! ### What is told -/

lemma Fault.report_failure_iff {f : Failure} {a : Accident} :
    (Fault.failure f).report = .error a ↔ f = .accident a ∧ a.text? = none := by
  rcases f with e | e | a'
  · simp [report]
  · simp [report]
  · rw [report]
    rcases htext : a'.text? with _ | text
    · simp only [Except.error.injEq, Failure.accident.injEq]
      constructor
      · rintro rfl
        exact ⟨rfl, htext⟩
      · exact And.left
    · simp only [Failure.accident.injEq, reduceCtorEq, false_iff, not_and]
      rintro rfl
      simp [htext]

lemma Fault.report_file_iff {e : JsonFile.Fault} {a : Accident} :
    (Fault.file e).report = .error a ↔ ∃ refused, e = .refused refused ∧ a = .refusedPath refused := by
  cases e <;> simp [report, @eq_comm _ a]

def Fault.Told (f : Fault) : Prop := ∃ message, f.report = .ok message

lemma Fault.Told.report_ne {f : Fault} (h : f.Told) (a : Accident) : f.report ≠ .error a := by
  obtain ⟨message, hmessage⟩ := h
  simp [hmessage]

lemma told_of_parseText {field text : String} {f : Failure}
    (h : Settings.parseText field text = .error f) : (Fault.failure f).Told := by
  rw [Settings.parseText] at h
  split at h <;> cases h <;> exact ⟨_, rfl⟩

lemma told_of_fieldValue {field : Settings.Field} {v : Json} {f : Failure}
    (h : Settings.fieldValue field v = .error f) : (Fault.failure f).Told := by
  unfold Settings.fieldValue at h
  split at h
  · exact told_of_parseText h
  · cases h

lemma told_of_setKeys {s : Settings} {reported : List Notice} {keys : List (String × Json)}
    {f : Failure} (h : (s.setKeys reported keys).2 = .error f) : (Fault.failure f).Told := by
  induction keys generalizing s reported with
  | nil => cases h
  | cons key rest ih =>
    rw [Settings.setKeys] at h
    split at h
    · exact ih h
    · split at h
      · exact ih h
      · next hvalue =>
        cases h
        exact told_of_fieldValue hvalue

lemma error_or_of_bind {ε α β : Type} {x : Except ε α} {f : α → Except ε β} {e : ε}
    (h : x >>= f = .error e) : x = .error e ∨ ∃ a, x = .ok a ∧ f a = .error e := by
  rcases x with e' | a
  · cases h
    exact .inl rfl
  · exact .inr ⟨a, rfl, h⟩

lemma told_of_textField {field : Settings.Field} {text : Option String} {f : Fault}
    (h : textField field text = .error f) : f.Told := by
  rw [textField] at h
  split at h
  · cases h
  · next text' _ =>
    rcases error_or_of_bind h with hparse | ⟨v, -, hv⟩
    · rcases hparse' : Settings.parseText field.name text' with e | v <;> rw [hparse'] at hparse <;>
        cases hparse
      exact told_of_parseText hparse'
    · cases hv

/-! ### Paths that are refused -/

inductive Refuses (d : Disk) (argument : Option String) : Accident → Prop
  | mk {path : String} (hpath : filled argument = some path)
    (hlong : d.lookUp (Path.plain path) = .error .tooLong) :
    Refuses d argument (.refusedPath ⟨.tooLong, Path.plain path⟩)

lemma load_refused_iff {d : Disk} {path description : String} {e : FileError} :
    JsonFile.load d path description = .error (.refused e) ↔
      e = ⟨.tooLong, Path.plain path⟩ ∧ d.lookUp (Path.plain path) = .error .tooLong := by
  rw [← Disk.seek_eq_error_iff, JsonFile.load]
  rcases d.seek (Path.plain path) with e' | _ | bytes
  · simp [Except.mapError, bind, Except.bind]
  · exact iff_of_false nofun nofun
  · simp only [Except.mapError, bind, Except.bind, reduceCtorEq, iff_false]
    rw [JsonFile.ofBytes]
    split
    · simp
    · rw [JsonFile.ofChars]
      split <;> simp

lemma report_of_configuration_iff {d : Disk} {c : Common} {a : Accident} :
    (∃ e, configuration d c = .error e ∧ (Fault.file e).report = .error a) ↔
      (∀ path, filled c.config = some path → JsonFile.isConfigurationName path = true) ∧
        Refuses d c.config a := by
  rw [configuration]
  constructor
  · rintro ⟨e, herror, hreport⟩
    obtain ⟨refused, rfl, rfl⟩ := Fault.report_file_iff.mp hreport
    split at herror
    · cases herror
    · next path hpath =>
      rw [JsonFile.loadConfiguration] at herror
      split at herror
      · cases herror
      split at herror
      · cases herror
      next hname =>
      split at herror
      · next hload =>
        cases herror
        obtain ⟨rfl, hlong⟩ := load_refused_iff.mp hload
        refine ⟨fun path' hpath' => ?_, .mk hpath hlong⟩
        obtain rfl := Option.some.inj (hpath.symm.trans hpath')
        simpa using hname
      · cases herror
      · cases herror
  · rintro ⟨hname, @⟨path, hpath, hlong⟩⟩
    refine ⟨.refused ⟨.tooLong, _⟩, ?_, rfl⟩
    have hne : path ≠ "" := by simpa [filled] using (Option.filter_eq_some_iff.mp hpath).2
    rw [hpath]
    simp only [JsonFile.loadConfiguration, if_neg hne, hname _ hpath,
      load_refused_iff.mpr ⟨rfl, hlong⟩]
    rfl

lemma report_of_fileField_iff {d : Disk} {field : Settings.Field} {description : String}
    {argument : Option String} {a : Accident} :
    (∃ f, fileField d field description argument = .error f ∧ f.report = .error a) ↔
      Refuses d argument a := by
  rw [fileField]
  constructor
  · rintro ⟨f, herror, hreport⟩
    split at herror
    · cases herror
    · next path hpath =>
      rcases hload : JsonFile.load d path description with e | v <;> rw [hload] at herror <;>
        cases herror
      obtain ⟨refused, rfl, rfl⟩ := Fault.report_file_iff.mp hreport
      obtain ⟨rfl, hlong⟩ := load_refused_iff.mp hload
      exact .mk hpath hlong
  · rintro ⟨hpath, hlong⟩
    refine ⟨.file (.refused ⟨.tooLong, _⟩), ?_, rfl⟩
    rw [hpath]
    simp only [load_refused_iff.mpr ⟨rfl, hlong⟩]
    rfl

/-- A path on the command line is too long, and no field before it is at fault. -/
inductive RefusesField (d : Disk) (c : Conversion) (a : Accident) : Prop
  | context (h : Refuses d c.context a)
  | frame {context substitution : List (Settings.Field × Json)}
    (hcontext : fileField d .context "context file" c.context = .ok context)
    (hsubstitution : textField .contextSubstitution c.contextSubstitution = .ok substitution)
    (h : Refuses d c.frame a)

lemma report_of_givenFields_iff {d : Disk} {c : Conversion} {a : Accident} :
    (∃ f, givenFields d c = .error f ∧ f.report = .error a) ↔ RefusesField d c a := by
  constructor
  · rintro ⟨f, herror, hreport⟩
    rcases error_or_of_bind herror with hcontext | ⟨context, hcontext, herror⟩
    · exact .context (report_of_fileField_iff.mp ⟨f, hcontext, hreport⟩)
    rcases error_or_of_bind herror with hsubstitution | ⟨substitution, hsubstitution, herror⟩
    · exact ((told_of_textField hsubstitution).report_ne a hreport).elim
    rcases error_or_of_bind herror with hframe | ⟨frame, -, herror⟩
    · exact .frame hcontext hsubstitution (report_of_fileField_iff.mp ⟨f, hframe, hreport⟩)
    · cases herror
  · rintro (h | ⟨hcontext, hsubstitution, h⟩)
    · obtain ⟨f, hcontext, hreport⟩ := report_of_fileField_iff.mpr h
      exact ⟨f, by rw [givenFields, hcontext]; rfl, hreport⟩
    · obtain ⟨f, hframe, hreport⟩ := report_of_fileField_iff.mpr h
      exact ⟨f, by rw [givenFields, hcontext, hsubstitution, hframe]; rfl, hreport⟩

/-! ### Settings without a code -/

def readsAsNumber : Json → Bool
  | .null | .arr _ | .obj _ | .foreign _ => false
  | .bool _ | .int _ | .double _ | .str _ => true

/-- What leaves a command without settings and without a code. Of a configuration: a log level that
is no text, a log file that is neither a text nor nothing, the name of a table where a level is
named, and settings that are neither an object nor nothing. Of a command line: a path that is too
long. -/
inductive Unusable (c : Conversion) (w : World) : Accident → Prop
  | configuration {a : Accident} (hname : ∀ path, filled c.common.config = some path →
      JsonFile.isConfigurationName path = true) (h : Refuses w.disk c.common.config a) :
    Unusable c w a
  | level {config : Json.Object} (hconfig : configuration w.disk c.common = .ok config)
    (hflag : filled c.common.logLevel = none) {v : Json}
    (hv : Entries.find? config "log_level" = some v) (hkind : ∀ name, v ≠ .str name) :
    Unusable c w .levelKind
  | logFile {config : Json.Object} (hconfig : configuration w.disk c.common = .ok config)
    {level : String} (hlevel : levelName c.common config = .ok level) {v : Json}
    (hv : Entries.find? config "log_file" = some v) (hkind : ∀ path, v ≠ .str path)
    (htruthy : v.truthy = true) : Unusable c w .logFileKind
  | table {config : Json.Object} {level path : String} {file : Option String}
    (hopens : OpensLog c.common w config level path file)
    (hname : String.ofList (Text.asciiCapitals level.toList) = "_STYLES") :
    Unusable c w .levelTable
  | settings {config : Json.Object} {w₁ : World} (hlogs : Logs c.common w config w₁) {v : Json}
    (hv : Entries.find? config "serialization" = some v) (hkind : v.isObject = false)
    (htruthy : v.truthy = true) : Unusable c w .settingsKind
  | field {config : Json.Object} {w₁ : World} (hlogs : Logs c.common w config w₁) {s : Settings}
    (hsettings : (configured config).2 = .ok s) {a : Accident}
    (h : RefusesField (w₁.keepAll (configured config).1).disk c a) : Unusable c w a

lemma levelName_eq_error_iff {c : Common} {config : Json.Object} {a : Accident} :
    levelName c config = .error a ↔ a = .levelKind ∧ filled c.logLevel = none ∧
      ∃ v, Entries.find? config "log_level" = some v ∧ ∀ name, v ≠ .str name := by
  rw [levelName]
  rcases filled c.logLevel with _ | name
  · rcases Entries.find? config "log_level" with _ | v
    · simp
    · cases v <;> simp [@eq_comm _ a]
  · simp

lemma logPath_eq_error_iff {config : Json.Object} {a : Accident} :
    logPath config = .error a ↔ a = .logFileKind ∧
      ∃ v, Entries.find? config "log_file" = some v ∧ (∀ path, v ≠ .str path) ∧
        v.truthy = true := by
  rw [logPath]
  rcases Entries.find? config "log_file" with _ | v
  · simp [Json.truthy]
  · cases v <;> simp [Json.truthy, @eq_comm _ a] <;> split_ifs <;> simp_all

lemma levelOfName_eq_error_iff {level : String} {a : Accident} :
    (Log.levelOfName level = .error a ∧ a.text? = none) ↔
      a = .levelTable ∧ String.ofList (Text.asciiCapitals level.toList) = "_STYLES" := by
  rw [Log.levelOfName]
  generalize String.ofList (Text.asciiCapitals level.toList) = capitals
  constructor
  · rintro ⟨herror, htext⟩
    rw [Log.levelOf] at herror
    split at herror
    · cases herror
    · split_ifs at herror with _ _ _ hname
      · cases herror
        cases htext
      · cases herror
        exact ⟨rfl, hname⟩
  · rintro ⟨rfl, rfl⟩
    exact ⟨rfl, rfl⟩

lemma report_of_configured_iff {config : Json.Object} {f : Failure} {a : Accident} :
    ((configured config).2 = .error f ∧ (Fault.failure f).report = .error a) ↔
      f = .accident .settingsKind ∧ a = .settingsKind ∧
        ∃ v, Entries.find? config "serialization" = some v ∧ v.isObject = false ∧
          v.truthy = true := by
  have hpart : settingsPart config = (Entries.find? config "serialization").getD .null := rfl
  rw [configured, hpart]
  unfold Settings.ofMapping
  constructor
  · rintro ⟨herror, hreport⟩
    split at herror
    · cases herror
    · next htruthy =>
      rw [Bool.not_eq_true, Bool.not_eq_false'] at htruthy
      rcases hv : Entries.find? config "serialization" with _ | v
      · rw [hv] at htruthy
        cases htruthy
      rw [hv, Option.getD_some] at htruthy herror
      split at herror
      · exact ((told_of_setKeys herror).report_ne a hreport).elim
      · next hkind =>
        cases herror
        cases hreport
        refine ⟨rfl, rfl, v, rfl, ?_, htruthy⟩
        cases v <;> first | rfl | exact (hkind _ rfl).elim
  · rintro ⟨rfl, rfl, v, hv, hkind, htruthy⟩
    refine ⟨?_, rfl⟩
    rw [hv, Option.getD_some, htruthy]
    cases v <;> first | rfl | cases hkind

/-- A command is left without settings and without a code by what is unusable, and by nothing
else. -/
lemma unusable_iff {c : Conversion} {w : World} {a : Accident} :
    (∃ f, ((prepare c).runIn w).1 = .error f ∧ f.report = .error a) ↔ Unusable c w a := by
  constructor
  · rintro ⟨f, hf, hreport⟩
    have hprepare := preparation c w
    generalize (prepare c).runIn w = ended at hf hprepare
    cases hprepare with
    | unread hconfig =>
      cases hf
      obtain ⟨hname, hrefuses⟩ := report_of_configuration_iff.mp ⟨_, hconfig, hreport⟩
      exact .configuration hname hrefuses
    | noLevelName hconfig hlevel =>
      cases hf
      obtain ⟨h, -⟩ := Fault.report_failure_iff.mp hreport
      cases h
      obtain ⟨rfl, hflag, v, hv, hkind⟩ := levelName_eq_error_iff.mp hlevel
      exact .level hconfig hflag hv hkind
    | noLogPath hconfig hlevel hpath =>
      cases hf
      obtain ⟨h, -⟩ := Fault.report_failure_iff.mp hreport
      cases h
      obtain ⟨rfl, v, hv, hkind, htruthy⟩ := logPath_eq_error_iff.mp hpath
      exact .logFile hconfig hlevel hv hkind htruthy
    | noLog _ hfile =>
      cases hf
      obtain ⟨h, htext⟩ := Fault.report_failure_iff.mp hreport
      cases h
      obtain rfl := Log.path_openFile_error hfile
      cases htext
    | noLevel hopens hthreshold =>
      cases hf
      obtain ⟨h, htext⟩ := Fault.report_failure_iff.mp hreport
      cases h
      obtain ⟨rfl, hname⟩ := levelOfName_eq_error_iff.mp ⟨hthreshold, htext⟩
      exact .table hopens hname
    | unsettled hlogs hsettings =>
      cases hf
      obtain ⟨-, rfl, v, hv, hkind, htruthy⟩ :=
        report_of_configured_iff.mp ⟨hsettings, hreport⟩
      exact .settings hlogs hv hkind htruthy
    | ungiven hlogs hsettings hfields =>
      cases hf
      exact .field hlogs hsettings (report_of_givenFields_iff.mp ⟨_, hfields, hreport⟩)
    | settled => cases hf
  · intro h
    cases h with
    | configuration hname hrefuses =>
      obtain ⟨e, hconfig, hreport⟩ := report_of_configuration_iff.mpr ⟨hname, hrefuses⟩
      exact ⟨_, by rw [(Preparation.unread hconfig).run_eq], hreport⟩
    | level hconfig hflag hv hkind =>
      have hlevel := levelName_eq_error_iff.mpr ⟨rfl, hflag, _, hv, hkind⟩
      exact ⟨_, by rw [(Preparation.noLevelName hconfig hlevel).run_eq], rfl⟩
    | logFile hconfig hlevel hv hkind htruthy =>
      have hpath := logPath_eq_error_iff.mpr ⟨rfl, _, hv, hkind, htruthy⟩
      exact ⟨_, by rw [(Preparation.noLogPath hconfig hlevel hpath).run_eq], rfl⟩
    | table hopens hname =>
      obtain ⟨hthreshold, -⟩ := levelOfName_eq_error_iff.mpr ⟨rfl, hname⟩
      exact ⟨_, by rw [(Preparation.noLevel hopens hthreshold).run_eq], rfl⟩
    | settings hlogs hv hkind htruthy =>
      obtain ⟨hsettings, hreport⟩ :=
        report_of_configured_iff.mpr ⟨rfl, rfl, _, hv, hkind, htruthy⟩
      exact ⟨_, by rw [(Preparation.unsettled hlogs hsettings).run_eq], hreport⟩
    | field hlogs hsettings hrefuses =>
      obtain ⟨f, hfields, hreport⟩ := report_of_givenFields_iff.mpr hrefuses
      exact ⟨_, by rw [(Preparation.ungiven hlogs hsettings hfields).run_eq], hreport⟩

/-! ### Inputs without a code -/

inductive RefusesInput (d : Disk) (c : Common) : Accident → Prop
  | mk (hlong : d.lookUp (Path.plain c.input) = .error .tooLong) :
    RefusesInput d c (.refusedPath ⟨.tooLong, Path.plain c.input⟩)

lemma report_of_inputStore_iff (lib : Library) {d : Disk} {c : Common} {a : Accident} :
    (∃ e, inputStore lib d c = .error e ∧ e.report = .error a) ↔ RefusesInput d c a := by
  rw [inputStore]
  constructor
  · rintro ⟨e, herror, hreport⟩
    rcases error_or_of_bind herror with hseek | ⟨found, -, herror⟩
    · rcases hseek' : d.seek (Path.plain c.input) with refused | found <;> rw [hseek'] at hseek <;>
        cases hseek
      cases hreport
      obtain ⟨rfl, hlong⟩ := Disk.seek_eq_error_iff.mp hseek'
      exact .mk hlong
    · rcases found with _ | bytes
      · cases herror
        cases hreport
      · simp only at herror
        rcases hread : Input.ofBytes lib bytes c.inputFormat (Path.plain c.input) with f | store <;>
          rw [hread] at herror <;> cases herror
        cases hreport
  · rintro ⟨hlong⟩
    rw [Disk.seek_eq_error_iff.mpr ⟨rfl, hlong⟩]
    exact ⟨.refused _, rfl, rfl⟩

def InputFault.ending (e : InputFault) : Ending :=
  match e.report with
  | .ok _ => .code .input
  | .error a => .crash a

lemma refuseInput_ending (e : InputFault) (w : World) : ((refuseInput e).run w).1 = e.ending := by
  rw [refuseInput, InputFault.ending]
  rcases e.report with a | message <;> rfl

lemma InputFault.ending_eq_crash_iff {e : InputFault} {a : Accident} :
    e.ending = .crash a ↔ e.report = .error a := by
  rw [ending]
  rcases e.report with a' | message <;> simp

/-! ### Documents without a code -/

/-- What leaves a conversion without a code: what is unusable, a limit that is no number or one too
large, an input whose path is too long, an accident of making the document, and a null character
in the path of the output. -/
inductive Conversion.Escapes (lib : Library) (p : Processor) (c : Conversion) (w : World) :
    Accident → Prop
  | settings {a : Accident} (h : Unusable c w a) : Escapes lib p c w a
  | limitKind {config : Json.Object} {s : Settings} {w₁ : World}
    (hprepare : (prepare c).runIn w = (.ok (config, s), w₁)) {v : Json}
    (hv : Entries.find? config "remote_context_timeout" = some v)
    (hkind : readsAsNumber v = false) : Escapes lib p c w .timeLimitKind
  | limitSize {config : Json.Object} {s : Settings} {w₁ : World}
    (hprepare : (prepare c).runIn w = (.ok (config, s), w₁)) {n : Int}
    (hv : Entries.find? config "remote_context_timeout" = some (.int n)) {negative : Bool}
    (hsize : Double.ofFraction (n < 0) n.natAbs 1 = .infinite negative) :
    Escapes lib p c w .timeLimitSize
  | input {s : Settings} {v : Variant} {w₁ : World}
    (hprepare : (prepareDocument c).runIn w = (.ok (s, v), w₁)) {a : Accident}
    (h : RefusesInput w₁.disk c.common a) : Escapes lib p c w a
  | document {s : Settings} {v : Variant} {w₁ : World}
    (hprepare : (prepareDocument c).runIn w = (.ok (s, v), w₁)) {store : Store}
    (hinput : inputStore lib w₁.disk c.common = .ok store) {a : Accident}
    (hmade : (Document.serialize p v { store, settings := s }).run.1 = .error (.accident a)) :
    Escapes lib p c w a
  | output {s : Settings} {v : Variant} {w₁ : World}
    (hprepare : (prepareDocument c).runIn w = (.ok (s, v), w₁)) {store : Store}
    (hinput : inputStore lib w₁.disk c.common = .ok store) {text : String}
    (hmade : (Document.serialize p v { store, settings := s }).run.1 = .ok text) {path : String}
    (hpath : filled c.output = some path) (hnull : '\x00' ∈ path.toList) :
    Escapes lib p c w .nullPath

lemma timeLimit_eq_error_iff {v : Json} {a : Accident} : timeLimit v = .error a ↔
    a = .timeLimitKind ∧ readsAsNumber v = false ∨
    a = .timeLimitSize ∧ (∃ n negative, v = .int n ∧
      Double.ofFraction (n < 0) n.natAbs 1 = .infinite negative) ∨
    ∃ s, a = .timeLimitText s ∧ v = .str s ∧ Double.ofText? s = none := by
  cases v with
  | null | arr | obj | foreign =>
    change Except.error Accident.timeLimitKind = .error a ↔ _
    simp [readsAsNumber, @eq_comm _ a]
  | bool b =>
    change Except.ok (Double.ofFraction false b.toNat 1) = .error a ↔ _
    simp [readsAsNumber]
  | double x =>
    change Except.ok x = .error a ↔ _
    simp [readsAsNumber]
  | int n =>
    unfold timeLimit
    generalize hx : Double.ofFraction (decide (n < 0)) n.natAbs 1 = x
    cases x <;> simp [readsAsNumber, hx, @eq_comm _ a]
  | str s =>
    unfold timeLimit
    generalize hx : Double.ofText? s = x
    cases x <;> simp [readsAsNumber, hx, @eq_comm _ a]

lemma limited_eq_error_iff {config : Json.Object} {a : Accident} : limited config = .error a ↔
    ∃ v, Entries.find? config "remote_context_timeout" = some v ∧ timeLimit v = .error a := by
  rw [limited]
  rcases Entries.find? config "remote_context_timeout" with _ | v
  · simp
  · simp only [Option.some.injEq, exists_eq_left']
    generalize timeLimit v = x
    cases x <;> simp [Except.map]

def Fault.ending (f : Fault) : Ending :=
  match f.report with
  | .ok _ => .code .settings
  | .error a => .crash a

lemma refuse_ending (f : Fault) (w : World) : ((refuse f).run w).1 = f.ending := by
  rw [refuse, Fault.ending]
  rcases f.report with a | message <;> rfl

lemma Fault.ending_eq_crash_iff {f : Fault} {a : Accident} :
    f.ending = .crash a ↔ f.report = .error a := by
  rw [ending]
  rcases f.report with a' | message <;> simp

lemma refuseDocument_ending_iff {f : Failure} {w : World} {a : Accident} :
    ((refuseDocument f).run w).1 = .crash a ↔ f = .accident a := by
  rcases f with e | e | a'
  · simp [refuseDocument, failWith]
  · simp [refuseDocument, failWith]
  · change Ending.crash a' = .crash a ↔ _
    simp

lemma deliver_ending_iff {output : Option String} {text : String} {w : World} {a : Accident} :
    ((deliver output text).run w).1 = .crash a ↔
      a = .nullPath ∧ ∃ path, filled output = some path ∧ '\x00' ∈ path.toList := by
  rw [run_deliver]
  split
  · next hnone => simp [hnone]
  · next path hpath =>
    rw [hpath]
    split
    · next hwrite => simp [(Disk.write_eq_null_iff.mp hwrite).2, @eq_comm _ a]
    · next e hother hwrite =>
      have hnull : '\x00' ∉ path.toList := fun hnull =>
        hother _ (Except.error.inj (hwrite.symm.trans (Disk.write_eq_null_iff.mpr ⟨rfl, hnull⟩)))
      simp [hnull]
    · next hwrite =>
      have hnull : '\x00' ∉ path.toList := fun hnull =>
        nomatch hwrite.symm.trans (Disk.write_eq_null_iff.mpr ⟨rfl, hnull⟩)
      simp [hnull]

lemma Conversion.crash_iff {lib : Library} {p : Processor} {c : Conversion} {w : World}
    {a : Accident} : ((runConversion lib p c).run w).1 = .crash a ↔ c.Escapes lib p w a := by
  constructor
  · intro hcrash
    have hcourse := c.course lib p w
    generalize (runConversion lib p c).run w = ended at hcrash hcourse
    cases hcourse with
    | unprepared hprepare =>
      rw [refuse_ending, Fault.ending_eq_crash_iff] at hcrash
      have hdocument := documentPreparation c w
      rw [hprepare] at hdocument
      cases hdocument with
      | unprepared hprepare' => exact .settings (unusable_iff.mp ⟨_, by rw [hprepare'], hcrash⟩)
      | unlimited hprepare' hlimit =>
        obtain ⟨h, htext⟩ := Fault.report_failure_iff.mp hcrash
        cases h
        obtain ⟨v, hv, hlimit⟩ := limited_eq_error_iff.mp hlimit
        rcases timeLimit_eq_error_iff.mp hlimit with
          ⟨rfl, hkind⟩ | ⟨rfl, n, negative, rfl, hsize⟩ | ⟨s, rfl, -⟩
        · exact .limitKind hprepare' hv hkind
        · exact .limitSize hprepare' hv hsize
        · cases htext
      | noVariant => cases hcrash
    | unread hprepare hinput =>
      rw [refuseInput_ending, InputFault.ending_eq_crash_iff] at hcrash
      exact .input hprepare ((report_of_inputStore_iff lib).mp ⟨_, hinput, hcrash⟩)
    | unmade hprepare hinput hmade =>
      obtain rfl := refuseDocument_ending_iff.mp hcrash
      exact .document hprepare hinput (by rw [hmade])
    | made hprepare hinput hmade =>
      obtain ⟨rfl, path, hpath, hnull⟩ := deliver_ending_iff.mp hcrash
      exact .output hprepare hinput (by rw [hmade]) hpath hnull
  · intro h
    have hlimited {config : Json.Object} {s : Settings} {w₁ : World} {v : Json} {a : Accident}
        (hprepare : (prepare c).runIn w = (.ok (config, s), w₁))
        (hv : Entries.find? config "remote_context_timeout" = some v)
        (hlimit : timeLimit v = .error a) (htext : a.text? = none) :
        ((runConversion lib p c).run w).1 = .crash a := by
      have hprepared := runIn_prepareDocument hprepare
      rw [limited_eq_error_iff.mpr ⟨v, hv, hlimit⟩] at hprepared
      rw [(Course.unprepared hprepared).run_eq, refuse_ending, Fault.ending_eq_crash_iff]
      exact Fault.report_failure_iff.mpr ⟨rfl, htext⟩
    cases h with
    | settings h =>
      obtain ⟨f, hf, hreport⟩ := unusable_iff.mpr h
      obtain ⟨w₁, hprepare⟩ : ∃ w₁, (prepare c).runIn w = (.error f, w₁) := ⟨_, Prod.ext hf rfl⟩
      rw [(Course.unprepared (runIn_prepareDocument_of_error hprepare)).run_eq, refuse_ending]
      exact Fault.ending_eq_crash_iff.mpr hreport
    | limitKind hprepare hv hkind =>
      exact hlimited hprepare hv (timeLimit_eq_error_iff.mpr (.inl ⟨rfl, hkind⟩)) rfl
    | limitSize hprepare hv hsize =>
      exact hlimited hprepare hv
        (timeLimit_eq_error_iff.mpr (.inr (.inl ⟨rfl, _, _, rfl, hsize⟩))) rfl
    | @document s v w₁ hprepare store hinput a hmade =>
      obtain ⟨t, hmade'⟩ : ∃ t, (Document.serialize p v { store, settings := s }).run =
        (.error (.accident a), t) := ⟨_, Prod.ext hmade rfl⟩
      rw [(Course.unmade hprepare hinput hmade').run_eq]
      exact refuseDocument_ending_iff.mpr rfl
    | input hprepare hrefuses =>
      obtain ⟨e, hinput, hreport⟩ := (report_of_inputStore_iff lib).mpr hrefuses
      rw [(Course.unread hprepare hinput).run_eq, refuseInput_ending]
      exact InputFault.ending_eq_crash_iff.mpr hreport
    | @output s v w₁ hprepare store hinput text hmade path hpath hnull =>
      obtain ⟨t, hmade'⟩ : ∃ t, (Document.serialize p v { store, settings := s }).run =
        (.ok text, t) := ⟨_, Prod.ext hmade rfl⟩
      rw [(Course.made hprepare hinput hmade').run_eq]
      exact deliver_ending_iff.mpr ⟨rfl, path, hpath, hnull⟩

/-! ### Commands -/

/-- What leaves a command without a code: for one that prints a context, what is unusable, an input
whose path is too long and a term that has no text to sort by. -/
inductive Command.Escapes (lib : Library) (p : Processor) : Command → World → Accident → Prop
  | convert {c : Conversion} {w : World} {a : Accident} (h : c.Escapes lib p w a) :
    Escapes lib p (.convert c) w a
  | settings {c : Common} {w : World} {a : Accident} (h : Unusable c.conversion w a) :
    Escapes lib p (.context c) w a
  | input {c : Common} {w : World} {config : Json.Object} {s : Settings} {w₁ : World}
    (hprepare : (prepare c.conversion).runIn w = (.ok (config, s), w₁)) {a : Accident}
    (h : RefusesInput w₁.disk c a) : Escapes lib p (.context c) w a
  | term {c : Common} {w : World} {config : Json.Object} {s : Settings} {w₁ : World}
    (hprepare : (prepare c.conversion).runIn w = (.ok (config, s), w₁)) {store : Store}
    (hinput : inputStore lib w₁.disk c = .ok store) {e : Context.NoText}
    (hcontext : Context.ofStore s.contextOptions none store = .error e) :
    Escapes lib p (.context c) w (.noText e.term)

lemma Common.crash_iff {lib : Library} {p : Processor} {c : Common} {w : World} {a : Accident} :
    ((runContext lib c).run w).1 = .crash a ↔ (Command.context c).Escapes lib p w a := by
  constructor
  · intro hcrash
    have hcourse := c.course lib w
    generalize (runContext lib c).run w = ended at hcrash hcourse
    cases hcourse with
    | unprepared hprepare =>
      rw [refuse_ending, Fault.ending_eq_crash_iff] at hcrash
      exact .settings (unusable_iff.mp ⟨_, by rw [hprepare], hcrash⟩)
    | unread hprepare hinput =>
      rw [refuseInput_ending, InputFault.ending_eq_crash_iff] at hcrash
      exact .input hprepare ((report_of_inputStore_iff lib).mp ⟨_, hinput, hcrash⟩)
    | unmade hprepare hinput hmade =>
      cases hcrash
      exact .term hprepare hinput hmade
    | made => cases hcrash
  · intro h
    cases h with
    | settings h =>
      obtain ⟨f, hf, hreport⟩ := unusable_iff.mpr h
      obtain ⟨w₁, hprepare⟩ : ∃ w₁, (prepare c.conversion).runIn w = (.error f, w₁) :=
        ⟨_, Prod.ext hf rfl⟩
      rw [(Course.unprepared hprepare).run_eq, refuse_ending]
      exact Fault.ending_eq_crash_iff.mpr hreport
    | input hprepare hrefuses =>
      obtain ⟨e, hinput, hreport⟩ := (report_of_inputStore_iff lib).mpr hrefuses
      rw [(Course.unread hprepare hinput).run_eq, refuseInput_ending]
      exact InputFault.ending_eq_crash_iff.mpr hreport
    | term hprepare hinput hcontext => rw [(Course.unmade hprepare hinput hcontext).run_eq]

def Command.settle (command : Command) (w : World) : Except Fault Settings × World :=
  match command with
  | .convert c => (((prepareDocument c).runIn w).1.map (·.1), ((prepareDocument c).runIn w).2)
  | .context c => (((prepare c.conversion).runIn w).1.map (·.2), ((prepare c.conversion).runIn w).2)

def Command.Fails (p : Processor) (s : Settings) (store : Store) : Command → Prop
  | .convert c => ∃ v f, Document.variantOf (.str c.variant) = .ok v ∧
      (Document.serialize p v { store, settings := s }).run.1 = .error f
  | .context _ => ∃ e, Context.ofStore s.contextOptions none store = .error e

lemma exists_accident {p : Processor} {v : Variant} {src : Document.Source} {a : Accident}
    (h : (Document.serialize p v src).run.1 = .error (.accident a)) :
    copyOptions src.settings.options = .error a ∨ src.context = .error (.accident a) ∨
      ∃ before call, (p.answer before call).reply = .accident a := by
  have hreply {r : Reply} {operation : String} (hr : r.outcome operation = .error (.accident a)) :
      r = .accident a := by
    cases r <;> simp_all [Reply.outcome]
  rw [Work.run_eq] at h
  rcases Document.serialize_eq_error_iff.mp h with hbuilt | ⟨_, _, _, _, hf⟩
  · obtain ⟨made, -, hexchange⟩ := Document.exists_exchange p v.form src {}
    rw [hbuilt] at hexchange
    generalize houtcome : (Except.error (Failure.accident a) : Except Failure Json) = outcome
      at hexchange
    cases hexchange with
    | noFrame | notRdf => cases houtcome
    | rejected _ _ hoptions =>
      cases houtcome
      exact .inl hoptions
    | unexpanded _ _ _ hlast =>
      cases houtcome
      exact .inr (.inr ⟨_, _, hreply hlast⟩)
    | expanded _ _ _ _ hconversion =>
      cases hconversion with
      | expanded => cases houtcome
      | noContext _ hcontext =>
        cases houtcome
        exact .inr (.inl hcontext)
      | asked =>
        exact .inr (.inr ⟨_, _, hreply (Reply.map_outcome_eq_error_iff.mp houtcome.symm)⟩)
  · cases hf

/-- What a conversion tells by its code, stage by stage. -/
lemma Conversion.ending (lib : Library) (p : Processor) (c : Conversion) (w : World) :
    let ending := ((runConversion lib p c).run w).1
    (∀ f w₁, (Command.convert c).settle w = (.error f, w₁) → ending = f.ending) ∧
    (∀ s w₁ e, (Command.convert c).settle w = (.ok s, w₁) →
      inputStore lib w₁.disk c.common = .error e → ending = e.ending) ∧
    ∀ s w₁ store, (Command.convert c).settle w = (.ok s, w₁) →
      inputStore lib w₁.disk c.common = .ok store → (Command.convert c).Fails p s store →
      ending ≠ .code .success := by
  simp only [Command.settle]
  have hdocument := documentPreparation c w
  rcases hprepare : (prepareDocument c).runIn w with ⟨f | ⟨s, v⟩, w₁⟩
  · refine ⟨?_, by simp [Except.map], by simp [Except.map]⟩
    rintro f w₁ ⟨⟩
    rw [(Course.unprepared hprepare).run_eq, refuse_ending]
  · rw [hprepare] at hdocument
    refine ⟨by simp [Except.map], ?_, ?_⟩
    · rintro s w₁ e ⟨⟩ hinput
      rw [(Course.unread hprepare hinput).run_eq, refuseInput_ending]
    · rintro s w₁ store ⟨⟩ hinput ⟨v', f, hvariant, hmade⟩
      cases hdocument with
      | prepared _ _ hvariant' =>
        obtain rfl : v = v' := Except.ok.inj (hvariant'.symm.trans hvariant)
        rw [(Course.unmade hprepare hinput (Prod.ext hmade rfl)).run_eq]
        exact refuseDocument_ne_success f _

/-- What a command that prints a context tells by its code, stage by stage. -/
lemma Common.ending (lib : Library) (p : Processor) (c : Common) (w : World) :
    let ending := ((runContext lib c).run w).1
    (∀ f w₁, (Command.context c).settle w = (.error f, w₁) → ending = f.ending) ∧
    (∀ s w₁ e, (Command.context c).settle w = (.ok s, w₁) →
      inputStore lib w₁.disk c = .error e → ending = e.ending) ∧
    ∀ s w₁ store, (Command.context c).settle w = (.ok s, w₁) →
      inputStore lib w₁.disk c = .ok store → (Command.context c).Fails p s store →
      ending ≠ .code .success := by
  simp only [Command.settle]
  rcases hprepare : (prepare c.conversion).runIn w with ⟨f | ⟨config, s⟩, w₁⟩
  · refine ⟨?_, by simp [Except.map], by simp [Except.map]⟩
    rintro f w₁ ⟨⟩
    rw [(Course.unprepared hprepare).run_eq, refuse_ending]
  · refine ⟨by simp [Except.map], ?_, ?_⟩
    · rintro s w₁ e ⟨⟩ hinput
      rw [(Course.unread hprepare hinput).run_eq, refuseInput_ending]
    · rintro s w₁ store ⟨⟩ hinput ⟨e, hmade⟩
      rw [(Course.unmade hprepare hinput hmade).run_eq]
      exact nofun

/-- **A command ends with a code unless something escapes.** It ends without one exactly on values
of the configuration that are of a kind or a size that no step was meant to take, on paths that are
too long to be looked for, on a null character in the path of the output, on a term that has no
text to sort by, and on accidents of making the document: those of its options, of its context and
of the processor. On any other fault of the settings its code is theirs, and without input it is
that of the input. Nothing that fails after that ends in success.

What is said in the module on running commands holds here: texts nest no deeper than there is room
to follow them, and there are no lone surrogates. -/
theorem run_ending (lib : Library) (p : Processor) (command : Command) (w : World) :
    let ending := ((command.run lib p).run w).1
    (∀ a, ending = .crash a ↔ command.Escapes lib p w a) ∧
    (∀ f w₁, command.settle w = (.error f, w₁) →
      (∃ message, f.report = .ok message ∧ ending = .code .settings) ∨
        ∃ a, f.report = .error a ∧ command.Escapes lib p w a) ∧
    (∀ s w₁ e, command.settle w = (.ok s, w₁) → inputStore lib w₁.disk command.common = .error e →
      (∃ message, e.report = .ok message ∧ ending = .code .input) ∨
        ∃ a, e.report = .error a ∧ command.Escapes lib p w a) ∧
    (∀ s w₁ store, command.settle w = (.ok s, w₁) →
      inputStore lib w₁.disk command.common = .ok store → command.Fails p s store →
      ending ≠ .code .success) ∧
    ∀ v src a, (Document.serialize p v src).run.1 = .error (.accident a) →
      copyOptions src.settings.options = .error a ∨ src.context = .error (.accident a) ∨
        ∃ before call, (p.answer before call).reply = .accident a := by
  have hcrash (a : Accident) :
      ((command.run lib p).run w).1 = .crash a ↔ command.Escapes lib p w a := by
    cases command with
    | convert c => exact c.crash_iff.trans ⟨.convert, fun h => by cases h; assumption⟩
    | context c => exact c.crash_iff
  have hending : (∀ f w₁, command.settle w = (.error f, w₁) →
        ((command.run lib p).run w).1 = f.ending) ∧
      (∀ s w₁ e, command.settle w = (.ok s, w₁) →
        inputStore lib w₁.disk command.common = .error e →
        ((command.run lib p).run w).1 = e.ending) ∧
      ∀ s w₁ store, command.settle w = (.ok s, w₁) →
        inputStore lib w₁.disk command.common = .ok store → command.Fails p s store →
        ((command.run lib p).run w).1 ≠ .code .success := by
    cases command with
    | convert c => exact c.ending lib p w
    | context c => exact c.ending lib p w
  obtain ⟨hsettings, hinput, hwork⟩ := hending
  refine ⟨hcrash, fun f w₁ hsettle => ?_, fun s w₁ e hsettle he => ?_, hwork,
    fun _ _ _ => exists_accident⟩
  · have hf := hsettings f w₁ hsettle
    rcases hreport : f.report with a | message
    · exact .inr ⟨a, rfl, (hcrash a).mp (hf.trans (Fault.ending_eq_crash_iff.mpr hreport))⟩
    · exact .inl ⟨message, rfl, hf.trans (by rw [Fault.ending, hreport])⟩
  · have hf := hinput s w₁ e hsettle he
    rcases hreport : e.report with a | message
    · exact .inr ⟨a, rfl, (hcrash a).mp (hf.trans (InputFault.ending_eq_crash_iff.mpr hreport))⟩
    · exact .inl ⟨message, rfl, hf.trans (by rw [InputFault.ending, hreport])⟩

lemma inputStore_of_missing {lib : Library} {d : Disk} {c : Common}
    (h : (d.seek (Path.plain c.input)).toOption = some none) :
    inputStore lib d c = .error (.missing c.input) := by
  rw [inputStore]
  generalize d.seek (Path.plain c.input) = found at h
  rcases found with _ | _ | bytes
  · cases h
  · rfl
  · cases h

/-- A level that is a number leaves a command without a code, and so do settings that are a list.
A file that is not there is told of. -/
theorem run_ending_numbered :
    let lib := Reader.library []
    let p := Script.processor {}
    let common (input : String) : Common := { input, config := some "c.json" }
    let convert (input : String) : Command :=
      .convert { common := common input, variant := "jsonld" }
    (((convert "in.nt").run lib p).run (.ofFiles "\x7b\"log_level\": 5\x7d" "")).1 =
      .crash .levelKind ∧
    (((Command.context (common "in.nt")).run lib p).run
      (.ofFiles "\x7b\"serialization\": [1]\x7d" "")).1 = .crash .settingsKind ∧
    (((convert "out.nt").run lib p).run (.ofFiles "\x7b\x7d" "")).1 = .code .input := by
  intro lib p common convert
  refine ⟨?_, ?_, ?_⟩
  · obtain ⟨hcrash, -⟩ :=
      run_ending lib p (convert "in.nt") (.ofFiles "\x7b\"log_level\": 5\x7d" "")
    have hconfig : configuration (World.ofFiles "\x7b\"log_level\": 5\x7d" "").disk
        { input := "in.nt", config := some "c.json" } = .ok [("log_level", .int 5)] := by
      with_unfolding_all rfl
    exact (hcrash _).mpr (.convert (.settings (.level hconfig rfl rfl nofun)))
  · obtain ⟨hcrash, -⟩ :=
      run_ending lib p (.context (common "in.nt")) (.ofFiles "\x7b\"serialization\": [1]\x7d" "")
    have hconfig : configuration (World.ofFiles "\x7b\"serialization\": [1]\x7d" "").disk
        { input := "in.nt", config := some "c.json" } =
          .ok [("serialization", .arr [.int 1])] := by
      with_unfolding_all rfl
    have hthreshold : Log.levelOfName "WARNING" = .ok .warning := by decide
    have hlogs : Logs (common "in.nt") _ [("serialization", .arr [.int 1])] _ :=
      ⟨⟨⟨hconfig, rfl, rfl⟩, rfl⟩, hthreshold⟩
    exact (hcrash _).mpr (.settings (.settings hlogs rfl rfl rfl))
  · obtain ⟨-, -, hinput, -⟩ := run_ending lib p (convert "out.nt") (.ofFiles "\x7b\x7d" "")
    have hok : ((convert "out.nt").settle (.ofFiles "\x7b\x7d" "")).1.isOk = true := by
      decide +kernel
    have hread : (((convert "out.nt").settle (.ofFiles "\x7b\x7d" "")).2.disk.seek
        (Path.plain "out.nt")).toOption = some none := by decide +kernel
    generalize (convert "out.nt").settle (.ofFiles "\x7b\x7d" "") = settled at hok hread hinput
    obtain ⟨f | s, w₁⟩ := settled
    · cases hok
    · rcases hinput s w₁ _ rfl (inputStore_of_missing hread) with ⟨-, -, hcode⟩ | ⟨a, ha, -⟩
      · exact hcode
      · cases ha

/-- Not every run of a command that is read ends with a code. -/
theorem not_run_code : ¬ ∀ (lib : Library) (p : Processor) (words : List String)
    (command : Command) (w : World), read words = .command command →
      ∃ code, ((command.run lib p).run w).1 = .code code := by
  intro h
  let command : Command := .convert
    { common := { input := "in.nt", config := some "c.json" }, variant := "jsonld-compact-pretty" }
  have hread : read ["convert", "in.nt", "--config", "c.json"] = .command command := by
    decide +kernel
  obtain ⟨code, hcode⟩ := h (Reader.library []) (Script.processor {}) _ command
    (.ofFiles "\x7b\"log_level\": 5\x7d" "") hread
  have hcrash : ((command.run (Reader.library []) (Script.processor {})).run
      (.ofFiles "\x7b\"log_level\": 5\x7d" "")).1 = .crash .levelKind := by
    decide +kernel
  cases hcode.symm.trans hcrash

end LinkedJson.CommandLine
