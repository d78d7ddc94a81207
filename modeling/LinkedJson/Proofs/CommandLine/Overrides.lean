import LinkedJson.Proofs.CommandLine.Stages
import LinkedJson.Proofs.Settings.Mapping

/-!
Settings of the command line go over those of the configuration, field by field.

What counts as given is an argument of any length but none. An empty argument leaves its field to
the configuration, even where it would have meant something, or been refused.
-/

namespace LinkedJson.CommandLine

open Files Settings

/-! ### Fields that are set -/

lemma get?_setFields_congr {s t : Settings} {g : Field} (h : s.get? g = t.get? g)
    (fields : List (Field × Json)) :
    (setFields s fields).get? g = (setFields t fields).get? g := by
  induction fields generalizing s t with
  | nil => exact h
  | cons f rest ih =>
    refine ih ?_
    rw [get?_set, get?_set, h]

lemma get?_setFields_filter (s : Settings) (g : Field) (fields : List (Field × Json)) :
    (setFields s fields).get? g = (setFields s (fields.filter fun f => f.1 = g)).get? g := by
  induction fields generalizing s with
  | nil => rfl
  | cons f rest ih =>
    have hcons : setFields s (f :: rest) = setFields (s.set f.1 f.2) rest := rfl
    rw [hcons, ih]
    by_cases hf : f.1 = g
    · rw [List.filter_cons_of_pos (by simpa using hf)]
      rfl
    · rw [List.filter_cons_of_neg (by simpa using hf)]
      refine get?_setFields_congr ?_ _
      rw [get?_set, if_neg (Ne.symm hf)]

def set? (f : Field) (v : Option Json) : List (Field × Json) := v.toList.map (f, ·)

lemma filter_set? (f g : Field) (v : Option Json) :
    (set? f v).filter (fun e => e.1 = g) = if f = g then set? f v else [] := by
  rcases v with _ | v
  · simp [set?]
  · by_cases h : f = g <;> simp [set?, h]

lemma get?_setFields_set? (s : Settings) (f : Field) (v : Option Json) :
    (setFields s (set? f v)).get? f = v.or (s.get? f) := by
  rcases v with _ | v
  · rfl
  · exact (get?_set s f f v).trans (if_pos rfl)

/-- The fields that a command line may set, in the order in which it sets them. -/
def overrides (v : Field → Option Json) : List (Field × Json) :=
  set? .baseIri (v .baseIri) ++ set? .context (v .context) ++
    set? .contextSubstitution (v .contextSubstitution) ++ set? .frame (v .frame) ++
    set? .preferPrefixed (v .preferPrefixed) ++ set? .sortTriples (v .sortTriples)

lemma get?_setFields_overrides (s : Settings) {v : Field → Option Json}
    (hv : v .options = none) (f : Field) :
    (setFields s (overrides v)).get? f = (v f).or (s.get? f) := by
  rw [get?_setFields_filter]
  simp only [overrides, List.filter_append, filter_set?]
  cases f
  case options =>
    rw [hv]
    rfl
  all_goals
    simp only [reduceCtorEq, if_true, if_false, List.nil_append, List.append_nil]
    exact get?_setFields_set? s _ _

/-! ### What is given -/

def Conversion.argument? (c : Conversion) : Field → Option String
  | .baseIri => c.base
  | .context => c.context
  | .contextSubstitution => c.contextSubstitution
  | .frame => c.frame
  | _ => none

def Conversion.hasFlag (c : Conversion) : Field → Bool
  | .preferPrefixed => c.common.preferPrefixed
  | .sortTriples => c.common.sortTriples
  | _ => false

/-- What an argument means for its field: the base its own text, the context and the frame the
JSON of a file, and the substitution the value of a JSON text. -/
def Means (d : Disk) : Field → String → Json → Prop
  | .baseIri, text, v => v = .str text
  | .context, path, v => JsonFile.load d path "context file" = .ok v
  | .contextSubstitution, text, v => Json.parse text = .ok v
  | .frame, path, v => JsonFile.load d path "frame file" = .ok v
  | _, _, _ => False

def Fails (d : Disk) : Field → String → Fault → Prop
  | .context, path, fault => ∃ e, JsonFile.load d path "context file" = .error e ∧ fault = .file e
  | .contextSubstitution, text, fault =>
    ∃ e, parseText "context_substitution" text = .error e ∧ fault = .failure e
  | .frame, path, fault => ∃ e, JsonFile.load d path "frame file" = .error e ∧ fault = .file e
  | _, _, _ => False

/-- Settings in which the command line goes over other settings. The first parameter says which
arguments count as given. -/
structure Merged (given : Option String → Option String) (d : Disk) (c : Conversion)
    (s₀ s : Settings) : Prop where
  argument : ∀ f text, given (c.argument? f) = some text → ∃ v, Means d f text v ∧ s.get? f = some v
  flag : ∀ f, c.hasFlag f = true → s.get? f = some (.bool true)
  absent : ∀ f, given (c.argument? f) = none → c.hasFlag f = false → s.get? f = s₀.get? f

/-- The first of the arguments that mean nothing, and how it fails. -/
inductive Rejected (given : Option String → Option String) (d : Disk) (c : Conversion) :
    Fault → Prop
  | mk {f : Field} {text : String} {fault : Fault} (hgiven : given (c.argument? f) = some text)
    (h : Fails d f text fault)
    (hbefore : ∀ g ∈ Field.all.takeWhile (· ≠ f), ∀ text', given (c.argument? g) = some text' →
      ∃ v, Means d g text' v) : Rejected given d c fault

lemma Means.unique {d : Disk} {f : Field} {text : String} {v v' : Json} (h : Means d f text v)
    (h' : Means d f text v') : v = v' := by
  cases f
  case baseIri => exact Eq.trans h (Eq.symm h')
  case context => exact Except.ok.inj (Eq.trans (Eq.symm h) h')
  case contextSubstitution => exact Except.ok.inj (Eq.trans (Eq.symm h) h')
  case frame => exact Except.ok.inj (Eq.trans (Eq.symm h) h')
  all_goals exact h.elim

lemma Merged.unique {given : Option String → Option String} {d : Disk} {c : Conversion}
    {s₀ s s' : Settings} (h : Merged given d c s₀ s) (h' : Merged given d c s₀ s') : s = s' := by
  refine eq_of_get?_eq fun f => ?_
  rcases hgiven : given (c.argument? f) with _ | text
  · cases hflag : c.hasFlag f
    · rw [h.absent f hgiven hflag, h'.absent f hgiven hflag]
    · rw [h.flag f hflag, h'.flag f hflag]
  · obtain ⟨v, hv, hs⟩ := h.argument f text hgiven
    obtain ⟨v', hv', hs'⟩ := h'.argument f text hgiven
    rw [hs, hs', hv.unique hv']

inductive Supplies (d : Disk) (f : Field) : Option String → Option Json → Prop
  | given {text : String} {v : Json} (h : Means d f text v) : Supplies d f (some text) (some v)
  | absent : Supplies d f none none

lemma fileField_cases {d : Disk} {f : Field} {description : String} (path : Option String)
    (hmeans : ∀ path v, JsonFile.load d path description = .ok v → Means d f path v)
    (hfails : ∀ path e, JsonFile.load d path description = .error e → Fails d f path (.file e)) :
    (∃ v, Supplies d f (filled path) v ∧ fileField d f description path = .ok (set? f v)) ∨
    ∃ text fault, filled path = some text ∧ Fails d f text fault ∧
      fileField d f description path = .error fault := by
  rw [fileField]
  rcases filled path with _ | path
  · exact .inl ⟨none, .absent, rfl⟩
  rcases hload : JsonFile.load d path description with e | v
  · exact .inr ⟨path, _, rfl, hfails path e hload, by simp only [hload]; rfl⟩
  · exact .inl ⟨some v, .given (hmeans path v hload), by simp only [hload]; rfl⟩

lemma textField_cases (d : Disk) (text : Option String) :
    (∃ v, Supplies d .contextSubstitution (filled text) v ∧
      textField .contextSubstitution text = .ok (set? .contextSubstitution v)) ∨
    ∃ text' fault, filled text = some text' ∧ Fails d .contextSubstitution text' fault ∧
      textField .contextSubstitution text = .error fault := by
  rw [textField]
  rcases filled text with _ | text
  · exact .inl ⟨none, .absent, rfl⟩
  have hname : Field.contextSubstitution.name = "context_substitution" := rfl
  rw [hname]
  rcases hparse : parseText "context_substitution" text with e | v
  · exact .inr ⟨text, _, rfl, ⟨e, hparse, rfl⟩, by simp only [hparse]; rfl⟩
  · exact .inl ⟨some v, .given (parseText_eq_ok_iff.mp hparse), by simp only [hparse]; rfl⟩

lemma Supplies.means {d : Disk} {f : Field} {text : String} {given : Option String}
    {v : Option Json} (h : Supplies d f given v) (htext : given = some text) :
    ∃ w, v = some w ∧ Means d f text w := by
  cases h with
  | given h =>
    cases htext
    exact ⟨_, rfl, h⟩
  | absent => cases htext

lemma Supplies.eq_none {d : Disk} {f : Field} {given : Option String}
    {v : Option Json} (h : Supplies d f given v) (hnone : given = none) : v = none := by
  cases h with
  | given => cases hnone
  | absent => rfl

def supplied (c : Conversion) (context substitution frame : Option Json) : Field → Option Json
  | .baseIri => (filled c.base).map .str
  | .context => context
  | .contextSubstitution => substitution
  | .frame => frame
  | .options => none
  | .preferPrefixed => if c.hasFlag .preferPrefixed then some (.bool true) else none
  | .sortTriples => if c.hasFlag .sortTriples then some (.bool true) else none

lemma supplies_base (d : Disk) (given : Option String) :
    Supplies d .baseIri given (given.map .str) := by
  rcases given with _ | text
  · exact .absent
  · exact .given rfl

lemma merged_of_supplied {d : Disk} {c : Conversion} {context substitution frame : Option Json}
    (hcontext : Supplies d .context (filled c.context) context)
    (hsubstitution : Supplies d .contextSubstitution (filled c.contextSubstitution) substitution)
    (hframe : Supplies d .frame (filled c.frame) frame) (s₀ : Settings) :
    Merged filled d c s₀ (setFields s₀ (overrides (supplied c context substitution frame))) := by
  have hget (f : Field) := get?_setFields_overrides s₀ (v := supplied c context substitution frame)
    rfl f
  have hsupplies (f : Field) : f ∈ [.baseIri, .context, .contextSubstitution, .frame] ∨
      f ∈ [.options, .preferPrefixed, .sortTriples] := by
    cases f <;> simp
  have hargument (f : Field) (hf : f ∈ [.baseIri, .context, .contextSubstitution, .frame]) :
      Supplies d f (filled (c.argument? f)) (supplied c context substitution frame f) := by
    simp only [List.mem_cons, List.not_mem_nil, or_false] at hf
    rcases hf with rfl | rfl | rfl | rfl
    · exact supplies_base d _
    · exact hcontext
    · exact hsubstitution
    · exact hframe
  refine ⟨fun f text htext => ?_, fun f hflag => ?_, fun f hnone hflag => ?_⟩
  · rcases hsupplies f with hf | hf
    · obtain ⟨w, hw, hmeans⟩ := (hargument f hf).means htext
      exact ⟨w, hmeans, by rw [hget, hw]; rfl⟩
    · simp only [List.mem_cons, List.not_mem_nil, or_false] at hf
      rcases hf with rfl | rfl | rfl <;> cases htext
  · rw [hget]
    cases f
    case preferPrefixed => rw [supplied, if_pos hflag, Option.some_or]
    case sortTriples => rw [supplied, if_pos hflag, Option.some_or]
    all_goals cases hflag
  · rw [hget]
    rcases hsupplies f with hf | hf
    · rw [(hargument f hf).eq_none hnone, Option.none_or]
    · simp only [List.mem_cons, List.not_mem_nil, or_false] at hf
      rcases hf with rfl | rfl | rfl
      · rfl
      · rw [supplied, hflag, if_neg Bool.false_ne_true, Option.none_or]
      · rw [supplied, hflag, if_neg Bool.false_ne_true, Option.none_or]

lemma flagField_eq (f : Field) (given : Bool) :
    flagField f given = set? f (if given then some (.bool true) else none) := by
  cases given <;> rfl

/-- The command line is refused for its first argument that means nothing, or its fields go over
those of any settings. -/
lemma givenFields_cases (d : Disk) (c : Conversion) :
    (∃ fields, givenFields d c = .ok fields ∧
      ∀ s₀, Merged filled d c s₀ (setFields s₀ fields)) ∨
    ∃ fault, givenFields d c = .error fault ∧ Rejected filled d c fault := by
  have hbase : ((filled c.base).toList.map fun s => (Field.baseIri, Json.str s)) =
      set? .baseIri ((filled c.base).map .str) := by
    cases filled c.base <;> rfl
  have hmeans {f : Field} {given : Option String} {v : Option Json} (h : Supplies d f given v) :
      ∀ text, given = some text → ∃ w, Means d f text w := by
    intro text htext
    obtain ⟨w, -, hw⟩ := h.means htext
    exact ⟨w, hw⟩
  rw [givenFields]
  simp only [hbase, flagField_eq]
  rcases fileField_cases (d := d) (f := .context) c.context (fun _ _ h => h)
    (fun _ e h => ⟨e, h, rfl⟩) with ⟨context, hcontext, heq⟩ | ⟨text, fault, hgiven, hfails, heq⟩
  swap
  · refine .inr ⟨fault, by rw [heq]; rfl, .mk (f := .context) hgiven hfails fun g hg => ?_⟩
    obtain rfl : g = .baseIri := by simpa [Field.all] using hg
    exact hmeans (supplies_base d _)
  rw [heq]
  rcases textField_cases d c.contextSubstitution with
    ⟨substitution, hsubstitution, heq⟩ | ⟨text, fault, hgiven, hfails, heq⟩
  swap
  · refine .inr ⟨fault, by rw [heq]; rfl, .mk (f := .contextSubstitution) hgiven hfails
      fun g hg => ?_⟩
    have hg : g = .baseIri ∨ g = .context := by simpa [Field.all] using hg
    rcases hg with rfl | rfl
    · exact hmeans (supplies_base d _)
    · exact hmeans hcontext
  rw [heq]
  rcases fileField_cases (d := d) (f := .frame) c.frame (fun _ _ h => h)
    (fun _ e h => ⟨e, h, rfl⟩) with ⟨frame, hframe, heq⟩ | ⟨text, fault, hgiven, hfails, heq⟩
  swap
  · refine .inr ⟨fault, by rw [heq]; rfl, .mk (f := .frame) hgiven hfails fun g hg => ?_⟩
    have hg : g = .baseIri ∨ g = .context ∨ g = .contextSubstitution := by
      simpa [Field.all] using hg
    rcases hg with rfl | rfl | rfl
    · exact hmeans (supplies_base d _)
    · exact hmeans hcontext
    · exact hmeans hsubstitution
  rw [heq]
  exact .inl ⟨overrides (supplied c context substitution frame), rfl,
    merged_of_supplied hcontext hsubstitution hframe⟩

lemma Fails.not_means {d : Disk} {f : Field} {text : String} {fault : Fault}
    (h : Fails d f text fault) (v : Json) : ¬ Means d f text v := by
  intro hv
  cases f
  case context =>
    obtain ⟨e, he, -⟩ := h
    cases he.symm.trans hv
  case contextSubstitution =>
    obtain ⟨e, he, -⟩ := h
    cases he.symm.trans (parseText_eq_ok_iff.mpr hv)
  case frame =>
    obtain ⟨e, he, -⟩ := h
    cases he.symm.trans hv
  all_goals exact h.elim

lemma Fails.unique {d : Disk} {f : Field} {text : String} {fault fault' : Fault}
    (h : Fails d f text fault) (h' : Fails d f text fault') : fault = fault' := by
  cases f
  case context | contextSubstitution | frame =>
    obtain ⟨e, he, rfl⟩ := h
    obtain ⟨e', he', rfl⟩ := h'
    cases he.symm.trans he'
    rfl
  all_goals exact h.elim

lemma Rejected.not_merged {given : Option String → Option String} {d : Disk} {c : Conversion}
    {fault : Fault} (h : Rejected given d c fault) (s₀ s : Settings) :
    ¬ Merged given d c s₀ s := by
  obtain ⟨hgiven, hfails, -⟩ := h
  intro hmerged
  obtain ⟨v, hv, -⟩ := hmerged.argument _ _ hgiven
  exact hfails.not_means v hv

lemma before_or_before (f g : Field) :
    f = g ∨ f ∈ Field.all.takeWhile (· ≠ g) ∨ g ∈ Field.all.takeWhile (· ≠ f) := by
  cases f <;> cases g <;> decide

lemma Rejected.unique {given : Option String → Option String} {d : Disk} {c : Conversion}
    {fault fault' : Fault} (h : Rejected given d c fault) (h' : Rejected given d c fault') :
    fault = fault' := by
  obtain @⟨f, text, _, hgiven, hfails, hbefore⟩ := h
  obtain @⟨g, text', _, hgiven', hfails', hbefore'⟩ := h'
  rcases before_or_before f g with rfl | hfirst | hfirst
  · cases hgiven.symm.trans hgiven'
    exact hfails.unique hfails'
  · obtain ⟨v, hv⟩ := hbefore' f hfirst text hgiven
    exact (hfails.not_means v hv).elim
  · obtain ⟨v, hv⟩ := hbefore g hfirst text' hgiven'
    exact (hfails'.not_means v hv).elim

/-! ### What comes of empty arguments -/

/-- Where no argument is empty it is the same to be given as to be filled. -/
lemma filled_eq_some_iff {given : Option String} {text : String} :
    filled given = some text ↔ given = some text ∧ text ≠ "" := by
  simp [filled]

/-- With an empty argument for a field, settings are as they should be only if the field happens to
have what the empty text means. -/
lemma Merged.iff_of_filled {d : Disk} {c : Conversion} {s₀ s : Settings}
    (h : Merged filled d c s₀ s) : Merged id d c s₀ s ↔
      ∀ f, c.argument? f = some "" → ∃ v, Means d f "" v ∧ s₀.get? f = some v := by
  have hflag {f : Field} {text : String} (hf : c.argument? f = some text) :
      c.hasFlag f = false := by
    cases f <;> first | rfl | cases hf
  constructor
  · intro hid f hf
    obtain ⟨v, hv, hs⟩ := hid.argument f "" hf
    have hnone : filled (c.argument? f) = none := by rw [hf]; rfl
    exact ⟨v, hv, (h.absent f hnone (hflag hf)).symm.trans hs⟩
  · intro hempty
    refine ⟨fun f text hf => ?_, h.flag, fun f hf hf' => h.absent f ?_ hf'⟩
    · by_cases htext : text = ""
      · subst htext
        obtain ⟨v, hv, hs₀⟩ := hempty f hf
        have hnone : filled (c.argument? f) = none := by
          rw [show c.argument? f = some "" from hf]
          rfl
        exact ⟨v, hv, (h.absent f hnone (hflag hf)).trans hs₀⟩
      · exact h.argument f text (filled_eq_some_iff.mpr ⟨hf, htext⟩)
    · rw [show c.argument? f = none from hf]
      rfl

/-! ### Settings of a command -/

/-- The disk from which the arguments of a command line are read: what is reported of the
configuration has been logged. -/
def givenDisk (config : Json.Object) (w : World) : Disk := (w.keepAll (configured config).1).disk

/-- **Filled arguments of the command line go over the configuration.** A command has settings if
the configuration has and every filled argument means something, and then each field is what its
argument or its flag says, or else what the configuration says. It is refused for the
configuration, or for the first argument that means nothing. Empty arguments count for nothing, so
that the settings are what all arguments say exactly if the configuration says the same. -/
theorem settingsOf_merged (config : Json.Object) (c : Conversion) (w : World) :
    (∀ s, ((settingsOf config c).runIn w).1 = .ok s ↔
      ∃ s₀, (configured config).2 = .ok s₀ ∧ Merged filled (givenDisk config w) c s₀ s) ∧
    (∀ fault, ((settingsOf config c).runIn w).1 = .error fault ↔
      (∃ e, (configured config).2 = .error e ∧ fault = .failure e) ∨
      (∃ s₀, (configured config).2 = .ok s₀) ∧ Rejected filled (givenDisk config w) c fault) ∧
    ∀ s₀ s, Merged filled (givenDisk config w) c s₀ s → (Merged id (givenDisk config w) c s₀ s ↔
      ∀ f, c.argument? f = some "" →
        ∃ v, Means (givenDisk config w) f "" v ∧ s₀.get? f = some v) := by
  rw [runIn_settingsOf, givenDisk]
  generalize w.keepAll (configured config).1 = w₁
  refine ⟨fun s => ?_, fun fault => ?_, fun s₀ s h => h.iff_of_filled⟩
  · rcases (configured config).2 with e | s₀
    · simp
    rcases givenFields_cases w₁.disk c with ⟨fields, hfields, hmerged⟩ | ⟨fault, hfields, hrejected⟩
    · simp only [hfields, Except.ok.injEq, exists_eq_left']
      exact ⟨fun h => h ▸ hmerged s₀, (hmerged s₀).unique⟩
    · simp only [hfields, reduceCtorEq, Except.ok.injEq, exists_eq_left', false_iff]
      exact hrejected.not_merged s₀ s
  · rcases (configured config).2 with e | s₀
    · simp [@eq_comm _ fault]
    rcases givenFields_cases w₁.disk c with
      ⟨fields, hfields, hmerged⟩ | ⟨fault', hfields, hrejected⟩
    · simp only [hfields, reduceCtorEq, false_and, exists_false, false_or, Except.ok.injEq,
        exists_eq', true_and, false_iff]
      exact fun h => h.not_merged s₀ _ (hmerged s₀)
    · simp only [hfields, reduceCtorEq, false_and, exists_false, false_or, Except.ok.injEq,
        exists_eq', true_and, Except.error.injEq]
      exact ⟨fun h => h ▸ hrejected, hrejected.unique⟩

/-- Not every argument that is given goes over the configuration: an empty base does not, and an
empty substitution is not refused, though it is no JSON. -/
theorem not_merged_id :
    let config : Json.Object :=
      [("serialization", .obj [("base_uri", .str "http://example.org/")])]
    let settings : Settings := { baseIri := .str "http://example.org/" }
    let c : Conversion :=
      { common := { input := "in.nt", config := some "c.json" }, variant := "expand-flat" }
    read ["convert", "in.nt", "--config", "c.json", "--base", "", "-v", "expand-flat"] =
      .command (.convert { c with base := some "" }) ∧
    read ["convert", "in.nt", "--config", "c.json", "--context-substitution", "", "-v",
      "expand-flat"] = .command (.convert { c with contextSubstitution := some "" }) ∧
    (configured config).2 = .ok settings ∧
    ∀ w : World, ∀ c' ∈ [{ c with base := some "" }, { c with contextSubstitution := some "" }],
      ((settingsOf config c').runIn w).1 = .ok settings ∧
        ¬ Merged id (givenDisk config w) c' settings settings := by
  intro config settings c
  refine ⟨by decide +kernel, by decide +kernel, rfl, fun w c' hc' => ?_⟩
  simp only [List.mem_cons, List.not_mem_nil, or_false] at hc'
  rcases hc' with rfl | rfl
  · refine ⟨rfl, fun h => ?_⟩
    obtain ⟨v, hv, hbase⟩ := h.argument .baseIri "" rfl
    cases hv
    simp [get?, settings] at hbase
  · refine ⟨rfl, fun h => ?_⟩
    obtain ⟨v, hv, -⟩ := h.argument .contextSubstitution "" rfl
    cases hv

end LinkedJson.CommandLine
