import LinkedJson.Settings
import Mathlib.Tactic.Lemma

/-!
Settings that come as a mapping.

A field has the value of the last entry that names it. The entries before that one are read all the
same, so a text that is no JSON refuses the mapping even where a later entry would have replaced
it.
-/

namespace LinkedJson.Settings

/-! ### Fields -/

namespace Field

def Named (f : Field) (key : String) : Prop := f.name = key ∨ f.symbol? = some key

instance (f : Field) (key : String) : Decidable (f.Named key) :=
  inferInstanceAs (Decidable (_ ∨ _))

/-- No key names two fields. -/
lemma ofKey?_eq_some_iff {key : String} {f : Field} : ofKey? key = some f ↔ f.Named key := by
  constructor
  · intro h
    rw [ofKey?, Option.or_eq_some_iff] at h
    rcases h with h | ⟨-, h⟩
    · exact .inr (by simpa using List.find?_some h)
    · exact .inl (by simpa using List.find?_some h)
  · rintro (rfl | h)
    · cases f <;> rfl
    · cases f <;> cases h <;> rfl

lemma Named.unique {f g : Field} {key : String} (hf : f.Named key) (hg : g.Named key) : f = g :=
  Option.some.inj ((ofKey?_eq_some_iff.mpr hf).symm.trans (ofKey?_eq_some_iff.mpr hg))

end Field

/-- The value of a field, if it is set. Only the replacement of the context may be unset. -/
def get? (s : Settings) : Field → Option Json
  | .baseIri => some s.baseIri
  | .context => some s.context
  | .contextSubstitution => s.contextSubstitution
  | .frame => some s.frame
  | .options => some s.options
  | .preferPrefixed => some s.preferPrefixed
  | .sortTriples => some s.sortTriples

lemma get?_set (s : Settings) (f g : Field) (v : Json) :
    (s.set f v).get? g = if g = f then some v else s.get? g := by
  cases f <;> cases g <;> rfl

/-- Settings are what their fields hold. -/
lemma eq_of_get?_eq {s t : Settings} (h : ∀ f, s.get? f = t.get? f) : s = t := by
  obtain ⟨baseIri, context, substitution, frame, options, preferPrefixed, sortTriples⟩ := s
  have hbaseIri := h .baseIri
  have hcontext := h .context
  have hsubstitution := h .contextSubstitution
  have hframe := h .frame
  have hoptions := h .options
  have hpreferPrefixed := h .preferPrefixed
  have hsortTriples := h .sortTriples
  simp only [get?, Option.some.injEq] at *
  subst hbaseIri hcontext hsubstitution hframe hoptions hpreferPrefixed hsortTriples
  rfl

/-! ### Values -/

/-- The value that an entry gives a field: of a JSON text the value that it denotes, of a flag its
truth value, and else its own. -/
inductive Gives (f : Field) : Json → Json → Prop
  | text {text : String} {v : Json} (hf : f.isJsonText = true) (h : Json.parse text = .ok v) :
    Gives f (.str text) v
  | flag (v : Json) (hf : f.isFlag = true) : Gives f v (.bool v.truthy)
  | own {v : Json} (hf : f.isFlag = false) (h : f.isJsonText = true → ∀ text, v ≠ .str text) :
    Gives f v v

lemma parseText_eq_ok_iff {field text : String} {v : Json} :
    parseText field text = .ok v ↔ Json.parse text = .ok v := by
  rw [parseText]
  rcases Json.parse text with (_ | _) | _ <;> simp

lemma fieldValue_text {f : Field} (hf : f.isJsonText = true) (text : String) :
    fieldValue f (.str text) = parseText f.name text := by
  unfold fieldValue
  rw [hf]

/-- What is no JSON text is read at once. -/
lemma fieldValue_own {f : Field} {v : Json} (h : f.isJsonText = true → ∀ text, v ≠ .str text) :
    fieldValue f v = .ok (if f.isFlag then .bool v.truthy else v) := by
  unfold fieldValue
  split
  · next text hf => exact (h hf text rfl).elim
  · rfl

/-- An entry is a text for a field that may be given as one, or it is read as it is. -/
lemma text_or_own (f : Field) (v : Json) : (f.isJsonText = true ∧ ∃ text, v = .str text) ∨
    (f.isJsonText = true → ∀ text, v ≠ .str text) := by
  by_cases hf : f.isJsonText = true
  · by_cases hv : ∃ text, v = .str text
    · exact .inl ⟨hf, hv⟩
    · exact .inr fun _ text h => hv ⟨text, h⟩
  · exact .inr fun h => (hf h).elim

lemma gives_iff {f : Field} {v w : Json} : Gives f v w ↔ fieldValue f v = .ok w := by
  rcases text_or_own f v with ⟨hf, text, rfl⟩ | hv
  · have hflag : f.isFlag = false := by cases f <;> first | rfl | cases hf
    rw [fieldValue_text hf, parseText_eq_ok_iff]
    constructor
    · rintro (⟨-, h⟩ | ⟨_, hf'⟩ | ⟨-, h⟩)
      · exact h
      · cases hflag.symm.trans hf'
      · exact (h hf text rfl).elim
    · exact .text hf
  · rw [fieldValue_own hv]
    constructor
    · rintro (⟨hf, -⟩ | ⟨_, hf⟩ | ⟨hf, -⟩)
      · exact (hv hf _ rfl).elim
      · rw [if_pos hf]
      · rw [hf]
        rfl
    · cases hf : f.isFlag <;> rintro ⟨⟩
      · exact .own hf hv
      · exact .flag v hf

/-- Only a JSON text is not read. -/
lemma fieldValue_eq_error_iff {f : Field} {v : Json} {e : Failure} : fieldValue f v = .error e ↔
    f.isJsonText = true ∧ ∃ text, v = .str text ∧ parseText f.name text = .error e := by
  constructor
  · intro h
    rcases text_or_own f v with ⟨hf, text, rfl⟩ | hv
    · exact ⟨hf, text, rfl, (fieldValue_text hf text).symm.trans h⟩
    · rw [fieldValue_own hv] at h
      cases h
  · rintro ⟨hf, text, rfl, h⟩
    rw [fieldValue_text hf, h]

def Malformed (e : String × Json) : Prop :=
  ∃ (f : Field) (text : String), f.Named e.1 ∧ f.isJsonText = true ∧ e.2 = .str text ∧
    ∀ v, Json.parse text ≠ .ok v

/-! ### Entries -/

def Stray (key : String) : Prop := ∀ f ∈ Field.all, ¬ f.Named key

instance (key : String) : Decidable (Stray key) := List.decidableBAll _ _

lemma ofKey?_eq_none_iff {key : String} : Field.ofKey? key = none ↔ Stray key := by
  have hall (f : Field) : f ∈ Field.all := by cases f <;> decide
  simp [Option.eq_none_iff_forall_ne_some, Field.ofKey?_eq_some_iff, Stray, hall]

def strayNotices (entries : List (String × Json)) : List Notice :=
  (entries.filter fun e => Stray e.1).map fun e =>
    .warn s!"Ignoring unknown serialization setting: {e.1}"

/-- What the last of the entries that name a field has for it. -/
inductive Last (f : Field) : List (String × Json) → Json → Prop
  | mk {before : List (String × Json)} {key : String} {v : Json} {after : List (String × Json)}
    (h : f.Named key) (hafter : ∀ e ∈ after, ¬ f.Named e.1) : Last f (before ++ (key, v) :: after) v

/-- Settings that have their fields from entries, and where none names them from other settings. -/
structure From (s₀ : Settings) (entries : List (String × Json)) (s : Settings) : Prop where
  named : ∀ f v, Last f entries v → ∃ w, Gives f v w ∧ s.get? f = some w
  unnamed : ∀ f : Field, (∀ e ∈ entries, ¬ f.Named e.1) → s.get? f = s₀.get? f

lemma Last.cons {f : Field} {entries : List (String × Json)} {v : Json} (h : Last f entries v)
    (e : String × Json) : Last f (e :: entries) v := by
  obtain @⟨before, key, v, after, h, hafter⟩ := h
  exact @Last.mk f (e :: before) key v after h hafter

/-- The first entry is the last to name a field, or a later one is. -/
lemma last_cons_iff {f : Field} {e : String × Json} {entries : List (String × Json)} {v : Json} :
    Last f (e :: entries) v ↔
      Last f entries v ∨ e.2 = v ∧ f.Named e.1 ∧ ∀ e' ∈ entries, ¬ f.Named e'.1 := by
  constructor
  · intro h
    generalize hwhole : e :: entries = whole at h
    obtain @⟨before, key, v, after, h, hafter⟩ := h
    rcases before with _ | ⟨_, before⟩
    · cases hwhole
      exact .inr ⟨rfl, h, hafter⟩
    · cases hwhole
      exact .inl (.mk h hafter)
  · rintro (h | ⟨rfl, h, hafter⟩)
    · exact h.cons e
    · exact @Last.mk f [] e.1 e.2 entries h hafter

lemma exists_last {f : Field} {entries : List (String × Json)}
    (h : ∃ e ∈ entries, f.Named e.1) : ∃ v, Last f entries v := by
  induction entries with
  | nil => simp at h
  | cons e rest ih =>
    by_cases hrest : ∃ e' ∈ rest, f.Named e'.1
    · obtain ⟨v, hv⟩ := ih hrest
      exact ⟨v, hv.cons e⟩
    · have hafter : ∀ e' ∈ rest, ¬ f.Named e'.1 := fun e' he' hf => hrest ⟨e', he', hf⟩
      obtain ⟨e', he', hf⟩ := h
      rcases List.mem_cons.mp he' with rfl | he'
      · exact ⟨_, last_cons_iff.mpr (.inr ⟨rfl, hf, hafter⟩)⟩
      · exact (hafter e' he' hf).elim

lemma Gives.unique {f : Field} {v w w' : Json} (h : Gives f v w) (h' : Gives f v w') : w = w' :=
  Except.ok.inj ((gives_iff.mp h).symm.trans (gives_iff.mp h'))

lemma From.unique {s₀ s s' : Settings} {entries : List (String × Json)} (h : From s₀ entries s)
    (h' : From s₀ entries s') : s = s' := by
  refine eq_of_get?_eq fun f => ?_
  by_cases hf : ∃ e ∈ entries, f.Named e.1
  · obtain ⟨v, hv⟩ := exists_last hf
    obtain ⟨w, hw, hs⟩ := h.named f v hv
    obtain ⟨w', hw', hs'⟩ := h'.named f v hv
    rw [hs, hs', hw.unique hw']
  · have hnone : ∀ e ∈ entries, ¬ f.Named e.1 := fun e he hnamed => hf ⟨e, he, hnamed⟩
    rw [h.unnamed f hnone, h'.unnamed f hnone]

/-! ### Mappings -/

/-- What is reported of options: nothing of an object, or where there are none. -/
inductive Reported (options : Json) : List Notice → Prop
  | usual (h : options = .null ∨ ∃ fields, options = .obj fields) : Reported options []
  | odd (hnull : options ≠ .null) (hobject : ∀ fields, options ≠ .obj fields) :
    Reported options
      [.warn <| s!"Processor options of type {options.kindName} are passed through " ++
        "unchanged; the JSON-LD processor expects a dict"]

lemma reported_iff {s : Settings} {ns : List Notice} : Reported s.options ns ↔ s.notices = ns := by
  rw [notices]
  generalize s.options = options
  constructor
  · rintro (⟨rfl | ⟨fields, rfl⟩⟩ | ⟨hnull, hobject⟩)
    · rfl
    · rfl
    · cases options with
      | null => exact (hnull rfl).elim
      | obj fields => exact (hobject fields rfl).elim
      | _ => rfl
  · rintro rfl
    cases options with
    | null => exact .usual (.inl rfl)
    | obj fields => exact .usual (.inr ⟨fields, rfl⟩)
    | _ => exact .odd nofun nofun

/-- How entries are set in settings, with what is reported: all of them, or up to the first that is
malformed. -/
inductive Outcome (s₀ : Settings) (entries : List (String × Json)) :
    List Notice × Except Failure Settings → Prop
  | set {s : Settings} (hread : ∀ e ∈ entries, ¬ Malformed e) (h : From s₀ entries s)
    {ns : List Notice} (hns : Reported s.options ns) :
    Outcome s₀ entries (strayNotices entries ++ ns, .ok s)
  | refused {before : List (String × Json)} {key text : String} {after : List (String × Json)}
    (hentries : entries = before ++ (key, .str text) :: after)
    (hbefore : ∀ e ∈ before, ¬ Malformed e) {f : Field} (hf : f.Named key)
    (htext : f.isJsonText = true) {e : Failure} (h : parseText f.name text = .error e) :
    Outcome s₀ entries (strayNotices before, .error e)

lemma not_malformed_of_stray {e : String × Json} (h : Stray e.1) : ¬ Malformed e := by
  rintro ⟨f, -, hf, -⟩
  cases (ofKey?_eq_none_iff.mpr h).symm.trans (Field.ofKey?_eq_some_iff.mpr hf)

lemma malformed_iff {f : Field} {key : String} (hf : f.Named key) {v : Json} :
    Malformed (key, v) ↔ ∃ e, fieldValue f v = .error e := by
  simp only [fieldValue_eq_error_iff]
  constructor
  · rintro ⟨g, text, hg, htext, rfl, h⟩
    obtain rfl := hf.unique hg
    rcases hparse : parseText f.name text with e | v
    · exact ⟨e, htext, text, rfl, hparse⟩
    · exact (h v (parseText_eq_ok_iff.mp hparse)).elim
  · rintro ⟨e, htext, text, rfl, he⟩
    refine ⟨f, text, hf, htext, rfl, fun v hv => ?_⟩
    rw [parseText_eq_ok_iff.mpr hv] at he
    cases he

lemma From.cons {s₀ s : Settings} {f : Field} {key : String} (hf : f.Named key) {v w : Json}
    (hw : Gives f v w) {rest : List (String × Json)} (h : From (s₀.set f w) rest s) :
    From s₀ ((key, v) :: rest) s where
  named g u hu := by
    rcases last_cons_iff.mp hu with hu | ⟨rfl, hg, hrest⟩
    · exact h.named g u hu
    · obtain rfl := hf.unique hg
      exact ⟨w, hw, by rw [h.unnamed f hrest, get?_set, if_pos rfl]⟩
  unnamed g hg := by
    have hne : g ≠ f := by
      rintro rfl
      exact hg (key, v) List.mem_cons_self hf
    rw [h.unnamed g fun e he => hg e (List.mem_cons_of_mem _ he), get?_set, if_neg hne]

lemma From.cons_stray {s₀ s : Settings} {e : String × Json} (hkey : Stray e.1)
    {rest : List (String × Json)} (h : From s₀ rest s) : From s₀ (e :: rest) s where
  named g u hu := by
    rcases last_cons_iff.mp hu with hu | ⟨-, hg, -⟩
    · exact h.named g u hu
    · cases (ofKey?_eq_none_iff.mpr hkey).symm.trans (Field.ofKey?_eq_some_iff.mpr hg)
  unnamed g hg := h.unnamed g fun e' he' => hg e' (List.mem_cons_of_mem _ he')

lemma strayNotices_cons_of_named {f : Field} {key : String} (hf : f.Named key) (v : Json)
    (rest : List (String × Json)) : strayNotices ((key, v) :: rest) = strayNotices rest := by
  have hkey : ¬ Stray key := by
    rw [← ofKey?_eq_none_iff, Field.ofKey?_eq_some_iff.mpr hf]
    nofun
  rw [strayNotices, List.filter_cons_of_neg (by simpa using hkey), strayNotices]

lemma setKeys_eq (s : Settings) (reported : List Notice) (entries : List (String × Json)) :
    setKeys s reported entries =
      (reported ++ (setKeys s [] entries).1, (setKeys s [] entries).2) := by
  induction entries generalizing s reported with
  | nil => simp [setKeys]
  | cons e rest ih =>
    obtain ⟨key, v⟩ := e
    rw [setKeys, setKeys]
    split
    · rw [ih, ih s ([] ++ _)]
      simp
    · next f _ =>
      split
      · exact ih _ _
      · simp

lemma Outcome.cons_stray {s₀ : Settings} {key : String} (hkey : Stray key) (v : Json)
    {rest : List (String × Json)} {r : List Notice × Except Failure Settings}
    (h : Outcome s₀ rest r) : Outcome s₀ ((key, v) :: rest)
      (.warn s!"Ignoring unknown serialization setting: {key}" :: r.1, r.2) := by
  have hnotices (entries : List (String × Json)) :
      .warn s!"Ignoring unknown serialization setting: {key}" :: strayNotices entries =
        strayNotices ((key, v) :: entries) := by
    rw [strayNotices, strayNotices, List.filter_cons_of_pos (by simpa using hkey), List.map_cons]
  have hread : ¬ Malformed (key, v) := not_malformed_of_stray hkey
  cases h with
  | set hrest hs hns =>
    rw [← List.cons_append, hnotices]
    exact .set (List.forall_mem_cons.mpr ⟨hread, hrest⟩) (hs.cons_stray hkey) hns
  | refused hentries hbefore hf htext herror =>
    rw [hnotices, hentries]
    exact .refused rfl (List.forall_mem_cons.mpr ⟨hread, hbefore⟩) hf htext herror

lemma Outcome.cons {s₀ : Settings} {f : Field} {key : String} (hf : f.Named key) {v w : Json}
    (hw : Gives f v w) {rest : List (String × Json)}
    {r : List Notice × Except Failure Settings} (h : Outcome (s₀.set f w) rest r) :
    Outcome s₀ ((key, v) :: rest) r := by
  have hread : ¬ Malformed (key, v) := by
    rw [malformed_iff hf, gives_iff.mp hw]
    simp
  cases h with
  | set hrest hs hns =>
    rw [← strayNotices_cons_of_named hf v]
    exact .set (List.forall_mem_cons.mpr ⟨hread, hrest⟩) (hs.cons hf hw) hns
  | refused hentries hbefore hg htext herror =>
    rw [← strayNotices_cons_of_named hf v, hentries]
    exact .refused rfl (List.forall_mem_cons.mpr ⟨hread, hbefore⟩) hg htext herror

lemma outcome_setKeys (s : Settings) (entries : List (String × Json)) :
    Outcome s entries (setKeys s [] entries) := by
  induction entries generalizing s with
  | nil =>
    refine .set (by simp) ⟨fun f v h => ?_, fun _ _ => rfl⟩ (reported_iff.mpr rfl)
    generalize hnil : [] = entries at h
    obtain @⟨before, _⟩ := h
    cases before <;> cases hnil
  | cons e rest ih =>
    obtain ⟨key, v⟩ := e
    rcases hkey : Field.ofKey? key with _ | f
    · simp only [setKeys, hkey, List.nil_append]
      rw [setKeys_eq]
      exact (ih s).cons_stray (ofKey?_eq_none_iff.mp hkey) v
    · have hf := Field.ofKey?_eq_some_iff.mp hkey
      rcases hvalue : fieldValue f v with e | w
      · simp only [setKeys, hkey, hvalue]
        obtain ⟨htext, text, rfl, herror⟩ := fieldValue_eq_error_iff.mp hvalue
        exact @Outcome.refused s _ [] key text rest rfl (by simp) f hf htext e herror
      · simp only [setKeys, hkey, hvalue]
        exact (ih (s.set f w)).cons hf (gives_iff.mpr hvalue)

lemma malformed_of_parseText {f : Field} {key text : String} (hf : f.Named key)
    (htext : f.isJsonText = true) {e : Failure} (h : parseText f.name text = .error e) :
    Malformed (key, .str text) :=
  (malformed_iff hf).mpr ⟨e, fieldValue_eq_error_iff.mpr ⟨htext, text, rfl, h⟩⟩

/-- What comes before the first of some kind, and that first, are found by going through a list. -/
lemma eq_takeWhile_dropWhile {α : Type} {p : α → Bool} {before after l : List α} {x : α}
    (h : l = before ++ x :: after) (hbefore : ∀ y ∈ before, p y = true) (hx : p x = false) :
    before = l.takeWhile p ∧ x :: after = l.dropWhile p := by
  subst h
  rw [List.takeWhile_append_of_pos hbefore, List.dropWhile_append_of_pos hbefore,
    List.takeWhile_cons_of_neg (by simp [hx]), List.dropWhile_cons_of_neg (by simp [hx])]
  simp

open Classical in
lemma Outcome.unique {s₀ : Settings} {entries : List (String × Json)}
    {r r' : List Notice × Except Failure Settings} (h : Outcome s₀ entries r)
    (h' : Outcome s₀ entries r') : r = r' := by
  cases h with
  | set hread hs hns =>
    cases h' with
    | set _ hs' hns' =>
      obtain rfl := hs.unique hs'
      rw [← reported_iff.mp hns, ← reported_iff.mp hns']
    | refused hentries _ hf htext herror =>
      exact (hread _ (by simp [hentries]) (malformed_of_parseText hf htext herror)).elim
  | refused hentries hbefore hf htext herror =>
    have hmalformed := malformed_of_parseText hf htext herror
    cases h' with
    | set hread => exact (hread _ (by simp [hentries]) hmalformed).elim
    | refused hentries' hbefore' hf' htext' herror' =>
      have hmalformed' := malformed_of_parseText hf' htext' herror'
      obtain ⟨hb, hrest⟩ := eq_takeWhile_dropWhile (p := fun e => ¬ Malformed e) hentries
        (by simpa using hbefore) (by simpa using hmalformed)
      obtain ⟨hb', hrest'⟩ := eq_takeWhile_dropWhile (p := fun e => ¬ Malformed e) hentries'
        (by simpa using hbefore') (by simpa using hmalformed')
      obtain rfl := hb.trans hb'.symm
      cases hrest.trans hrest'.symm
      obtain rfl := hf.unique hf'
      rw [Except.error.inj (herror.symm.trans herror')]

/-- Entries whose keys name no field change nothing but what is reported. -/
lemma setKeys_filter (s : Settings) (reported reported' : List Notice)
    (entries : List (String × Json)) :
    (setKeys s reported (entries.filter fun e => ¬ Stray e.1)).2 =
      (setKeys s reported' entries).2 := by
  induction entries generalizing s reported reported' with
  | nil => rfl
  | cons e rest ih =>
    obtain ⟨key, v⟩ := e
    rcases hkey : Field.ofKey? key with _ | f
    · rw [List.filter_cons_of_neg (by simpa using ofKey?_eq_none_iff.mp hkey)]
      simp only [setKeys, hkey]
      exact ih _ _ _
    · have hstray : ¬ Stray key := by
        rw [← ofKey?_eq_none_iff, hkey]
        nofun
      rw [List.filter_cons_of_pos (by simpa using hstray)]
      simp only [setKeys, hkey]
      rcases fieldValue f v with e | w
      · rfl
      · exact ih _ _ _

/-- **The settings of a mapping are those of its last entries.** A mapping is refused exactly if
one of its texts is malformed, with the failure of the first such text and after what is reported
of the entries before it. Entries that name no field are reported, each once and in order, and
change nothing else. -/
theorem ofMapping_outcome (entries : Json.Object) :
    (∀ r, ofMapping (.obj entries) = r ↔ Outcome {} entries r) ∧
    ((∃ e, (ofMapping (.obj entries)).2 = .error e) ↔ ∃ e ∈ entries, Malformed e) ∧
    (ofMapping (.obj (entries.filter fun e => ¬ Stray e.1))).2 = (ofMapping (.obj entries)).2 := by
  have hkeys (entries : Json.Object) : ofMapping (.obj entries) = setKeys {} [] entries := by
    cases entries <;> rfl
  have houtcome := outcome_setKeys {} entries
  simp only [hkeys]
  refine ⟨fun r => ⟨fun h => h ▸ houtcome, houtcome.unique⟩, ?_, setKeys_filter {} [] [] entries⟩
  generalize setKeys {} [] entries = r at houtcome
  cases houtcome with
  | set hread => simpa using hread
  | refused hentries _ hf htext herror =>
    simp only [Except.error.injEq, exists_eq', true_iff]
    exact ⟨_, by simp [hentries], malformed_of_parseText hf htext herror⟩

/-- A text that is no JSON is not made up for by a later entry, and a null is a replacement. -/
example :
    (∃ e, ofMapping (.obj [("context", .str "x"), ("JSONLD_CONTEXT", .null)]) = ([], .error e)) ∧
      ∃ s, ofMapping (.obj [("context_substitution", .str "null")]) = ([], .ok s) ∧
        s.contextSubstitution = some .null :=
  ⟨⟨_, rfl⟩, _, rfl, rfl⟩

end LinkedJson.Settings
