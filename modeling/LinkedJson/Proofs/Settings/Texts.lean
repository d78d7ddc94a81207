import LinkedJson.Proofs.Json.Overlong
import LinkedJson.Proofs.Settings.Mapping

/-!
How JSON texts for settings fail.

A text that is no JSON is an error of the configuration, which names the field and the place. One
kind of text fails otherwise: where it is in order up to an integer of more digits than are read,
what comes of it is an accident, and so it is with a mapping that gives such a text.
-/

namespace LinkedJson.Settings

variable {α : Type}

/-- There is a result, or a text for a field is told to be no JSON. -/
def Declared (r : Except Failure α) : Prop :=
  ∀ e, r = .error e → ∃ field report, e = .configuration (.invalidJson field report)

lemma not_declared_accident (a : Accident) :
    ¬ Declared (.error (.accident a) : Except Failure α) := by
  intro h
  obtain ⟨field, report, he⟩ := h _ rfl
  cases he

lemma parseText_eq_tooLong_iff {field text : String} {n : ℕ} :
    parseText field text = .error (.accident (.tooLong n)) ↔ Json.Overlong text.toList n := by
  rw [← Json.parseChars_eq_tooLong_iff, parseText, Json.parse]
  rcases Json.parseChars text.toList with (⟨what, rest⟩ | m) | v <;> simp

lemma parseText_cases (field text : String) : Declared (parseText field text) ∨
    ∃ n, parseText field text = .error (.accident (.tooLong n)) := by
  rw [parseText]
  rcases Json.parse text with (⟨what, rest⟩ | n) | v
  · refine .inl fun e he => ?_
    cases he
    exact ⟨field, _, rfl⟩
  · exact .inr ⟨n, rfl⟩
  · exact .inl fun e he => by cases he

lemma declared_parseText_iff {field text : String} :
    Declared (parseText field text) ↔ ∀ n, ¬ Json.Overlong text.toList n := by
  constructor
  · intro h n hlong
    rw [parseText_eq_tooLong_iff.mpr hlong] at h
    exact not_declared_accident _ h
  · intro h
    refine (parseText_cases field text).resolve_right ?_
    rintro ⟨n, hn⟩
    exact h n (parseText_eq_tooLong_iff.mp hn)

/-- The first of the entries that are malformed has a text with an integer of so many digits, more
than are read. -/
inductive StopsAtLong (entries : List (String × Json)) (n : ℕ) : Prop
  | mk {before : List (String × Json)} {key text : String} {after : List (String × Json)}
    (hentries : entries = before ++ (key, .str text) :: after)
    (hbefore : ∀ e ∈ before, ¬ Malformed e) {f : Field} (hf : f.Named key)
    (htext : f.isJsonText = true) (h : Json.Overlong text.toList n)

lemma Outcome.eq_tooLong_iff {s₀ : Settings} {entries : List (String × Json)}
    {r : List Notice × Except Failure Settings} (h : Outcome s₀ entries r) {n : ℕ} :
    r.2 = .error (.accident (.tooLong n)) ↔ StopsAtLong entries n := by
  constructor
  · intro hr
    cases h with
    | set => cases hr
    | refused hentries hbefore hf htext herror =>
      cases hr
      exact .mk hentries hbefore hf htext (parseText_eq_tooLong_iff.mp herror)
  · rintro @⟨before, key, text, after, hentries, hbefore, f, hf, htext, hlong⟩
    have herror := (@parseText_eq_tooLong_iff f.name text n).mpr hlong
    rw [h.unique (.refused hentries hbefore hf htext herror)]

lemma Outcome.declared_iff {s₀ : Settings} {entries : List (String × Json)}
    {r : List Notice × Except Failure Settings} (h : Outcome s₀ entries r) :
    Declared r.2 ↔ ∀ n, ¬ StopsAtLong entries n := by
  constructor
  · intro hr n hlong
    rw [h.eq_tooLong_iff.mpr hlong] at hr
    exact not_declared_accident _ hr
  · intro hnone e he
    have hlong (n : ℕ) (hr : r.2 = .error (.accident (.tooLong n))) : False :=
      hnone n (h.eq_tooLong_iff.mp hr)
    cases h with
    | set => cases he
    | @refused before key text after _ _ f _ _ e' herror =>
      cases he
      rcases parseText_cases f.name text with hdeclared | ⟨n, hn⟩
      · exact hdeclared e herror
      · cases herror.symm.trans hn
        exact (hlong n rfl).elim

lemma outcome_ofMapping (entries : Json.Object) :
    Outcome {} entries (ofMapping (.obj entries)) := by
  cases entries <;> exact outcome_setKeys {} _

/-- **Only integers that are too long keep a text from being read or refused as no JSON.** It is so
of a single text, and of a mapping by the first of its texts that is not read. -/
theorem parseText_declared_iff (field text : String) (entries : Json.Object) :
    (∀ n, parseText field text = .error (.accident (.tooLong n)) ↔
      Json.Overlong text.toList n) ∧
    (Declared (parseText field text) ↔ ∀ n, ¬ Json.Overlong text.toList n) ∧
    (∀ n, (ofMapping (.obj entries)).2 = .error (.accident (.tooLong n)) ↔
      StopsAtLong entries n) ∧
    (Declared (ofMapping (.obj entries)).2 ↔ ∀ n, ¬ StopsAtLong entries n) :=
  ⟨fun _ => parseText_eq_tooLong_iff, declared_parseText_iff,
    fun _ => (outcome_ofMapping entries).eq_tooLong_iff, (outcome_ofMapping entries).declared_iff⟩

lemma whole_ones (n : ℕ) : Json.Grammar.Whole (List.replicate (n + 1) '1') := by
  rw [List.replicate_succ]
  refine .digits (by decide) ⟨by simp, fun c hc => ?_⟩
  rcases List.mem_cons.mp hc with rfl | hc
  · rfl
  · rw [List.eq_of_mem_replicate hc]
    rfl

lemma document_ones (n : ℕ) : Json.Grammar.Document (List.replicate (n + 1) '1') := by
  have hnumber := Json.Grammar.Number.mk (.inl rfl) (whole_ones n) .absent .absent
  rw [List.nil_append, List.append_nil, List.append_nil] at hnumber
  simpa using Json.Grammar.Document.mk Json.Grammar.space_nil (.number hnumber)
    Json.Grammar.space_nil

lemma overlong_ones {n : ℕ} (h : Json.maxDigits < n + 1) :
    Json.Overlong (List.replicate (n + 1) '1') (n + 1) := by
  have hend : ¬ Json.Continues [] := Json.not_continues_iff.mpr ⟨nofun, rfl, rfl⟩
  have hlong := Json.LongInteger.mk (.inl rfl) (whole_ones n) (by simpa using h) hend
  rw [List.length_replicate, List.nil_append, List.append_nil] at hlong
  exact @Json.Overlong.mk [] _ _ rfl hlong

def ones : String := String.ofList (List.replicate (Json.maxDigits + 1) '1')

/-- An integer that is too long is JSON, and yet neither read nor refused as no JSON. -/
theorem not_declared : Json.Grammar.Document ones.toList ∧
    ¬ Declared (parseText "context" ones) ∧
    ¬ Declared (ofMapping (.obj [("context", .str ones)])).2 := by
  have hchars : ones.toList = List.replicate (Json.maxDigits + 1) '1' := String.toList_ofList
  have hdocument := document_ones Json.maxDigits
  have hlong := overlong_ones (Nat.lt_succ_self Json.maxDigits)
  rw [← hchars] at hdocument hlong
  refine ⟨hdocument, fun h => ?_, fun h => ?_⟩
  · exact declared_parseText_iff.mp h _ hlong
  · refine (outcome_ofMapping _).declared_iff.mp h (Json.maxDigits + 1) ?_
    exact @StopsAtLong.mk _ _ [] "context" ones [] rfl (by simp) .context (.inl rfl) rfl hlong

end LinkedJson.Settings
