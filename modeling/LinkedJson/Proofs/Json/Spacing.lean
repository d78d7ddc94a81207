import LinkedJson.Proofs.Json.Scan

/-!
The two layouts of a value differ only in the spaces and line feeds outside of strings.

On one line there is no control at all, and in neither layout does a text end in a line feed.
-/

namespace LinkedJson.Json

open Grammar

/-! ### Controls -/

def NoControl (cs : List Char) : Prop := ∀ c ∈ cs, 32 ≤ c.toNat

instance (cs : List Char) : Decidable (NoControl cs) := inferInstanceAs (Decidable (∀ _ ∈ _, _))

lemma NoControl.append {u v : List Char} (hu : NoControl u) (hv : NoControl v) :
    NoControl (u ++ v) := by
  intro c hc
  rcases List.mem_append.mp hc with hc | hc
  · exact hu c hc
  · exact hv c hc

lemma noControl_of_visible {cs : List Char} (h : ∀ c ∈ cs, Visible c) : NoControl cs :=
  fun c hc => Nat.le_of_lt (h c hc).1

lemma le_toNat_of_hexValue? {c : Char} (h : (Text.hexValue? c).isSome = true) : 48 ≤ c.toNat := by
  unfold Text.hexValue? at h
  split_ifs at h with h₁ h₂ h₃
  · exact h₁.1
  · exact Nat.le_trans (by decide) (show 97 ≤ c.toNat from h₂.1)
  · exact Nat.le_trans (by decide) (show 65 ≤ c.toNat from h₃.1)
  · cases h

lemma noControl_of_body {cs : List Char} (h : Body cs) : NoControl cs := by
  induction h with
  | nil => simp [NoControl]
  | plain hc _ _ _ ih =>
    exact NoControl.append (u := [_]) (by simpa [NoControl] using hc) ih
  | short hc _ ih =>
    refine NoControl.append (u := ['\\', _]) ?_ ih
    simp only [List.mem_cons, List.not_mem_nil, or_false] at hc
    rcases hc with rfl | rfl | rfl | rfl | rfl | rfl | rfl | rfl <;> decide
  | numeric hc _ ih =>
    refine NoControl.append (u := ['\\', 'u']) (by decide) (NoControl.append (u := [_, _, _, _])
      (fun c h => ?_) ih)
    have hle := le_toNat_of_hexValue? (hc c h)
    omega

lemma noControl_quoted {cs : List Char} (h : Quoted cs) : NoControl cs := by
  cases h with
  | mk h =>
    exact NoControl.append (NoControl.append (u := ['"']) (by decide) (noControl_of_body h))
      (by decide)

lemma Token.noControl {t : List Char} (h : Token t) : NoControl t := by
  rcases h.quoted_or_visible with h | h
  · exact noControl_quoted h
  · exact noControl_of_visible h

lemma piecewise_noControl : Piecewise .flat .flat fun u _ => NoControl u where
  nil := by simp [NoControl]
  append := NoControl.append
  token := Token.noControl
  newLine := fun _ _ => by simp [NoControl, Layout.newLine]
  colon := by decide

/-- On one line there is no control. -/
theorem noControl_print_flat (v : Json) (depth : ℕ) : NoControl (print .flat depth v) :=
  piecewise_noControl.print v depth depth

/-- The text of a value does not end in a line feed. -/
theorem getLast?_print_ne (layout : Layout) (depth : ℕ) (v : Json) :
    (print layout depth v).getLast? ≠ some '\n' := by
  have hscalar (h : print layout depth v = print .flat depth v) :
      (print layout depth v).getLast? ≠ some '\n' := by
    intro hlast
    have hcontrol := noControl_print_flat v depth '\n' (h ▸ List.mem_of_getLast? hlast)
    exact absurd hcontrol (by decide)
  cases v with
  | arr items =>
    rcases items with _ | ⟨v, rest⟩
    · exact hscalar rfl
    · rw [print, List.getLast?_concat]
      decide
  | obj fields =>
    rcases fields with _ | ⟨f, rest⟩
    · exact hscalar rfl
    · rw [print, List.getLast?_concat]
      decide
  | bool b => cases b <;> exact hscalar rfl
  | _ => exact hscalar rfl

/-! ### Spaces -/

lemma unspaced_of_visible {cs : List Char} (h : ∀ c ∈ cs, Visible c) : unspaced cs = cs := by
  rw [unspaced, Place.keep_of_no_mark (no_mark_of_visible h), List.filter_eq_self]
  intro c hc
  have hlt := (h c hc).1
  have hspace : c ≠ ' ' ∧ c ≠ '\n' := by
    constructor <;> (rintro rfl; revert hlt; decide)
  simp [hspace]

lemma Token.unspaced_eq {t : List Char} (h : Token t) : unspaced t = t := by
  rcases h.quoted_or_visible with h | h
  · exact unspaced_quoted h
  · exact unspaced_of_visible h

lemma unspaced_newLine (depth : ℕ) : unspaced (Layout.newLine .pretty depth) = [] := by
  rw [unspaced, Place.keep_of_no_mark, List.filter_eq_nil_iff]
  · intro c hc
    rcases List.mem_cons.mp hc with rfl | hc
    · simp
    · simp [List.eq_of_mem_replicate hc]
  · exact fun h => absurd (space_newLine .pretty depth _ h) (by decide)

lemma piecewise_unspaced :
    Piecewise .pretty .flat fun u v => Balanced u ∧ unspaced u = v where
  nil := ⟨rfl, rfl⟩
  append := fun hu hx => ⟨hu.1.append hx.1, by rw [unspaced_append hu.1, hu.2, hx.2]⟩
  token := fun h => ⟨h.balanced, h.unspaced_eq⟩
  newLine := fun d _ => ⟨balanced_newLine .pretty d, unspaced_newLine d⟩
  colon := ⟨rfl, by decide⟩

/-- **Without the spaces and line feeds outside of strings the indented text is the text on one
line.** -/
theorem unspaced_print_pretty (v : Json) (d e : ℕ) :
    unspaced (print .pretty d v) = print .flat e v :=
  (piecewise_unspaced.print v d e).2

end LinkedJson.Json
