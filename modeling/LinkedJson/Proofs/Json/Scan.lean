import LinkedJson.Proofs.Json.Printed
import LinkedJson.Proofs.Json.Tokens

/-!
Which characters of a JSON text stand outside of its strings, as a one-pass scan.

A quotation mark opens or closes a string unless a backslash escapes it, and inside of a string a
backslash escapes the character after it. Printed values have whole strings only, so a text made
of them can be taken apart and each part scanned by itself.
-/

namespace LinkedJson.Json

open Grammar

inductive Place where
  | outside
  | inside
  | escaped
  deriving DecidableEq, Repr

namespace Place

def step : Place → Char → Place
  | .outside, c => if c = '"' then .inside else .outside
  | .inside, c => if c = '"' then .outside else if c = '\\' then .escaped else .inside
  | .escaped, _ => .inside

def run (s : Place) (cs : List Char) : Place := cs.foldl step s

@[simp] lemma run_nil (s : Place) : run s [] = s := rfl
@[simp] lemma run_cons (s : Place) (c : Char) (cs : List Char) :
    run s (c :: cs) = run (step s c) cs := rfl
lemma run_append (s : Place) (u v : List Char) : run s (u ++ v) = run (run s u) v := by
  simp [run, List.foldl_append]

def keep (p : Place → Char → Bool) : Place → List Char → List Char
  | _, [] => []
  | s, c :: cs => if p s c then c :: keep p (step s c) cs else keep p (step s c) cs

variable {p : Place → Char → Bool} {s : Place}

@[simp] lemma keep_nil : keep p s [] = [] := rfl

lemma keep_cons (c : Char) (cs : List Char) :
    keep p s (c :: cs) = (if p s c then [c] else []) ++ keep p (step s c) cs := by
  by_cases h : p s c <;> simp [keep, h]

lemma keep_append (u v : List Char) :
    keep p s (u ++ v) = keep p s u ++ keep p (run s u) v := by
  induction u generalizing s with
  | nil => rfl
  | cons c u ih => rw [List.cons_append, keep_cons, keep_cons, ih, List.append_assoc, run_cons]

lemma step_mark : step .outside '"' = .inside := rfl

lemma step_outside {c : Char} (h : c ≠ '"') : step .outside c = .outside := by
  simp [step, h]

lemma run_of_no_mark {cs : List Char} (h : '"' ∉ cs) : run .outside cs = .outside := by
  induction cs with
  | nil => rfl
  | cons c cs ih =>
    rw [List.mem_cons, not_or] at h
    rw [run_cons, step_outside (Ne.symm h.1), ih h.2]

lemma keep_of_no_mark {cs : List Char} (h : '"' ∉ cs) :
    keep p .outside cs = cs.filter (p .outside) := by
  induction cs with
  | nil => rfl
  | cons c cs ih =>
    rw [List.mem_cons, not_or] at h
    rw [keep_cons, step_outside (Ne.symm h.1), ih h.2, List.filter_cons]
    by_cases hc : p .outside c <;> simp [hc]

lemma step_inside {c : Char} (hmark : c ≠ '"') (hslash : c ≠ '\\') : step .inside c = .inside := by
  simp [step, hmark, hslash]

lemma step_hex {c : Char} (h : (Text.hexValue? c).isSome = true) : step .inside c = .inside := by
  refine step_inside ?_ ?_ <;> (rintro rfl; revert h; decide)

lemma step_backslash : step .inside '\\' = .escaped := rfl

lemma step_escaped (c : Char) : step .escaped c = .inside := rfl

/-- What stands between the marks of a string does not leave it. -/
lemma run_body {cs : List Char} (h : Body cs) : run .inside cs = .inside := by
  induction h with
  | nil => rfl
  | plain _ hmark hslash _ ih => rw [run_cons, step_inside hmark hslash, ih]
  | short _ _ ih => exact ih
  | numeric hc _ ih =>
    simp only [List.mem_cons, forall_eq_or_imp] at hc
    obtain ⟨h₁, h₂, h₃, h₄, -⟩ := hc
    rw [run_cons, run_cons, step_backslash, step_escaped, run_cons, step_hex h₁, run_cons,
      step_hex h₂, run_cons, step_hex h₃, run_cons, step_hex h₄, ih]

/-- A choice that does not tell the places in a string apart is one of characters there. -/
lemma keep_body (hp : ∀ s c, s ≠ .outside → p s c = p .inside c) {cs : List Char} (h : Body cs) :
    keep p .inside cs = cs.filter (p .inside) := by
  have hcons {s : Place} (hs : s ≠ .outside) (c : Char) (cs : List Char) : keep p s (c :: cs) =
      if p .inside c then c :: keep p (step s c) cs else keep p (step s c) cs := by
    rw [keep, hp s c hs]
  have hinside := hcons (s := .inside) (by decide)
  have hescaped := hcons (s := .escaped) (by decide)
  induction h with
  | nil => rfl
  | plain _ hmark hslash _ ih => rw [hinside, step_inside hmark hslash, ih, List.filter_cons]
  | short _ _ ih =>
    rw [hinside, step_backslash, hescaped, step_escaped, ih, List.filter_cons, List.filter_cons]
  | numeric hc _ ih =>
    simp only [List.mem_cons, forall_eq_or_imp] at hc
    obtain ⟨h₁, h₂, h₃, h₄, -⟩ := hc
    simp only [hinside, hescaped, step_backslash, step_escaped, step_hex h₁, step_hex h₂,
      step_hex h₃, step_hex h₄, ih, List.filter_cons]

end Place

/-- The characters outside of strings, with the marks that open them. -/
def outer (cs : List Char) : List Char := Place.keep (fun s _ => s = .outside) .outside cs

def unspaced (cs : List Char) : List Char :=
  Place.keep (fun s c => !(s = .outside && (c = ' ' || c = '\n'))) .outside cs

def Balanced (cs : List Char) : Prop := Place.run .outside cs = .outside

lemma Balanced.append {u v : List Char} (hu : Balanced u) (hv : Balanced v) :
    Balanced (u ++ v) := by
  unfold Balanced at *
  rw [Place.run_append, hu, hv]

lemma outer_append {u : List Char} (hu : Balanced u) (v : List Char) :
    outer (u ++ v) = outer u ++ outer v := by
  unfold Balanced at hu
  rw [outer, Place.keep_append, hu]
  rfl

lemma unspaced_append {u : List Char} (hu : Balanced u) (v : List Char) :
    unspaced (u ++ v) = unspaced u ++ unspaced v := by
  unfold Balanced at hu
  rw [unspaced, Place.keep_append, hu]
  rfl

lemma balanced_of_no_mark {cs : List Char} (h : '"' ∉ cs) : Balanced cs := Place.run_of_no_mark h

lemma outer_of_no_mark {cs : List Char} (h : '"' ∉ cs) : outer cs = cs := by
  rw [outer, Place.keep_of_no_mark h]
  simp

lemma balanced_quoted {cs : List Char} (h : Quoted cs) : Balanced cs := by
  cases h with
  | mk h =>
    rw [Balanced, List.cons_append, Place.run_cons, Place.run_append, Place.step_mark,
      Place.run_body h]
    rfl

lemma outer_quoted {cs : List Char} (h : Quoted cs) : outer cs = ['"'] := by
  cases h with
  | mk h =>
    rw [outer, List.cons_append, Place.keep_cons, Place.keep_append, Place.step_mark,
      Place.run_body h, Place.keep_body _ h]
    · simp [Place.keep_cons]
    · simp +contextual

lemma unspaced_quoted {cs : List Char} (h : Quoted cs) : unspaced cs = cs := by
  cases h with
  | mk h =>
    rw [unspaced, List.cons_append, Place.keep_cons, Place.keep_append, Place.step_mark,
      Place.run_body h, Place.keep_body _ h]
    · simp [Place.keep_cons]
    · simp +contextual

/-! ### Printed values -/

def Visible (c : Char) : Prop := 32 < c.toNat ∧ c ≠ '"'

instance (c : Char) : Decidable (Visible c) := inferInstanceAs (Decidable (_ ∧ _))

lemma visible_of_isNumeral {c : Char} (h : IsNumeral c) : Visible c := by
  rcases h with h | h
  · have hlow : 48 ≤ c.toNat := by
      simp only [Char.isDigit, Bool.and_eq_true, decide_eq_true_eq] at h
      exact h.1
    refine ⟨by omega, ?_⟩
    rintro rfl
    revert hlow
    decide
  · simp only [List.mem_cons, List.not_mem_nil, or_false] at h
    rcases h with rfl | rfl | rfl | rfl | rfl <;> decide

lemma visible_name {x : Double} (h : x.isFinite = false) :
    ∀ c ∈ x.text Double.documentStyle, Visible c := by
  rcases x with _ | negative | ⟨negative, m, e⟩
  · decide
  · cases negative <;> decide
  · cases h

/-- A token is a string, or has visible characters only. -/
lemma Token.quoted_or_visible {t : List Char} (h : Token t) : Quoted t ∨ ∀ c ∈ t, Visible c := by
  cases h with
  | structural hc =>
    refine Or.inr fun c h => ?_
    obtain rfl := List.mem_singleton.mp h
    simp only [List.mem_cons, List.not_mem_nil, or_false] at hc
    rcases hc with rfl | rfl | rfl | rfl | rfl <;> decide
  | word hw =>
    simp only [List.mem_cons, List.not_mem_nil, or_false] at hw
    rcases hw with rfl | rfl | rfl <;> exact Or.inr (by decide)
  | number h => exact Or.inr fun c hc => visible_of_isNumeral (h.isNumeral c hc)
  | name h => exact Or.inr (visible_name h)
  | string s => exact Or.inl (quoted_printString s)

lemma no_mark_of_visible {cs : List Char} (h : ∀ c ∈ cs, Visible c) : '"' ∉ cs :=
  fun hmark => (h _ hmark).2 rfl

lemma Token.balanced {t : List Char} (h : Token t) : Balanced t := by
  rcases h.quoted_or_visible with h | h
  · exact balanced_quoted h
  · exact balanced_of_no_mark (no_mark_of_visible h)

lemma balanced_newLine (layout : Layout) (depth : ℕ) : Balanced (layout.newLine depth) :=
  balanced_of_no_mark fun h => absurd (space_newLine layout depth _ h) (by decide)

lemma balanced_colon (layout : Layout) : Balanced layout.colon := by
  cases layout <;> exact balanced_of_no_mark (by decide)

lemma piecewise_balanced (layout : Layout) : Piecewise layout layout fun u _ => Balanced u where
  nil := rfl
  append := Balanced.append
  token := Token.balanced
  newLine := fun depth _ => balanced_newLine layout depth
  colon := balanced_colon layout

lemma balanced_print (layout : Layout) (depth : ℕ) (v : Json) :
    Balanced (print layout depth v) :=
  (piecewise_balanced layout).print v depth depth

end LinkedJson.Json
